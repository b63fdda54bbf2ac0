import Ftm50s.Udhcpd.LeasePage

set_option autoImplicit false

namespace Ftm50s.Udhcpd

open Lib.Text Ftm50s.Dhcp Ftm50s.Dhcp.LanChange
open Lib.BigEndian (decode)
open Ftm50s.Syslog (latin wellFormed decodeXml)

theorem dump_line_open (writtenAt curr : Nat) (lease : Lease) (listed : Listed lease) :
    (10 : UInt8) ∉ dumpLine writtenAt curr lease := by
  have time := printed_no_nul _ (time_of_spaced writtenAt curr lease listed).letters
  have shape : dumpLine writtenAt curr lease =
      macText lease.mac ++ 32 :: (padTo 16 32 (dotted lease.nip) ++
      (padTo 20 32 lease.hostname ++ timeOf writtenAt curr lease)) := rfl
  rw [shape]
  simp only [List.mem_append, List.mem_cons, not_or]
  exact ⟨(mac_clean lease.mac).2, by decide, pad_clean 16 _ 10 (by decide) (dotted_clean lease.nip).2,
    pad_clean 20 _ 10 (by decide) (name_clean lease listed).2, time.2⟩

theorem lease_pieces (writtenAt curr : Nat) (leases : List Lease) (listed : ∀ lease ∈ leases, Listed lease) :
    leasePieces (unlines (heading :: leases.map (dumpLine writtenAt curr))) =
      some (leases.flatMap fun lease => piecesOf lease (timeOf writtenAt curr lease)) := by
  have whole : ∀ line ∈ heading :: leases.map (dumpLine writtenAt curr), (10 : UInt8) ∉ line := by
    rw [List.forall_mem_cons]
    refine ⟨by decide, ?_⟩
    intro line member
    obtain ⟨lease, inside, rfl⟩ := List.mem_map.mp member
    exact dump_line_open writtenAt curr lease (listed lease inside)
  have skipped : awkLease heading = [] := by decide
  have cut : (heading :: leases.map (dumpLine writtenAt curr)).flatMap awkLease =
      leases.flatMap fun lease => awkLines lease (timeOf writtenAt curr lease) := by
    rw [List.flatMap_cons, skipped, List.nil_append, List.flatMap_map]
    exact List.flatMap_congr fun lease member => awk_dump_line writtenAt curr lease (listed lease member)
  have fits : ∀ line ∈ leases.flatMap fun lease => awkLines lease (timeOf writtenAt curr lease),
      (10 : UInt8) ∉ line ∧ line.length + 1 < 1024 := by
    intro line member
    obtain ⟨lease, inside, here⟩ := List.mem_flatMap.mp member
    exact awk_lines_fit lease _ (listed lease inside) (time_of_spaced writtenAt curr lease
      (listed lease inside)) line here
  have turns := map_m_flat_map (fun raw => (scanFour raw).bind leaseTurn)
    (fun lease => (awkLines lease (timeOf writtenAt curr lease)).map fun line => line ++ [10])
    (fun lease => (piecesOf lease (timeOf writtenAt curr lease)).map fun piece => [piece]) leases fun lease member =>
      turns_of_lines lease _ (listed lease member) (time_of_spaced writtenAt curr lease (listed lease member))
  rw [leasePieces, parseDumpleases, lines_unlines _ whole, cut, fgets_unlines 1024 _ (fun line member =>
    (fits line member).1)
    (fun line member => (fits line member).2), List.map_flatMap, turns, Option.map_some, List.flatten_eq_flatMap,
    List.flatMap_assoc]
  rfl

def childrenOf (lease : Lease) (time : Bytes) : Children :=
  [(ascii "MAC", latin (macText lease.mac)), (ascii "IP", latin (dotted lease.nip)),
    (ascii "HOSTNAME", shown (nameText lease)),
    (ascii "EXPIRESIN", latin (time ++ [32]))]

theorem elements_cons (lease : Lease) (time : Bytes) (rest : List Piece) (given : IsSpaced time) :
    leaseElements none (piecesOf lease time ++ rest) =
      if wellFormed (latin (nameText lease)) then (leaseElements none rest).map (childrenOf lease time :: ·)
      else none := by
  have mac := printed_shown (macText lease.mac) fun c member => Or.inl (mac_printed lease.mac c member)
  have ip := printed_shown (dotted lease.nip) fun c member => Or.inl (dotted_printed lease.nip c member)
  have left : decodeXml (latin (time ++ [32])) = some (latin (time ++ [32])) := by
    apply printed_shown
    intro c member
    rcases List.mem_append.mp member with inside | blank
    · exact given.letters c inside
    · exact Or.inr (List.mem_singleton.mp blank)
  simp only [piecesOf, List.cons_append, List.nil_append, leaseElements, mac, ip, Option.bind_some]
  by_cases formed : wellFormed (latin (nameText lease)) = true
  · rw [if_pos formed, decode_formed _ formed, Option.bind_some, left]
    rfl
  · rw [if_neg formed, decode_broken _ formed]
    rfl

theorem elements_all (leases : List Lease) (time : Lease → Bytes) (given : ∀ lease ∈ leases, IsSpaced (time lease)) :
    leaseElements none (leases.flatMap fun lease => piecesOf lease (time lease)) =
      if leases.all fun lease => wellFormed (latin (nameText lease)) then some (leases.map fun lease =>
        childrenOf lease (time lease))
      else none := by
  induction leases with
  | nil => rfl
  | cons lease rest ih =>
      rw [List.forall_mem_cons] at given
      rw [List.flatMap_cons, elements_cons lease _ _ given.1, ih given.2, List.all_cons]
      by_cases formed : wellFormed (latin (nameText lease)) = true
      · rw [if_pos formed, formed, Bool.true_and]
        split <;> rfl
      · rw [if_neg formed, Bool.not_eq_true] at *
        rw [formed, Bool.false_and]
        rfl

theorem pieces_unmarked (lease : Lease) (time : Bytes) (given : IsSpaced time) (name : (60 : UInt8) ∉ lease.hostname) :
    (piecesOf lease time).any isMarkedPiece = false := by
  have printed : ∀ text : Bytes, (∀ c ∈ text, isPrinted c = true ∨ c = 32) → (60 : UInt8) ∉ text := by
    intro text letters member
    rcases letters 60 member with letter | blank
    · exact absurd letter (by decide)
    · cases blank
  have mac := printed (macText lease.mac) fun c member => Or.inl (mac_printed lease.mac c member)
  have ip := printed (dotted lease.nip) fun c member => Or.inl (dotted_printed lease.nip c member)
  have left : (60 : UInt8) ∉ time ++ [32] := by
    rw [List.mem_append, not_or]
    exact ⟨printed time given.letters, by decide⟩
  have own : (60 : UInt8) ∉ nameText lease := by
    intro member
    obtain ⟨word, inside, here⟩ := List.mem_flatMap.mp member
    rcases List.mem_append.mp here with letter | blank
    · exact name ((words_part lease.hostname word (List.mem_of_mem_take inside)).subset letter)
    · exact absurd blank (by decide)
  simp only [piecesOf, List.any_cons, List.any_nil, isMarkedPiece, Bool.or_false, Bool.false_or, Bool.or_eq_false_iff]
  exact ⟨by simpa using mac, by simpa using ip, by simpa using own, by simpa using left⟩

-- A name with something in it besides blanks
def isNamed (lease : Lease) : Bool := !(words lease.hostname).isEmpty

def rowOf (i : Nat) (lease : Lease) (time : Bytes) : PageRow :=
  ⟨i + 1, latin (macText lease.mac), latin (dotted lease.nip), shown (nameText lease), latin (time ++ [32])⟩

theorem node_value_given (text : Text) (given : text ≠ []) : nodeValue text = some text := by
  rw [nodeValue, if_neg (by simpa using given)]

theorem latin_given (text : Bytes) (given : text ≠ []) : latin text ≠ [] := by
  intro empty
  exact given (List.map_eq_nil_iff.mp empty)

theorem name_given (lease : Lease) : isNamed lease = true ↔ nameText lease ≠ [] := by
  rw [isNamed, nameText, spaced]
  cases words lease.hostname <;> simp

theorem page_row (i : Nat) (lease : Lease) (time : Bytes) (formed : wellFormed (latin (nameText lease)) = true) :
    pageRow i (childrenOf lease time) = if isNamed lease then some (rowOf i lease time) else none := by
  have mac : childText (childrenOf lease time) "MAC" = some (latin (macText lease.mac)) :=
    node_value_given _ (latin_given _ (word_nonempty _ (mac_word lease.mac)))
  have ip : childText (childrenOf lease time) "IP" = some (latin (dotted lease.nip)) :=
    node_value_given _ (latin_given _ (word_nonempty _ (dotted_word lease.nip)))
  have name : childText (childrenOf lease time) "HOSTNAME" = nodeValue (shown (nameText lease)) := rfl
  have left : childText (childrenOf lease time) "EXPIRESIN" = some (latin (time ++ [32])) :=
    node_value_given _ (latin_given _ (by simp))
  by_cases named : isNamed lease = true
  · have decoded := Ftm50s.Syslog.decode_xml_nonempty _ _ (latin_given _ ((name_given lease).mp named))
      (decode_formed _ formed)
    simp only [pageRow, mac, ip, name, left, node_value_given _ decoded, if_pos named]
    rfl
  · have blank : nameText lease = [] := by
      by_contra given
      exact named ((name_given lease).mpr given)
    have missing : nodeValue (shown ([] : Bytes)) = none := rfl
    simp only [pageRow, mac, ip, name, left, blank, missing, if_neg named]
    rfl

theorem insert_rows (i : Nat) (leases : List Lease) (time : Lease → Bytes)
    (formed : ∀ lease ∈ leases, wellFormed (latin (nameText lease)) = true) :
    insertRows i (leases.map fun lease => childrenOf lease (time lease)) =
      (leases.takeWhile isNamed).mapIdx fun k lease => rowOf (i + k) lease (time lease) := by
  induction leases generalizing i with
  | nil => rfl
  | cons lease rest ih =>
      rw [List.forall_mem_cons] at formed
      rw [List.map_cons, insertRows, page_row i lease _ formed.1]
      by_cases named : isNamed lease = true
      · rw [if_pos named, List.takeWhile_cons_of_pos named, List.mapIdx_cons]
        simp only [ih (i + 1) formed.2, Nat.add_zero, Nat.add_assoc, Nat.add_comm 1]
      · rw [if_neg named, List.takeWhile_cons_of_neg named]
        rfl

-- The leases of the table that write_leases writes, and what the page shows of them
def held (leases : Table) : List Lease := leases.filter fun lease => lease.nip != 0

def tableRows (curr : Nat) (leases : List Lease) : List PageRow :=
  leases.mapIdx fun i lease => rowOf i lease (timeShown curr lease.expires)

theorem time_of_stored (written curr expires : Nat) (order : written ≤ curr) (soon : written < 0x80000000)
    (bound : expires < 0x80000000) :
    timeShown curr (remaining written expires + min written curr) = timeShown curr expires := by
  have least : min written curr = written := Nat.min_eq_left order
  rw [least, remaining]
  by_cases late : expires < written
  · have gone : expires ≤ curr := by omega
    rw [if_pos (by omega), Nat.zero_add, timeShown, timeShown, if_pos order, if_pos gone]
  · have left : (expires + 0x100000000 - written) % 0x100000000 = expires - written := by omega
    rw [left, if_neg (by omega), Nat.sub_add_cancel (by omega)]

theorem named_expires (lease : Lease) (expires : Nat) : isNamed { lease with expires := expires } = isNamed lease := rfl

theorem name_expires (lease : Lease) (expires : Nat) : nameText { lease with expires := expires } = nameText lease :=
  rfl

theorem row_expires (i : Nat) (lease : Lease) (expires : Nat) (time : Bytes) :
    rowOf i { lease with expires := expires } time = rowOf i lease time := rfl

theorem stored_listed (written : Nat) (leases : Table) (storable : ∀ lease ∈ leases, Storable lease) :
    ∀ lease ∈ stored written leases, Listed lease := by
  intro lease member
  obtain ⟨old, inside, rfl⟩ := List.mem_map.mp member
  exact ⟨storable_name old (storable old (List.mem_filter.mp inside).1), remaining_bound written old.expires⟩

theorem map_idx_map {α β γ : Type} (f : α → β) (g : Nat → β → γ) (h : Nat → α → γ) (items : List α)
    (same : ∀ i, ∀ item ∈ items, g i (f item) = h i item) : (items.map f).mapIdx g = items.mapIdx h := by
  apply List.ext_getElem
  · rw [List.length_mapIdx, List.length_map, List.length_mapIdx]
  · intro i first second
    rw [List.getElem_mapIdx, List.getElem_map, List.getElem_mapIdx]
    exact same i _ (List.getElem_mem _)

theorem table_of_stored (written curr : Nat) (leases : Table) (order : written ≤ curr) (soon : written < 0x80000000)
    (bound : ∀ lease ∈ leases, lease.expires < 0x80000000) :
    ((stored written leases).takeWhile isNamed).mapIdx (fun i lease =>
      rowOf (0 + i) lease (timeOf written curr lease)) =
      tableRows curr ((held leases).takeWhile isNamed) := by
  have blind : (isNamed ∘ fun lease : Lease => { lease with expires := remaining written lease.expires }) =
    isNamed := by
    funext lease
    exact named_expires lease _
  have same : (stored written leases).takeWhile isNamed =
      ((held leases).takeWhile isNamed).map fun lease => { lease with expires := remaining written lease.expires } := by
    rw [stored, List.takeWhile_map, blind, held]
  rw [same, tableRows]
  apply map_idx_map
  intro i lease member
  have bounded := bound lease (List.mem_of_mem_filter ((List.takeWhile_sublist _).subset member))
  rw [Nat.zero_add, row_expires, timeOf]
  dsimp only
  rw [time_of_stored written curr lease.expires order soon bounded]

theorem table_of_parts (nodes : Option (List Node)) (formed : Bool) (leases : List Children) :
    tableOf nodes (if formed then some leases else none) = if nodes.any goesOn = true ∧
    formed = true then insertRows 0 leases else [] := by
  cases formed with
  | false => cases nodes <;> simp [tableOf]
  | true => cases nodes <;> simp [tableOf]

theorem table_of_file (markup : List Entry → List Piece → List PageRow) (running : Bool) (conf : Bytes)
    (written curr : Nat) (leases : Table) (order : written ≤ curr) (soon : written < 0x80000000)
      (storable : ∀ lease ∈ leases, Storable lease) (bound : ∀ lease ∈ leases, lease.expires < 0x80000000)
        (settings : ∀ entries, dhcpStatus running conf = some entries → entries.any isMarked = false)
          (names : ∀ lease ∈ held leases, (60 : UInt8) ∉ lease.hostname) :
    leaseTable markup running conf (writeLeases written leases) curr = (dhcpStatus running conf).map fun entries =>
      if (plainElements entries).any goesOn = true ∧
          (held leases).all (fun lease => wellFormed (latin (nameText lease))) = true then
        tableRows curr ((held leases).takeWhile isNamed)
      else [] := by
  have listed := stored_listed written leases storable
  have header : decode ((writeLeases written leases).take 8) = written := by
    rw [(write_parse written leases storable).1]
    exact Lib.BigEndian.decode_encode 8 written (by omega)
  have times : ∀ lease ∈ stored written leases, IsSpaced (timeOf written curr lease) := fun lease member =>
    time_of_spaced written curr lease (listed lease member)
  have pieces := lease_pieces written curr (stored written leases) listed
  have elements := elements_all (stored written leases) (timeOf written curr) times
  have unmarked : ((stored written leases).flatMap fun lease =>
    piecesOf lease (timeOf written curr lease)).any isMarkedPiece = false := by
    rw [List.any_flatMap, List.any_eq_false]
    intro lease member
    obtain ⟨old, inside, rfl⟩ := List.mem_map.mp member
    rw [Bool.not_eq_true]
    exact pieces_unmarked _ _ (times _ member) (names old inside)
  have formedNames : (stored written leases).all (fun lease => wellFormed (latin (nameText lease))) =
      (held leases).all fun lease => wellFormed (latin (nameText lease)) := by
    have blind : ((fun lease => wellFormed (latin (nameText lease))) ∘
        fun lease : Lease => { lease with expires := remaining written lease.expires }) =
          fun lease => wellFormed (latin (nameText lease)) := by
      funext lease
      rw [Function.comp_apply, name_expires]
    rw [stored, List.all_map, blind, held]
  have formed : (held leases).all (fun lease => wellFormed (latin (nameText lease))) = true →
      ∀ lease ∈ stored written leases, wellFormed (latin (nameText lease)) = true := by
    rw [← formedNames, List.all_eq_true]
    exact id
  rw [leaseTable, dumpleases, header, (write_parse written leases storable).2, pieces]
  cases answered : dhcpStatus running conf with
  | none => rfl
  | some entries =>
      rw [Option.bind_some, Option.map_some, Option.map_some, settings entries answered, unmarked, Bool.or_false,
        if_neg Bool.false_ne_true, elements, formedNames, table_of_parts]
      split
      · rename_i shows
        rw [insert_rows 0 _ _ (formed shows.2), table_of_stored written curr leases order soon bound]
      · rfl

def namedWorld : World :=
  step sampleConfig leasedWorld (.packet (quiet 1002) { requestFor 1 0xC0A80114 with hostName := some (ascii "my pc") })

theorem named_reached : Reachable sampleConfig 3 namedWorld :=
  .next _ _ leased_reached (quiet_punctual _ 1001 1002 (by decide) (by decide) (by decide))

def sampleConf : Bytes := unlines [ascii "opt router 192.168.1.1", ascii "opt dns 168.126.63.1",
    ascii "opt dns 168.126.63.2"]

theorem sample_settings (entries : List Entry) (answered : dhcpStatus true sampleConf = some entries) :
    entries.any isMarked = false := by
  have plain : (dhcpStatus true sampleConf).all (fun entries => !entries.any isMarked) = true := by decide +kernel
  simpa [answered] using plain

theorem named_unmarked : ∀ lease ∈ held namedWorld.leases, (60 : UInt8) ∉ lease.hostname := by
  have plain : ((held namedWorld.leases).all fun lease => !lease.hostname.contains 60) = true := by decide +kernel
  intro lease member
  simpa using List.all_eq_true.mp plain lease member

end Ftm50s.Udhcpd
