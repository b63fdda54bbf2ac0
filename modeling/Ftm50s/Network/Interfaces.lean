import Ftm50s.Network.Config

set_option autoImplicit false

namespace Ftm50s.Network

open Lib.Text Ftm50s.Cgi

-- The variables of interfaces.awk and what it has printed
structure Pending where
  ifname : Bytes
  type : Bytes
  ipaddr : Bytes
  netmask : Bytes
  gateway : Bytes
deriving DecidableEq, Repr

structure Reader where
  printed : List Bytes
  pending : Pending
deriving DecidableEq, Repr

def unlessEmpty (text : Bytes) : List Bytes := if text.length ≠ 0 then [text] else []

def printInterface (pending : Pending) : List Bytes :=
  if pending.ifname.length ≠ 0 then
    [ascii "INTERFACE", pending.ifname, pending.type] ++ unlessEmpty pending.ipaddr ++ unlessEmpty pending.netmask ++
      unlessEmpty pending.gateway
  else []

def startInterface (name type : Bytes) : Pending :=
  if name ≠ ascii "lo" then ⟨name, type, [], [], []⟩ else ⟨[], [], [], [], []⟩

def ifaceRecord (reader : Reader) (array : List Bytes) : Reader :=
  if array.getD 0 [] = ascii "iface" then
    ⟨reader.printed ++ printInterface reader.pending, startInterface (array.getD 1 []) (array.getD 3 [])⟩
  else reader

def settingRecord (pending : Pending) (array : List Bytes) : Pending :=
  if pending.ifname.length ≠ 0 then
    if array.getD 0 [] = ascii "address" then { pending with ipaddr := array.getD 1 [] }
    else if array.getD 0 [] = ascii "netmask" then { pending with netmask := array.getD 1 [] }
    else if array.getD 0 [] = ascii "gateway" then { pending with gateway := array.getD 1 [] }
    else pending
  else pending

def interfacesRecord (reader : Reader) (line : Bytes) : Reader :=
  let started := ifaceRecord reader (words line)
  { started with pending := settingRecord started.pending (words line) }

def interfacesBegin : Reader := ⟨[], ⟨[], [], [], [], []⟩⟩

def interfacesEnd (reader : Reader) : List Bytes := reader.printed ++ printInterface reader.pending

def interfacesAwk (content : Bytes) : Bytes :=
  unlines (interfacesEnd ((lines content).foldl interfacesRecord interfacesBegin))

structure Interface where
  ifname : Bytes
  ipaddr : Bytes
  netmask : Bytes
deriving DecidableEq, Repr

structure Gives (req : Request) (interfaces : List Interface) : Prop where
  ifname : ∀ i, getstrf req "ifname" i = interfaces[i]?.map Interface.ifname
  ipaddr : ∀ i, getstrf req "ipaddr" i = interfaces[i]?.map Interface.ipaddr
  netmask : ∀ i, getstrf req "netmask" i = interfaces[i]?.map Interface.netmask

def isInterface (interface : Interface) : Bool :=
  isWord interface.ifname && isWord interface.ipaddr && isWord interface.netmask &&
    decide (interface.ifname ≠ ascii "lo")

def blockOf (interface : Interface) : List Bytes :=
  interfaceLines interface.ifname (some interface.ipaddr) (some interface.netmask)

def recordOf (interface : Interface) : List Bytes :=
  [ascii "INTERFACE", interface.ifname, ascii "static", interface.ipaddr, interface.netmask]

theorem interface_spec (interface : Interface) (valid : isInterface interface = true) :
    isWord interface.ifname = true ∧ isWord interface.ipaddr = true ∧ isWord interface.netmask = true ∧
      interface.ifname ≠ ascii "lo" := by
  simpa [isInterface, and_assoc] using valid

theorem interface_loop_gives (req : Request) (interfaces : List Interface) (gives : Gives req interfaces) (fuel i : Nat)
    (enough : interfaces.length < fuel + i) :
    interfaceLoop req fuel i = if 0 < fuel then (interfaces.drop i).flatMap blockOf else [] := by
  induction fuel generalizing i with
  | zero => rfl
  | succ fuel ih =>
      rw [if_pos (by omega), interfaceLoop, gives.ifname i, gives.ipaddr i, gives.netmask i]
      by_cases inside : i < interfaces.length
      · have more : 0 < fuel := by omega
        rw [List.getElem?_eq_getElem inside, List.drop_eq_getElem_cons inside]
        simp only [Option.map_some, ih (i + 1) (by omega), if_pos more, List.flatMap_cons, blockOf]
      · rw [List.getElem?_eq_none (by omega), List.drop_eq_nil_of_le (by omega)]
        rfl

theorem interfaces_gives (req : Request) (given : List Interface) (gives : Gives req given) :
    interfaces req = [ascii "auto lo", ascii "\tiface lo inet loopback", []] ++ given.flatMap blockOf := by
  have bound : given.length ≤ req.entries.length := by
    apply numbered_bound req "ifname"
    intro i inside
    rw [gives.ifname i, List.getElem?_eq_getElem inside]
    exact nofun
  rw [interfaces, interface_loop_gives req given gives (req.entries.length + 1) 0 (by omega), if_pos (by omega),
    List.drop_zero]

theorem auto_words (name : Bytes) (word : isWord name = true) :
    words (ascii "auto " ++ name) = [ascii "auto", name] := by
  have shape : ascii "auto " ++ name = ascii "auto" ++ 32 :: name := rfl
  rw [shape, words_word_space _ _ 32 (by decide) rfl, words_word name word]

theorem iface_words (name : Bytes) (word : isWord name = true) :
    words (ascii "iface " ++ name ++ ascii " inet static") = [ascii "iface", name, ascii "inet", ascii "static"] := by
  have shape : ascii "iface " ++ name ++ ascii " inet static" = ascii "iface" ++ 32 ::
    (name ++ 32 :: ascii "inet static") := by
    rw [List.append_assoc]
    rfl
  rw [shape, words_word_space _ _ 32 (by decide) rfl, words_word_space _ _ 32 word rfl]
  rfl

theorem tab_words (tag : Bytes) (value : Bytes) (tagWord : isWord tag = true) (word : isWord value = true) :
    words (9 :: (tag ++ 32 :: value)) = [tag, value] := by
  rw [words_space_cons 9 _ rfl, words_word_space _ _ 32 tagWord rfl, words_word value word]

def pendingOf (interface : Interface) : Pending :=
  ⟨interface.ifname, ascii "static", interface.ipaddr, interface.netmask, []⟩

theorem record_other (reader : Reader) (line : Bytes)
    (other : [ascii "iface", ascii "address", ascii "netmask", ascii "gateway"].contains ((words line).getD 0 []) =
    false) :
    interfacesRecord reader line = reader := by
  simp only [List.contains_cons, List.contains_nil, Bool.or_false, Bool.or_eq_false_iff, beq_eq_false_iff_ne] at other
  obtain ⟨iface, address, netmask, gateway⟩ := other
  simp only [interfacesRecord, ifaceRecord, settingRecord, if_neg iface, if_neg address, if_neg netmask, if_neg gateway,
    ite_self]

theorem record_iface (reader : Reader) (line : Bytes) (first : (words line).getD 0 [] = ascii "iface") :
    interfacesRecord reader line =
      ⟨reader.printed ++ printInterface reader.pending, startInterface ((words line).getD 1 [])
        ((words line).getD 3 [])⟩ := by
  have address : ascii "iface" ≠ ascii "address" := by decide
  have netmask : ascii "iface" ≠ ascii "netmask" := by decide
  have gateway : ascii "iface" ≠ ascii "gateway" := by decide
  simp only [interfacesRecord, ifaceRecord, settingRecord, first, if_true, if_neg address, if_neg netmask,
    if_neg gateway, ite_self]

theorem record_setting (reader : Reader) (line : Bytes) (first : (words line).getD 0 [] ≠ ascii "iface") :
    interfacesRecord reader line = { reader with pending := settingRecord reader.pending (words line) } := by
  simp only [interfacesRecord, ifaceRecord, if_neg first]

theorem block_read (reader : Reader) (interface : Interface) (valid : isInterface interface = true) :
    (blockOf interface).foldl interfacesRecord reader =
      ⟨reader.printed ++ printInterface reader.pending, pendingOf interface⟩ := by
  obtain ⟨nameWord, addressWord, maskWord, notLo⟩ := interface_spec interface valid
  have named : interface.ifname.length ≠ 0 := fun zero => word_nonempty _ nameWord (List.length_eq_zero_iff.mp zero)
  have addressWords : words (ascii "\taddress " ++ interface.ipaddr) = [ascii "address", interface.ipaddr] :=
    tab_words (ascii "address") interface.ipaddr (by decide) addressWord
  have maskWords : words (ascii "\tnetmask " ++ interface.netmask) = [ascii "netmask", interface.netmask] :=
    tab_words (ascii "netmask") interface.netmask (by decide) maskWord
  have auto : interfacesRecord reader (ascii "auto " ++ interface.ifname) = reader := by
    apply record_other
    rw [auto_words _ nameWord, List.getD_cons_zero]
    decide
  have iface : interfacesRecord reader (ascii "iface " ++ interface.ifname ++ ascii " inet static") =
      ⟨reader.printed ++ printInterface reader.pending, ⟨interface.ifname, ascii "static", [], [], []⟩⟩ := by
    rw [record_iface _ _ (by rw [iface_words _ nameWord, List.getD_cons_zero]), iface_words _ nameWord]
    simp only [List.getD_cons_succ, List.getD_cons_zero, startInterface, if_pos notLo]
  have address : ∀ front mask, interfacesRecord ⟨front, ⟨interface.ifname, ascii "static", [], mask, []⟩⟩
      (ascii "\taddress " ++ interface.ipaddr) = ⟨front, ⟨interface.ifname, ascii "static", interface.ipaddr, mask,
      []⟩⟩ := by
    intro front mask
    rw [record_setting _ _ (by rw [addressWords, List.getD_cons_zero]; decide), addressWords]
    simp only [settingRecord, if_pos named, List.getD_cons_succ, List.getD_cons_zero, if_true]
  have netmask : ∀ front ip, interfacesRecord ⟨front, ⟨interface.ifname, ascii "static", ip, [], []⟩⟩
      (ascii "\tnetmask " ++ interface.netmask) = ⟨front, ⟨interface.ifname, ascii "static", ip, interface.netmask,
      []⟩⟩ := by
    intro front ip
    have different : ascii "netmask" ≠ ascii "address" := by decide
    rw [record_setting _ _ (by rw [maskWords, List.getD_cons_zero]; decide), maskWords]
    simp only [settingRecord, if_pos named, List.getD_cons_succ, List.getD_cons_zero, if_neg different, if_true]
  have preUp : ∀ other, interfacesRecord other (ascii "\tpre-up [ -f /etc/network/local-network-ok ]") = other :=
    fun other => record_other other _ (by decide)
  have blank : ∀ other, interfacesRecord other [] = other := fun other => record_other other _ (by decide)
  simp only [blockOf, interfaceLines, shown, Option.getD_some, List.foldl_cons, List.foldl_nil, auto, iface, address,
    netmask,
    preUp, blank, pendingOf]

theorem blocks_read (given : List Interface) (reader : Reader) (valid : given.all isInterface = true) :
    interfacesEnd ((given.flatMap blockOf).foldl interfacesRecord reader) =
      interfacesEnd reader ++ given.flatMap fun interface => printInterface (pendingOf interface) := by
  induction given generalizing reader with
  | nil => simp
  | cons interface rest ih =>
      rw [List.all_cons, Bool.and_eq_true] at valid
      obtain ⟨first, later⟩ := valid
      rw [List.flatMap_cons, List.foldl_append, block_read reader interface first, ih _ later, List.flatMap_cons]
      simp only [interfacesEnd, List.append_assoc]

theorem print_pending (interface : Interface) (valid : isInterface interface = true) :
    printInterface (pendingOf interface) = recordOf interface := by
  obtain ⟨nameWord, addressWord, maskWord, _⟩ := interface_spec interface valid
  have filled : ∀ text, isWord text = true → text.length ≠ 0 := fun text word zero =>
    word_nonempty text word (List.length_eq_zero_iff.mp zero)
  simp [printInterface, pendingOf, unlessEmpty, recordOf, filled _ nameWord, filled _ addressWord, filled _ maskWord]

theorem block_plain (interface : Interface) (valid : isInterface interface = true) :
    ∀ line ∈ blockOf interface, (10 : UInt8) ∉ line := by
  obtain ⟨nameWord, addressWord, maskWord, _⟩ := interface_spec interface valid
  have nameMiss := word_plain _ nameWord
  have addressMiss := word_plain _ addressWord
  have maskMiss := word_plain _ maskWord
  have beside : ∀ front back : Bytes, (10 : UInt8) ∉ front → (10 : UInt8) ∉ back → (10 : UInt8) ∉ front ++ back := by
    intro front back left right
    rw [List.mem_append, not_or]
    exact ⟨left, right⟩
  intro line member
  simp only [blockOf, interfaceLines, shown, Option.getD_some, List.mem_cons, List.not_mem_nil, or_false] at member
  rcases member with rfl | rfl | rfl | rfl | rfl | rfl
  · exact beside _ _ (by decide) nameMiss
  · exact beside _ _ (beside _ _ (by decide) nameMiss) (by decide)
  · exact beside _ _ (by decide) addressMiss
  · exact beside _ _ (by decide) maskMiss
  · decide
  · exact List.not_mem_nil

theorem network_round_trip (conf : Bytes) (req : Request) (given : List Interface) (gives : Gives req given)
    (valid : given.all isInterface = true) :
    networkSet true conf req = (unlines (interfaces req), .ok) ∧
      interfacesAwk (networkSet true conf req).1 = unlines (given.flatMap recordOf) := by
  refine ⟨rfl, ?_⟩
  have each := List.all_eq_true.mp valid
  have plain : ∀ line ∈ [ascii "auto lo", ascii "\tiface lo inet loopback", []] ++ given.flatMap blockOf,
    (10 : UInt8) ∉ line := by
    intro line member
    rcases List.mem_append.mp member with loopback | block
    · have quiet : ([ascii "auto lo", ascii "\tiface lo inet loopback", []] : List Bytes).all (fun line =>
        !line.contains 10) = true := by
        decide
      simpa using List.all_eq_true.mp quiet line loopback
    · obtain ⟨interface, inside, within⟩ := List.mem_flatMap.mp block
      exact block_plain interface (each interface inside) line within
  have loopback : [ascii "auto lo", ascii "\tiface lo inet loopback", []].foldl interfacesRecord interfacesBegin =
    interfacesBegin := by
    decide
  rw [networkSet, if_neg (by decide), interfacesAwk, interfaces_gives req given gives, lines_unlines _ plain,
    List.foldl_append,
    loopback, blocks_read given interfacesBegin valid]
  congr 1
  refine Eq.trans (List.nil_append _) (List.flatMap_congr ?_)
  exact fun interface member => print_pending interface (each interface member)

def twoInterfaces : List Interface :=
  [⟨ascii "eth0", ascii "192.168.1.1", ascii "255.255.255.0"⟩, ⟨ascii "eth1", ascii "10.0.0.1", ascii "255.0.0.0"⟩]

def twoInterfacesRequest : Request :=
  ⟨[(ascii "ifname0", ascii "eth0"), (ascii "ipaddr0", ascii "192.168.1.1"), (ascii "netmask0", ascii "255.255.255.0"),
    (ascii "ifname1", ascii "eth1"), (ascii "ipaddr1", ascii "10.0.0.1"), (ascii "netmask1", ascii "255.0.0.0")]⟩

theorem two_interfaces_given : Gives twoInterfacesRequest twoInterfaces := by
  have beyond : ∀ stem ∈ ["ifname", "ipaddr", "netmask"], ∀ i, getstrf twoInterfacesRequest stem (i + 2) = none := by
    intro stem member i
    apply numbered_absent _ stem 2 (i + 2) (by omega)
    revert stem
    decide
  refine ⟨?_, ?_, ?_⟩
  · intro i
    match i with
    | 0 => rfl
    | 1 => rfl
    | i + 2 => exact beyond "ifname" (by simp) i
  · intro i
    match i with
    | 0 => rfl
    | 1 => rfl
    | i + 2 => exact beyond "ipaddr" (by simp) i
  · intro i
    match i with
    | 0 => rfl
    | 1 => rfl
    | i + 2 => exact beyond "netmask" (by simp) i

theorem network_round_trip_two : interfacesAwk (networkSet true [] twoInterfacesRequest).1 =
    ascii "INTERFACE\neth0\nstatic\n192.168.1.1\n255.255.255.0\nINTERFACE\neth1\nstatic\n10.0.0.1\n255.0.0.0\n" := by
  rw [(network_round_trip [] twoInterfacesRequest twoInterfaces two_interfaces_given (by decide)).2]
  decide

end Ftm50s.Network
