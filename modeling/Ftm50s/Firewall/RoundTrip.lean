import Ftm50s.Firewall.Filters

set_option autoImplicit false

namespace Ftm50s.Firewall

open Lib.Text Lib.Decimal Lib.Filter Ftm50s.Cgi

def entryOf (scan : Scan) (protocol : Option Bytes) : List Entry :=
  if scan.chain.getD [] = ascii "INPUT" then
    [.rule (scan.chain.getD []) (scan.direction.getD []) (scan.ifname.getD []) (scan.sip.getD []) (scan.dip.getD [])
      (protocol.getD []) (scan.sport.getD []) (scan.dport.getD []) (scan.policy.getD [])]
  else []

def Fits (scan : Scan) (protocol : Option Bytes) : Prop :=
  ∀ field ∈ filterFields scan protocol, isField 64 field.2 = true

instance (scan : Scan) (protocol : Option Bytes) : Decidable (Fits scan protocol) :=
  inferInstanceAs (Decidable (∀ field ∈ filterFields scan protocol, isField 64 field.2 = true))

theorem filter_width (scan : Scan) (protocol : Option Bytes) :
    ∀ field ∈ filterFields scan protocol, field.1 ≤ 63 := by
  simp [filterFields]

theorem filter_line_plain (scan : Scan) (protocol : Option Bytes) (valid : Fits scan protocol) :
    (10 : UInt8) ∉ ascii "RULE  " ++ filterText scan protocol ∧ (0 : UInt8) ∉ ascii "RULE  " ++
    filterText scan protocol ∧
      (ascii "RULE  " ++ filterText scan protocol).length + 1 < 1024 := by
  have absent : ∀ c : UInt8, c ≠ 32 → c ∉ ascii "RULE  " → (∀ field ∈ filterFields scan protocol, c ∉ field.2) →
      c ∉ ascii "RULE  " ++ filterText scan protocol := by
    intro c blank head others member
    rcases List.mem_append.mp member with fixed | column
    · exact head fixed
    · rcases columns_bytes _ c column with ⟨field, inside, own⟩ | space
      · exact others field inside own
      · exact blank space
  refine ⟨?_, ?_, ?_⟩
  · exact absent 10 (by decide) (by decide) fun field inside => (field_spec 64 field.2 (valid field inside)).2.2.2
  · exact absent 0 (by decide) (by decide) fun field inside => (field_spec 64 field.2 (valid field inside)).2.2.1
  · have length := columns_length (filterFields scan protocol) 63 fun field inside => by
      have short := (field_spec 64 field.2 (valid field inside)).2.1
      exact ⟨filter_width scan protocol field inside, by omega⟩
    have count : (filterFields scan protocol).length = 9 := rfl
    have head : (ascii "RULE  ").length = 6 := rfl
    rw [count] at length
    rw [List.length_append, head, filterText]
    omega

theorem status_filter_line (stale : Nat → Bytes) (scan : Scan) (protocol : Option Bytes) (valid : Fits scan protocol) :
    statusLine stale (ascii "RULE  " ++ filterText scan protocol ++ [10]) = some (entryOf scan protocol) := by
  obtain ⟨_, nul, _⟩ := filter_line_plain scan protocol valid
  have scanned : words (cstr (ascii "RULE  " ++ filterText scan protocol ++ [10])) =
      ascii "RULE" :: (filterFields scan protocol).map Prod.snd := by
    have done : words [] = [] := rfl
    have head : words (ascii "RULE  ") = [ascii "RULE"] := by decide
    rw [cstr_plain _ (by simpa using nul), List.append_assoc, words_append _ _ (by decide), head, filterText,
      words_columns _ 10 [] (by decide) fun field inside => (field_spec 64 field.2 (valid field inside)).1, done,
      List.append_nil]
    rfl
  have fits : ∀ count, ((ascii "RULE" :: (filterFields scan protocol).map Prod.snd).take count).all
      (fun word => decide (word.length < 64)) = true := by
    intro count
    rw [List.all_eq_true]
    intro word member
    rcases List.mem_cons.mp (List.mem_of_mem_take member) with rfl | later
    · decide
    · obtain ⟨field, inside, rfl⟩ := List.mem_map.mp later
      exact decide_eq_true (field_spec 64 field.2 (valid field inside)).2.1
  have notTable : ascii "RULE" ≠ ascii "TABLE" := by decide
  have notChain : ascii "RULE" ≠ ascii "CHAIN" := by decide
  simp only [statusLine, scanned, fits, Bool.not_true, Bool.false_eq_true, if_false]
  simp only [filterFields, List.map_cons, List.getD_cons_zero, List.getD_cons_succ, if_neg notTable, if_neg notChain,
    if_true,
    entryOf]
  split <;> rfl

theorem rule_fits (rule : Rule) (valid : isRule rule = true) : Fits (ruleScan rule) (some rule.proto) := by
  have named := rule_proto rule valid
  simp only [isRule, Bool.and_eq_true] at valid
  have proto : isField 64 rule.proto = true := by
    rcases named with same | same | same | same <;> rw [same] <;> decide
  have port : isField 64 (listedPort rule) = true := by
    unfold listedPort
    split
    · decide
    · split
      · decide
      · exact valid.2
  simp only [Fits, filterFields, ruleScan, Option.getD_some, List.forall_mem_cons]
  exact ⟨by decide, by decide, by decide, valid.1.2, by decide, proto, by decide, port, by decide, by simp⟩

theorem output_fits (szIF : Bytes) (valid : isField 64 szIF = true) : Fits (outputScan szIF) (some (ascii "icmp")) := by
  simp only [Fits, filterFields, outputScan, Option.getD_some, List.forall_mem_cons]
  exact ⟨by decide, by decide, valid, by decide, by decide, by decide, by decide, by decide, by decide, by simp⟩

def forwardScan (direction ifname : String) : Scan :=
  { startScan with
    chain := some (ascii "FORWARD")
    direction := some (ascii direction)
    ifname := some (ascii ifname)
    policy := some (ascii "ACCEPT") }

def forwardScans : List Scan := [forwardScan "IN" "eth0", forwardScan "OUT" "eth0", forwardScan "IN" "eth1",
    forwardScan "OUT" "eth1"]

theorem forward_filters :
    forwardLines.flatMap lineFilters = forwardScans.map fun scan => filterText scan (some (ascii "all")) := by
  decide +kernel

def allScans (szIF : Bytes) (rules : List Rule) : List (Scan × Option Bytes) :=
  rules.map (fun rule => (ruleScan rule, some rule.proto)) ++
    ((if isWord szIF && isKnown (some szIF) then [(outputScan szIF, some (ascii "icmp"))] else []) ++
      forwardScans.map fun scan => (scan, some (ascii "all")))

theorem all_filters_scans (szIF : Bytes) (rules : List Rule) :
    allFilters szIF rules = (allScans szIF rules).map fun scan => filterText scan.1 scan.2 := by
  rw [allFilters, forward_filters, allScans, outputFilters]
  simp only [List.map_append, List.map_map]
  congr 1
  congr 1
  split <;> rfl

theorem all_scans_fit (szIF : Bytes) (rules : List Rule) (valid : ∀ rule ∈ rules, isRule rule = true)
    (short : szIF.length < 64) (nul : (0 : UInt8) ∉ szIF) : ∀ scan ∈ allScans szIF rules, Fits scan.1 scan.2 := by
  intro scan member
  rcases List.mem_append.mp member with own | fixed
  · obtain ⟨rule, inside, rfl⟩ := List.mem_map.mp own
    exact rule_fits rule (valid rule inside)
  · rcases List.mem_append.mp fixed with output | forward
    · split at output
      · rename_i named
        rw [List.mem_singleton.mp output]
        rw [Bool.and_eq_true] at named
        have plain : szIF.all (· != 0) = true := by
          rw [List.all_eq_true]
          intro c inside
          have nonzero : c ≠ 0 := fun zero => nul (zero ▸ inside)
          simpa using nonzero
        exact output_fits szIF (by simp [isField, named.1, short, plain])
      · cases output
    · obtain ⟨other, inside, rfl⟩ := List.mem_map.mp forward
      exact (by decide +kernel : ∀ scan ∈ forwardScans, Fits scan (some (ascii "all"))) other inside

theorem all_scans_entries (szIF : Bytes) (rules : List Rule) :
    (allScans szIF rules).flatMap (fun scan => entryOf scan.1 scan.2) = rules.map listedEntry := by
  have own : (rules.map fun rule => (ruleScan rule, some rule.proto)).flatMap (fun scan => entryOf scan.1 scan.2) =
      rules.map listedEntry := by
    induction rules with
    | nil => rfl
    | cons rule rest ih =>
        rw [List.map_cons, List.flatMap_cons, ih]
        rfl
  have output : (if isWord szIF && isKnown (some szIF) then [(outputScan szIF, some (ascii "icmp"))] else []).flatMap
      (fun scan => entryOf scan.1 scan.2) = [] := by
    split
    · rfl
    · rfl
  have forward : (forwardScans.map fun scan => (scan, some (ascii "all"))).flatMap (fun scan => entryOf scan.1 scan.2) =
    [] := by
    decide +kernel
  rw [allScans, List.flatMap_append, List.flatMap_append, own, output, forward, List.append_nil, List.append_nil]

def chainEntries (stale : Nat → Bytes) : List Entry :=
  [.table (ascii "filter"), .chain (ascii "INPUT") (ascii "ACCEPT"), .chain (ascii "FORWARD") (ascii "ACCEPT"),
    .chain (ascii "OUTPUT") (stale 2)]

def chainLines : List Bytes := [ascii "TABLE filter", ascii "CHAIN INPUT ACCEPT", ascii "CHAIN FORWARD ACCEPT",
    ascii "CHAIN OUTPUT "]

-- The third array of the last line keeps what the stack holds.
theorem status_chain_lines (stale : Nat → Bytes) :
    (chainLines.map fun line => line ++ [10]).mapM (statusLine stale) =
      some ((chainEntries stale).map fun entry => [entry]) := by
  rfl

theorem awk_end_filters (filters : List Bytes) :
    awkEnd { awkBegin with filters := filters } = chainLines ++ filters.map fun text => ascii "RULE  " ++ text := rfl

theorem status_filter_lines (stale : Nat → Bytes) (scans : List (Scan × Option Bytes))
    (valid : ∀ scan ∈ scans, Fits scan.1 scan.2) :
    (fgets 1024 (unlines ((scans.map fun scan => filterText scan.1 scan.2).map fun text => ascii "RULE  " ++
    text))).mapM
        (statusLine stale) = some (scans.map fun scan => entryOf scan.1 scan.2) := by
  have joined : ((scans.map fun scan => filterText scan.1 scan.2).map fun text => ascii "RULE  " ++ text) =
      scans.map fun scan => ascii "RULE  " ++ filterText scan.1 scan.2 := List.map_map
  have plain : ∀ line ∈ scans.map fun scan => ascii "RULE  " ++ filterText scan.1 scan.2,
      (10 : UInt8) ∉ line ∧ line.length + 1 < 1024 := by
    intro line own
    obtain ⟨scan, inside, rfl⟩ := List.mem_map.mp own
    obtain ⟨newline, _, short⟩ := filter_line_plain scan.1 scan.2 (valid scan inside)
    exact ⟨newline, short⟩
  rw [joined, fgets_unlines 1024 _ (fun line member => (plain line member).1) fun line member => (plain line member).2]
  apply read_printed (statusLine stale)
  intro scan inside
  exact status_filter_line stale scan.1 scan.2 (valid scan inside)

theorem status_of_filters (stale : Nat → Bytes) (scans : List (Scan × Option Bytes))
    (valid : ∀ scan ∈ scans, Fits scan.1 scan.2) :
    ((fgets 1024 (unlines (awkEnd { awkBegin with filters := scans.map fun scan => filterText scan.1 scan.2 }))).mapM
        (statusLine stale)).map List.flatten =
      some (chainEntries stale ++ scans.flatMap fun scan => entryOf scan.1 scan.2) := by
  have chains : fgets 1024 (unlines chainLines) = chainLines.map fun line => line ++ [10] :=
    fgets_unlines 1024 chainLines (by decide) (by decide)
  rw [awk_end_filters, unlines_append, fgets_unlines_append, chains, List.mapM_append, status_chain_lines,
    status_filter_lines stale scans valid]
  simp [List.flatMap, chainEntries]

theorem wan_interface_spec (wan : Option Bytes) (szIF : Bytes) (found : wanInterface wan = some szIF) :
    szIF.all (!isSpace ·) = true ∧ szIF.length < 64 ∧ (0 : UInt8) ∉ szIF := by
  unfold wanInterface at found
  repeat' split at found
  · obtain rfl := Option.some.inj found
    decide
  · obtain rfl := Option.some.inj found
    decide
  · cases found
  · rename_i content _ word others read short
    obtain rfl := Option.some.inj found
    have isAWord := words_are_words content word (by simp [read])
    rw [isWord, Bool.and_eq_true] at isAWord
    have within : cstr word <+: word := List.takeWhile_prefix _
    refine ⟨?_, ?_, cstr_no_nul word⟩
    · rw [List.all_eq_true]
      intro c member
      exact List.all_eq_true.mp isAWord.2 c (within.subset member)
    · have length := within.length_le
      omega

theorem line_plain (rule : Rule) (valid : isRule rule = true) : (10 : UInt8) ∉ lineOf rule := by
  have named := rule_proto rule valid
  simp only [isRule, Bool.and_eq_true] at valid
  have sip := (field_spec 64 rule.sip valid.1.2).2.2.2
  have dport := (field_spec 64 rule.dport valid.2).2.2.2
  have proto : (10 : UInt8) ∉ rule.proto := by
    rcases named with same | same | same | same <;> rw [same] <;> decide
  have fixed : ∀ text ∈ [ascii "-A INPUT \t", ascii "-s ", ascii "\t", ascii "-p ", ascii " --icmp-type echo-request\t",
      ascii " --dport ", ascii "-j DROP"], (10 : UInt8) ∉ text := by decide
  simp only [List.forall_mem_cons] at fixed
  obtain ⟨head, source, tab, protoMark, echo, portMark, verdict, _⟩ := fixed
  simp only [lineOf, ruleLine, sourceText, protoText, shown, Option.getD_some, List.mem_append, not_or]
  refine ⟨⟨⟨head, ?_⟩, ?_⟩, verdict⟩
  · split <;> simp [source, sip, tab]
  · split
    · simp [protoMark, proto, tab]
    · split <;> simp [protoMark, proto, echo, portMark, dport, tab]

theorem table_lines_plain (szIF : Bytes) (rules : List Rule) (valid : ∀ rule ∈ rules, isRule rule = true)
    (spaceless : szIF.all (!isSpace ·) = true) :
    ∀ line ∈ headLines ++ rules.map lineOf ++ tailLines szIF, (10 : UInt8) ∉ line := by
  have interface : (10 : UInt8) ∉ szIF := fun newline =>
    absurd (List.all_eq_true.mp spaceless 10 newline) (by decide)
  intro line member
  rcases List.mem_append.mp member with front | tail
  · rcases List.mem_append.mp front with head | own
    · exact (by decide : ∀ line ∈ headLines, (10 : UInt8) ∉ line) line head
    · obtain ⟨rule, inside, rfl⟩ := List.mem_map.mp own
      exact line_plain rule (valid rule inside)
  · rcases List.mem_cons.mp tail with rfl | later
    · have before : (10 : UInt8) ∉ ascii "-A OUTPUT  -o " := by decide
      have after : (10 : UInt8) ∉ ascii " -p icmp --icmp-type echo-reply -j ACCEPT" := by decide
      simp [before, interface, after]
    · exact (by decide : ∀ line ∈ forwardLines, (10 : UInt8) ∉ line) line later

theorem status_of_table (stale : Nat → Bytes) (files : Files) (szIF : Bytes) (rules : List Rule)
    (valid : ∀ rule ∈ rules, isRule rule = true) (found : wanInterface files.wan = some szIF)
    (table : files.iptables = unlines (headLines ++ rules.map lineOf ++ tailLines szIF)) :
    netfilterStatus stale files =
      (serviceEnabled files.service).map fun enabled => (enabled, chainEntries stale ++ rules.map listedEntry) := by
  obtain ⟨spaceless, short, nul⟩ := wan_interface_spec files.wan szIF found
  have cut := lines_unlines _ (table_lines_plain szIF rules valid spaceless)
  have answer := status_of_filters stale (allScans szIF rules) (all_scans_fit szIF rules valid short nul)
  rw [all_scans_entries] at answer
  obtain ⟨entries, parsed, flat⟩ := Option.map_eq_some_iff.mp answer
  rw [netfilterStatus, statusIptables, table, cut, status_records szIF rules valid spaceless, all_filters_scans, parsed]
  cases serviceEnabled files.service with
  | none => rfl
  | some enabled => exact congrArg (fun list => some (enabled, list)) flat

theorem line_listed (rule : Rule) (named : rule.proto ∈ protocols) : lineOf (listed rule) = lineOf rule := by
  obtain ⟨sip, proto, dport⟩ := rule
  rcases proto_cases proto named with rfl | rfl | rfl | rfl <;> rfl

theorem lines_listed (rules : List Rule) (named : ∀ rule ∈ rules, rule.proto ∈ protocols) :
    (rules.map listed).map lineOf = rules.map lineOf := by
  rw [List.map_map]
  exact List.map_congr_left fun rule inside => line_listed rule (named rule inside)

def wordBelow (size : Nat) (text : Bytes) : Bool := (words text).head?.all fun word => decide (word.length < size)

theorem service_enabled_some (state : Bytes) : (serviceEnabled (some state)).isSome = wordBelow 1024 state := by
  simp only [serviceEnabled, wordBelow]
  cases words state with
  | nil => rfl
  | cons word rest =>
      by_cases long : 1024 ≤ word.length
      · simp [long]
      · have short : word.length < 1024 := by omega
        simp [long, short]

theorem wan_interface_some (wan : Option Bytes) : (wanInterface wan).isSome = wan.all (wordBelow 64) := by
  cases wan with
  | none => rfl
  | some content =>
      simp only [wanInterface, wordBelow, Option.all_some]
      cases words content with
      | nil => rfl
      | cons word rest =>
          by_cases long : 64 ≤ word.length
          · simp [long]
          · have short : word.length < 64 := by omega
            simp [long, short]

def writtenFiles (files : Files) (state szIF : Bytes) (rules : List Rule) : Files :=
  ⟨files.wan, some state, unlines (headLines ++ rules.map lineOf ++ tailLines szIF)⟩

theorem set_spec (files : Files) (req : Request) (state : Bytes) (rules : List Rule)
    (given : getstr req "state" = some state) (lists : Lists req rules) :
    netfilterSet ⟨true, true⟩ files req =
      (wanInterface files.wan).map fun szIF => (writtenFiles files state szIF rules, .ok) := by
  have enough := lists_bound req rules lists
  have printed := rule_lines_lists req rules lists (req.entries.length + 1) 0 (by omega)
  rw [if_pos (by omega), List.drop_zero] at printed
  simp only [netfilterSet, given, printed]
  cases wanInterface files.wan <;> rfl

-- The status after a set lists the submitted rules, and setting these again
-- writes the same table.
def RoundTrip (stale : Nat → Bytes) (files : Files) (req : Request) (rules : List Rule) : Prop :=
  ∃ next, netfilterSet ⟨true, true⟩ files req = some (next, .ok) ∧
    (∃ enabled, netfilterStatus stale next = some (enabled, chainEntries stale ++ rules.map listedEntry)) ∧
    ∀ again, getstr again "state" ≠ none → Lists again (rules.map listed) →
      ∃ final, netfilterSet ⟨true, true⟩ next again = some (final, .ok) ∧ final.iptables = next.iptables

-- Every list of rules survives; what does not is a state whose first word
-- overruns the buffer that the status request reads it into, or such a word in
-- /etc/wan.
theorem firewall_round_trip (stale : Nat → Bytes) (files : Files) (req : Request) (state : Bytes) (rules : List Rule)
    (given : getstr req "state" = some state) (lists : Lists req rules) (valid : ∀ rule ∈ rules, isRule rule = true) :
    RoundTrip stale files req rules ↔ wordBelow 1024 state = true ∧ files.wan.all (wordBelow 64) = true := by
  have set := set_spec files req state rules given lists
  rw [← wan_interface_some, ← service_enabled_some]
  constructor
  · rintro ⟨next, written, ⟨enabled, status⟩, _⟩
    rw [set] at written
    obtain ⟨szIF, found, same⟩ := Option.map_eq_some_iff.mp written
    obtain ⟨rfl, _⟩ := Prod.mk.inj same
    rw [status_of_table stale (writtenFiles files state szIF rules) szIF rules valid found rfl] at status
    obtain ⟨flag, read, _⟩ := Option.map_eq_some_iff.mp status
    exact ⟨Option.isSome_iff_exists.mpr ⟨flag, read⟩, Option.isSome_iff_exists.mpr ⟨szIF, found⟩⟩
  · rintro ⟨stateFits, wanFits⟩
    obtain ⟨enabled, read⟩ := Option.isSome_iff_exists.mp stateFits
    obtain ⟨szIF, found⟩ := Option.isSome_iff_exists.mp wanFits
    rw [found] at set
    refine ⟨_, set, ⟨enabled, ?_⟩, ?_⟩
    · have status := status_of_table stale (writtenFiles files state szIF rules) szIF rules valid found rfl
      rw [show serviceEnabled (writtenFiles files state szIF rules).service = some enabled from read] at status
      exact status
    · intro again present listsAgain
      obtain ⟨other, otherGiven⟩ := Option.ne_none_iff_exists'.mp present
      have sameLines := lines_listed rules fun rule inside => rule_named rule (valid rule inside)
      have setAgain := set_spec (writtenFiles files state szIF rules) again other
        (rules.map listed) otherGiven listsAgain
      rw [show wanInterface (writtenFiles files state szIF rules).wan = some szIF from found] at setAgain
      refine ⟨_, setAgain, ?_⟩
      simp only [writtenFiles, sameLines]

def sampleRules : List Rule :=
  [⟨ascii "10.0.0.7", ascii "tcp", ascii "--dport"⟩, ⟨ascii "0.0.0.0", ascii "icmp", ascii "8"⟩,
   ⟨ascii "-A", ascii "all", ascii "x"⟩]

def sampleRequest (state : Bytes) : Request :=
  ⟨[(ascii "state", state), (ascii "sip0", ascii "10.0.0.7"), (ascii "proto0", ascii "tcp"),
    (ascii "dport0", ascii "--dport"),
    (ascii "sip1", ascii "0.0.0.0"), (ascii "proto1", ascii "icmp"), (ascii "dport1", ascii "8"),
    (ascii "sip2", ascii "-A"), (ascii "proto2", ascii "all"), (ascii "dport2", ascii "x")]⟩

theorem sample_lists (state : Bytes) : Lists (sampleRequest state) sampleRules := by
  have beyond : ∀ stem ∈ ["sip", "proto", "dport"], ∀ i, getstrf (sampleRequest state) stem (i + 3) = none := by
    intro stem member i
    apply numbered_absent _ stem 3 (i + 3) (by omega)
    simp only [sampleRequest, List.map_cons, List.map_nil]
    revert stem
    decide
  refine ⟨?_, ?_, ?_⟩
  · intro i
    match i with
    | 0 => rfl
    | 1 => rfl
    | 2 => rfl
    | i + 3 => exact beyond "sip" (by simp) i
  · intro i
    match i with
    | 0 => rfl
    | 1 => rfl
    | 2 => rfl
    | i + 3 => exact beyond "proto" (by simp) i
  · intro i
    match i with
    | 0 => rfl
    | 1 => rfl
    | 2 => rfl
    | i + 3 => exact beyond "dport" (by simp) i

theorem firewall_round_trip_sample :
    RoundTrip (fun _ => []) ⟨some (ascii "eth1\n"), none, []⟩ (sampleRequest (ascii "enabled")) sampleRules := by
  apply (firewall_round_trip (fun _ => []) ⟨some (ascii "eth1\n"), none, []⟩ (sampleRequest (ascii "enabled"))
    (ascii "enabled") sampleRules rfl (sample_lists (ascii "enabled")) (by decide)).mpr
  exact ⟨by decide, by decide⟩

def longState : Bytes := List.replicate 1024 120

-- The set is accepted, and the next status request overruns szBuf.
theorem long_state_breaks_status :
    ∃ next, netfilterSet ⟨true, true⟩ ⟨none, none, []⟩ (sampleRequest longState) = some (next, .ok) ∧
      netfilterStatus (fun _ => []) next = none ∧
      ¬ RoundTrip (fun _ => []) ⟨none, none, []⟩ (sampleRequest longState) sampleRules := by
  have length : longState.length = 1024 := List.length_replicate
  have letters : ∀ c ∈ longState, c = 120 := fun c member => List.eq_of_mem_replicate member
  have given : getstr (sampleRequest longState) "state" = some longState := by
    have plain : cstr longState = longState := cstr_plain longState fun nul => absurd (letters 0 nul) (by decide)
    exact congrArg some plain
  have set := set_spec ⟨none, none, []⟩ (sampleRequest longState) longState sampleRules given (sample_lists longState)
  have word : isWord longState = true := by
    have spaceless : longState.all (!isSpace ·) = true := by
      rw [List.all_eq_true]
      intro c member
      rw [letters c member]
      decide
    have nonempty : longState ≠ [] := fun empty => by
      rw [empty] at length
      cases length
    rw [isWord, spaceless, Bool.and_true]
    simpa using nonempty
  have overrun : serviceEnabled (some longState) = none := by
    rw [serviceEnabled, words_word longState word]
    simp only [length, le_refl, if_true]
  have status : netfilterStatus (fun _ => []) (writtenFiles ⟨none, none, []⟩ longState (ascii "ppp0") sampleRules) =
    none := by
    rw [netfilterStatus, show serviceEnabled (writtenFiles ⟨none, none, []⟩ longState
      (ascii "ppp0") sampleRules).service =
      none from overrun]
    rfl
  refine ⟨_, set, status, ?_⟩
  rintro ⟨next, written, ⟨enabled, answer⟩, _⟩
  rw [set] at written
  obtain ⟨rfl, _⟩ := Prod.mk.inj (Option.some.inj written)
  rw [status] at answer
  cases answer

end Ftm50s.Firewall
