import Ftm50s.Firewall.Converted

set_option autoImplicit false

namespace Ftm50s.Firewall

open Lib.Text Lib.Decimal Lib.Filter

theorem blanks_plain (count : Nat) : (10 : UInt8) ∉ blanks count := fun member =>
  absurd (List.eq_of_mem_replicate member) (by decide)

theorem option_plain (flag : String) (width : Nat) (value : Bytes) (flagPlain : (10 : UInt8) ∉ ascii flag)
    (plain : (10 : UInt8) ∉ value) :
    (10 : UInt8) ∉ optionText flag width value := by
  simp [optionText, flagPlain, pad_plain width value plain]

theorem direction_plain (direction ifname : Bytes) (plain : (10 : UInt8) ∉ ifname) :
    (10 : UInt8) ∉ directionText direction ifname := by
  rw [directionText]
  split
  · exact option_plain "-i" 6 ifname (by decide) plain
  · split
    · exact option_plain "-o" 6 ifname (by decide) plain
    · exact blanks_plain 10

theorem address_plain (flag : String) (address : Bytes) (flagPlain : (10 : UInt8) ∉ ascii flag)
    (plain : (10 : UInt8) ∉ address) :
    (10 : UInt8) ∉ addressText flag address := by
  rw [addressText]
  split
  · exact blanks_plain 20
  · exact option_plain flag 16 address flagPlain plain

theorem protocol_plain (protocol : Bytes) (plain : (10 : UInt8) ∉ protocol) : (10 : UInt8) ∉ protocolText protocol := by
  rw [protocolText]
  split
  · exact option_plain "-p" 8 protocol (by decide) plain
  · split
    · exact option_plain "-p" 8 protocol (by decide) plain
    · exact blanks_plain 11

theorem match_plain (flag : String) (protocol port : Bytes) (flagPlain : (10 : UInt8) ∉ ascii flag)
    (protocolPlain : (10 : UInt8) ∉ protocol) (plain : (10 : UInt8) ∉ port) :
    (10 : UInt8) ∉ matchText flag protocol port := by
  simp [matchText, option_plain "-m" 8 protocol (by decide) protocolPlain, flagPlain, plain, blanks_plain]

theorem sport_plain (chain protocol sport : Bytes) (protocolPlain : (10 : UInt8) ∉ protocol)
    (plain : (10 : UInt8) ∉ sport) :
    (10 : UInt8) ∉ sportText chain protocol sport := by
  rw [sportText]
  split
  · exact blanks_plain 42
  · split
    · decide
    · split
      · exact match_plain "--sport" protocol sport (by decide) protocolPlain plain
      · exact blanks_plain 42

theorem dport_plain (chain protocol dport : Bytes) (protocolPlain : (10 : UInt8) ∉ protocol)
    (plain : (10 : UInt8) ∉ dport) :
    (10 : UInt8) ∉ dportText chain protocol dport := by
  rw [dportText]
  split
  · exact blanks_plain 42
  · split
    · decide
    · split
      · exact match_plain "--dport" protocol dport (by decide) protocolPlain plain
      · exact blanks_plain 42

theorem iptables_rule_plain (rule : FtmRule) (hasWords : HasWords rule) : (10 : UInt8) ∉ iptablesRule rule.record := by
  have plain : ∀ field ∈ rule.record, (10 : UInt8) ∉ field :=
    fun field member => word_plain field (hasWords field member)
  simp only [FtmRule.record, List.forall_mem_cons] at plain
  obtain ⟨_, chain, _, ifname, sip, dip, protocol, sport, dport, policy, _⟩ := plain
  rw [iptables_rule_parts]
  simp only [List.mem_append, not_or]
  exact ⟨option_plain "-A" 8 _ (by decide) chain, direction_plain _ _ ifname, address_plain "-s" _ (by decide) sip,
    address_plain "-d" _ (by decide) dip, protocol_plain _ protocol, sport_plain _ _ _ protocol sport,
    dport_plain _ _ _ protocol dport, by decide, pad_plain 8 _ policy⟩

theorem rule_printed_plain (rule : FtmRule) (hasWords : HasWords rule) : (10 : UInt8) ∉ rulePrinted rule := by
  intro member
  cases columns_bytes _ 10 member with
  | inl inside =>
      obtain ⟨field, known, own⟩ := inside
      have printed : field.2 ∈ printedFields rule := printed_fields rule ▸ List.mem_map_of_mem known
      cases printed_words rule hasWords field.2 printed with
      | inl empty => rw [empty] at own; cases own
      | inr word => exact word_plain field.2 word own
  | inr blank => exact absurd blank (by decide)

-- What the second word of a chain's line does: a policy that reads like a
-- chain's name sets that chain's policy too.
def policyWord (state : AwkState) (policy : Bytes) : AwkState :=
  if policy = ascii ":INPUT" then { state with inputPolicy := policy }
  else if policy = ascii ":OUTPUT" then { state with outputPolicy := policy }
  else if policy = ascii ":FORWARD" then { state with forwardPolicy := policy }
  else state

theorem chain_ite (p : Prop) [Decidable p] (yes no : Scan × Nat) (first : yes.1.chain = none)
    (other : no.1.chain = none) :
    (if p then yes else no).1.chain = none := by
  split
  · exact first
  · exact other

theorem convert_option_last (scan : Scan) (word : Bytes) (unset : scan.chain = none) :
    (convertOption scan word []).1.chain = none := by
  unfold convertOption
  repeat' apply chain_ite
  all_goals first | rfl | exact unset

theorem convert_policy (state : AwkState) (policy : Bytes) :
    ∃ scan, convertWords policy state convertStart 0 [policy] = (policyWord state policy, scan) ∧
    scan.chain = none := by
  rw [convertWords, convertWord, policyWord]
  split_ifs
  · exact ⟨convertStart, rfl, rfl⟩
  · exact ⟨convertStart, rfl, rfl⟩
  · exact ⟨convertStart, rfl, rfl⟩
  · exact ⟨_, rfl, convert_option_last convertStart policy rfl⟩

theorem chain_record (state changed : AwkState) (line flag policy : Bytes) (shape : words line = [flag, policy])
    (sets : convertWords policy state convertStart 0 [flag, policy] = convertWords policy changed convertStart 0
      [policy]) :
    convertRecord state line = policyWord changed policy := by
  obtain ⟨scan, read, unset⟩ := convert_policy changed policy
  have silent : filterOf scan = none := by simp [filterOf, unset]
  have pair : convertWords policy state convertStart 0 [flag, policy] = (policyWord changed policy, scan) :=
    sets.trans read
  have second : ([flag, policy] : List Bytes).getD 1 [] = policy := rfl
  rw [convertRecord, shape, second, pair]
  simp [silent]

theorem input_record (state : AwkState) (policy : Bytes) (word : isWord policy = true) :
    convertRecord state (ascii ":INPUT" ++ 32 :: policy) = policyWord { state with inputPolicy := policy } policy := by
  refine chain_record state _ _ (ascii ":INPUT") policy ?_ rfl
  rw [words_word_space _ _ 32 (by decide) (by decide), words_word policy word]

theorem forward_record (state : AwkState) (policy : Bytes) (word : isWord policy = true) :
    convertRecord state (ascii ":FORWARD" ++ 32 :: policy) = policyWord { state with forwardPolicy :=
    policy } policy := by
  refine chain_record state _ _ (ascii ":FORWARD") policy ?_ rfl
  rw [words_word_space _ _ 32 (by decide) (by decide), words_word policy word]

theorem output_record (state : AwkState) (policy : Bytes) (word : isWord policy = true) :
    convertRecord state (ascii ":OUTPUT" ++ 32 :: policy) = policyWord { state with outputPolicy :=
    policy } policy := by
  refine chain_record state _ _ (ascii ":OUTPUT") policy ?_ rfl
  rw [words_word_space _ _ 32 (by decide) (by decide), words_word policy word]

theorem convert_record_rule (state : AwkState) (rule : FtmRule) (valid : InFormat rule) (hasWords : HasWords rule) :
    convertRecord state (iptablesRule rule.record) = { state with filters :=
    state.filters ++ (filterOf (convertedScan rule)).toList } := by
  rw [convertRecord, iptables_rule_words rule valid hasWords, convert_rule rule valid]

theorem convert_records_rules (state : AwkState) (rules : List FtmRule) (valid : ∀ rule ∈ rules, InFormat rule)
    (hasWords : ∀ rule ∈ rules, HasWords rule) :
    (rules.map fun rule => iptablesRule rule.record).foldl convertRecord state =
      { state with filters := state.filters ++ rules.flatMap fun rule => (filterOf (convertedScan rule)).toList } := by
  induction rules generalizing state with
  | nil => simp
  | cons rule rules ih =>
      rw [List.forall_mem_cons] at valid hasWords
      rw [List.map_cons, List.foldl_cons, convert_record_rule state rule valid.1 hasWords.1, ih _ valid.2 hasWords.2]
      simp

def policiesRead (file : FtmFile) : AwkState :=
  policyWord { policyWord { policyWord { awkBegin with inputPolicy := file.inputPolicy } file.inputPolicy with
    forwardPolicy := file.forwardPolicy } file.forwardPolicy with outputPolicy := file.outputPolicy } file.outputPolicy

-- A chain keeps its policy unless the policy of a later one spells its name.
def PoliciesKept (file : FtmFile) : Prop :=
  (file.forwardPolicy = ascii ":INPUT" ∨ file.outputPolicy = ascii ":INPUT" → file.inputPolicy = ascii ":INPUT") ∧
    (file.outputPolicy = ascii ":FORWARD" → file.forwardPolicy = ascii ":FORWARD")

section
variable (state : AwkState) (policy : Bytes)

theorem policy_word_input : (policyWord state policy).inputPolicy = if policy =
    ascii ":INPUT" then policy else state.inputPolicy := by
  rw [policyWord]
  split_ifs <;> rfl

theorem policy_word_output : (policyWord state policy).outputPolicy = if policy =
    ascii ":OUTPUT" then policy else state.outputPolicy := by
  rw [policyWord]
  split_ifs with input output
  · exact absurd (input.symm.trans output) (by decide)
  all_goals rfl

theorem policy_word_forward : (policyWord state policy).forwardPolicy = if policy =
    ascii ":FORWARD" then policy else state.forwardPolicy := by
  rw [policyWord]
  split_ifs with input forward output forward
  · exact absurd (input.symm.trans forward) (by decide)
  · rfl
  · exact absurd (output.symm.trans forward) (by decide)
  all_goals rfl

theorem policy_word_filters : (policyWord state policy).filters = state.filters := by
  rw [policyWord]
  split_ifs <;> rfl

end

theorem policies_read_iff (file : FtmFile) :
    ((policiesRead file).inputPolicy = file.inputPolicy ∧ (policiesRead file).forwardPolicy = file.forwardPolicy ∧
      (policiesRead file).outputPolicy = file.outputPolicy) ↔ PoliciesKept file := by
  simp only [policiesRead, policy_word_input, policy_word_forward, policy_word_output, PoliciesKept, ite_self, and_true]
  refine and_congr ?_ ?_
  · by_cases output : file.outputPolicy = ascii ":INPUT"
    · simp [output, eq_comm]
    · by_cases forward : file.forwardPolicy = ascii ":INPUT"
      · simp [output, forward, eq_comm]
      · simp [output, forward]
  · by_cases output : file.outputPolicy = ascii ":FORWARD"
    · simp [output, eq_comm]
    · simp [output]

structure FileWords (file : FtmFile) : Prop where
  inputPolicy : isWord file.inputPolicy = true
  forwardPolicy : isWord file.forwardPolicy = true
  outputPolicy : isWord file.outputPolicy = true
  rules : ∀ rule ∈ file.rules, HasWords rule

theorem spells_words (text : Bytes) (file : FtmFile) (spells : Spells text file) : FileWords file := by
  have each : ∀ record ∈ file.records, ∀ field ∈ record, isWord field = true := by
    intro record member field inside
    rw [← spells] at member
    obtain ⟨line, _, rfl⟩ := List.mem_map.mp member
    exact words_are_words line field inside
  simp only [FtmFile.records, chainRecords, List.forall_mem_append, List.forall_mem_cons, List.forall_mem_map] at each
  obtain ⟨⟨_, input, forward, output, _⟩, rules⟩ := each
  exact ⟨input.2.2.1, forward.2.2.1, output.2.2.1, rules⟩

def iptablesLines (file : FtmFile) : List Bytes :=
  [ascii "*filter", ascii ":INPUT" ++ 32 :: file.inputPolicy, ascii ":FORWARD" ++ 32 :: file.forwardPolicy,
    ascii ":OUTPUT" ++ 32 :: file.outputPolicy] ++ (file.rules.map fun rule => iptablesRule rule.record) ++
    [ascii "COMMIT"]

theorem iptables_lines_plain (file : FtmFile) (hasWords : FileWords file) :
    ∀ line ∈ iptablesLines file, (10 : UInt8) ∉ line := by
  have input := word_plain _ hasWords.inputPolicy
  have forward := word_plain _ hasWords.forwardPolicy
  have output := word_plain _ hasWords.outputPolicy
  simp only [iptablesLines, List.forall_mem_append, List.forall_mem_cons, List.forall_mem_map]
  refine ⟨⟨⟨by decide, ?_, ?_, ?_, by simp⟩, fun rule member =>
    iptables_rule_plain rule (hasWords.rules rule member)⟩, by decide, by simp⟩
  · simp [input]; decide
  · simp [forward]; decide
  · simp [output]; decide

theorem ftmrule_to_iptables (text : Bytes) (file : FtmFile) (spells : Spells text file) :
    lines (ftmrule2iptables text) = iptablesLines file := by
  have printed : ((lines text).map words).filterMap iptablesLine ++ [ascii "COMMIT"] = iptablesLines file := by
    have rules : (file.rules.map FtmRule.record).filterMap iptablesLine = file.rules.map fun rule =>
      iptablesRule rule.record := by
      rw [List.filterMap_map, List.filterMap_eq_map_iff_forall_eq_some]
      exact fun rule _ => rfl
    rw [spells, FtmFile.records, List.filterMap_append, rules]
    rfl
  rw [ftmrule2iptables, printed, lines_unlines _ (iptables_lines_plain file (spells_words text file spells))]

def stateRead (file : FtmFile) : AwkState :=
  { policiesRead file with filters := file.rules.flatMap fun rule => (filterOf (convertedScan rule)).toList }

theorem iptables_state (file : FtmFile) (hasWords : FileWords file) (valid : ∀ rule ∈ file.rules, InFormat rule) :
    (iptablesLines file).foldl convertRecord awkBegin =
      stateRead file := by
  have table : convertRecord awkBegin (ascii "*filter") = awkBegin := by decide
  have commit : ∀ state, convertRecord state (ascii "COMMIT") = state := by
    intro state
    have silent : convertRecord state (ascii "COMMIT") = { state with filters := state.filters ++ [] } := rfl
    rw [silent, List.append_nil]
  have filters : (policiesRead file).filters = [] := by simp only [policiesRead, policy_word_filters]; rfl
  have head : [ascii "*filter", ascii ":INPUT" ++ 32 :: file.inputPolicy, ascii ":FORWARD" ++ 32 :: file.forwardPolicy,
      ascii ":OUTPUT" ++ 32 :: file.outputPolicy].foldl convertRecord awkBegin = policiesRead file := by
    simp only [List.foldl_cons, List.foldl_nil]
    rw [table, input_record _ _ hasWords.inputPolicy, forward_record _ _ hasWords.forwardPolicy,
      output_record _ _ hasWords.outputPolicy]
    rfl
  rw [iptablesLines, List.foldl_append, List.foldl_append, head, convert_records_rules _ _ valid hasWords.rules,
    filters,
    List.nil_append]
  exact commit _

theorem printed_records (rules : List FtmRule) (valid : ∀ rule ∈ rules, InFormat rule)
    (hasWords : ∀ rule ∈ rules, HasWords rule) :
    (rules.flatMap fun rule => (filterOf (convertedScan rule)).toList).map (fun text =>
      words (ascii "RULE  " ++ text)) =
      rules.filterMap ruleRead := by
  induction rules with
  | nil => rfl
  | cons rule rules ih =>
      rw [List.forall_mem_cons] at valid hasWords
      rw [List.flatMap_cons, List.map_append, ih valid.2 hasWords.2, converted_filter rule valid.1, List.filterMap_cons,
        ruleRead]
      by_cases readable : isReadable rule = true
      · simp [readable, rule_printed_words rule hasWords.1]
      · simp [readable]

theorem ite_word (p : Prop) [Decidable p] (first other : Bytes) (firstWord : isWord first = true)
    (otherWord : isWord other = true) :
    isWord (if p then first else other) = true := by
  split
  · exact firstWord
  · exact otherWord

theorem policies_words (file : FtmFile) (hasWords : FileWords file) : isWord (policiesRead file).inputPolicy = true ∧
    isWord (policiesRead file).forwardPolicy = true ∧ isWord (policiesRead file).outputPolicy = true := by
  obtain ⟨input, forward, output, _⟩ := hasWords
  simp only [policiesRead, policy_word_input, policy_word_forward, policy_word_output, ite_self]
  exact ⟨ite_word _ _ _ output (ite_word _ _ _ forward input), ite_word _ _ _ output forward, output⟩

theorem chain_words (head policy : Bytes) (closed : head.getLast?.all isSpace = true) (word : isWord policy = true) :
    words (head ++ policy) = words head ++ [policy] := by
  rw [words_append head policy closed, words_word policy word]

theorem chain_plain (head policy : Bytes) (plain : (10 : UInt8) ∉ head) (word : isWord policy = true) :
    (10 : UInt8) ∉ head ++ policy := by
  simp [plain, word_plain policy word]

theorem filters_plain (file : FtmFile) (hasWords : FileWords file) (valid : ∀ rule ∈ file.rules, InFormat rule) :
    ∀ printed ∈ (stateRead file).filters, (10 : UInt8) ∉ ascii "RULE  " ++ printed := by
  intro printed member
  obtain ⟨rule, inside, own⟩ := List.mem_flatMap.mp member
  rw [converted_filter rule (valid rule inside), Option.mem_toList] at own
  split at own
  · cases own
    rw [List.mem_append, not_or]
    exact ⟨by decide, rule_printed_plain rule (hasWords.rules rule inside)⟩
  · cases own

theorem iptables_to_ftmrule (text : Bytes) (file : FtmFile) (spells : Spells text file)
    (valid : ∀ rule ∈ file.rules, InFormat rule) :
    (lines (iptables2ftmrule (ftmrule2iptables text))).map words =
      chainRecords (policiesRead file).inputPolicy (policiesRead file).forwardPolicy (policiesRead file).outputPolicy ++
        file.rules.filterMap ruleRead := by
  have hasWords := spells_words text file spells
  obtain ⟨input, forward, output⟩ := policies_words file hasWords
  have plain : ∀ line ∈ convertEnd (stateRead file), (10 : UInt8) ∉ line := by
    simp only [convertEnd, List.forall_mem_append, List.forall_mem_cons, List.forall_mem_map]
    exact ⟨⟨by decide, chain_plain _ _ (by decide) input, chain_plain _ _ (by decide) forward,
      chain_plain _ _ (by decide) output, by simp⟩,
      filters_plain file hasWords valid⟩
  rw [iptables2ftmrule, ftmrule_to_iptables text file spells, iptables_state file hasWords valid, lines_unlines _ plain,
    convertEnd,
    List.map_append, List.map_map]
  refine congr_arg₂ _ ?_ (printed_records file.rules valid hasWords.rules)
  have inputWords := chain_words (ascii "CHAIN INPUT ") _ rfl input
  have forwardWords := chain_words (ascii "CHAIN FORWARD ") _ rfl forward
  have outputWords := chain_words (ascii "CHAIN OUTPUT ") _ rfl output
  simp only [List.map_cons, List.map_nil, stateRead, inputWords, forwardWords, outputWords]
  rfl

-- The converters are inverse exactly on the files without an address, a source
-- port or an ICMP type on an outgoing rule.
theorem converter_inverse (text : Bytes) (file : FtmFile) (spells : Spells text file)
    (valid : ∀ rule ∈ file.rules, InFormat rule) :
    Spells (iptables2ftmrule (ftmrule2iptables text)) file ↔ PoliciesKept file ∧ ∀ rule ∈ file.rules,
    Convertible rule := by
  have hasWords := spells_words text file spells
  have rules : file.rules.filterMap ruleRead = file.rules.map FtmRule.record ↔ ∀ rule ∈ file.rules,
    Convertible rule := by
    rw [List.filterMap_eq_map_iff_forall_eq_some]
    exact forall₂_congr fun rule member => rule_read_iff rule (valid rule member) (hasWords.rules rule member)
  have apart : ∀ (a b c d e f : Bytes) (rest others : List (List Bytes)),
      chainRecords a b c ++ rest = chainRecords d e f ++ others ↔ (a = d ∧ b = e ∧ c = f) ∧ rest = others := by
    intro a b c d e f rest others
    simp [chainRecords, and_assoc]
  rw [Spells, iptables_to_ftmrule text file spells valid, FtmFile.records, apart, policies_read_iff, rules]

def recordText (record : List Bytes) : Bytes := columns (record.map fun field => (7, field))

-- One text of a file: its fields in columns, as the scripts print them
def ftmruleText (file : FtmFile) : Bytes := unlines (file.records.map recordText)

theorem record_text_words (record : List Bytes) (each : ∀ field ∈ record, isWord field = true) :
    words (recordText record) = record := by
  have valid : ∀ column ∈ record.map fun field => (7, field), column.2 = [] ∨ isWord column.2 = true := by
    rw [List.forall_mem_map]
    exact fun field member => Or.inr (each field member)
  have filled : ∀ field ∈ record, (!field.isEmpty) = true := fun field member => by
    simpa using word_nonempty field (each field member)
  have fields : (record.map fun field => ((7, field) : Nat × Bytes)).map Prod.snd = record := by simp
  rw [recordText, words_gaps _ valid, fields, List.filter_eq_self.mpr filled]

theorem record_text_plain (record : List Bytes) (each : ∀ field ∈ record, isWord field = true) :
    (10 : UInt8) ∉ recordText record := by
  intro member
  cases columns_bytes _ 10 member with
  | inl inside =>
      obtain ⟨column, known, own⟩ := inside
      obtain ⟨field, within, rfl⟩ := List.mem_map.mp known
      exact word_plain field (each field within) own
  | inr blank => exact absurd blank (by decide)

theorem spells_text (file : FtmFile) (each : ∀ record ∈ file.records, ∀ field ∈ record, isWord field = true) :
    Spells (ftmruleText file) file := by
  have plain : ∀ line ∈ file.records.map recordText, (10 : UInt8) ∉ line := by
    rw [List.forall_mem_map]
    exact fun record member => record_text_plain record (each record member)
  rw [Spells, ftmruleText, lines_unlines _ plain, List.map_map]
  refine (List.map_congr_left fun record member => ?_).trans (List.map_id file.records)
  exact record_text_words record (each record member)

def ftmRule (chain direction ifname sip dip protocol sport dport policy : String) : FtmRule :=
  ⟨ascii chain, ascii direction, ascii ifname, ascii sip, ascii dip, ascii protocol, ascii sport, ascii dport,
    ascii policy⟩

def fromHost : FtmFile := ⟨ascii "DROP", ascii "DROP", ascii "ACCEPT",
  [ftmRule "INPUT" "IN" "eth0" "192.168.0.7" "0.0.0.0" "tcp" "0" "80" "ACCEPT"]⟩

theorem source_address_lost : ¬∀ (text : Bytes) (file : FtmFile), Spells text file →
    (∀ rule ∈ file.rules, InFormat rule) → Spells (iptables2ftmrule (ftmrule2iptables text)) file := by
  intro all
  have spells := spells_text fromHost (by decide)
  have valid : ∀ rule ∈ fromHost.rules, InFormat rule :=
    List.forall_mem_singleton.mpr ⟨by decide, by decide, by decide, by decide, by decide⟩
  have back := (iptables_to_ftmrule _ fromHost spells valid).symm.trans (all _ _ spells valid)
  exact absurd back (by decide)

-- Three rules of ftmrule.default
def defaultRules : FtmFile := ⟨ascii "DROP", ascii "DROP", ascii "ACCEPT",
  [ftmRule "INPUT" "IN" "eth0" "0.0.0.0" "0.0.0.0" "icmp" "0" "echo-request" "ACCEPT",
   ftmRule "INPUT" "IN" "eth0" "0.0.0.0" "0.0.0.0" "tcp" "0" "80" "ACCEPT",
   ftmRule "FORWARD" "OUT" "eth0" "0.0.0.0" "0.0.0.0" "all" "0" "0" "ACCEPT"]⟩

theorem converter_inverse_default : Spells
    (iptables2ftmrule (ftmrule2iptables (ftmruleText defaultRules))) defaultRules := by
  refine (converter_inverse _ _ (spells_text defaultRules (by decide)) ?_).mpr ⟨?_, ?_⟩
  · rw [defaultRules, List.forall_mem_cons, List.forall_mem_cons, List.forall_mem_singleton]
    exact ⟨⟨by decide, by decide, by decide, by decide, by decide⟩,
      ⟨by decide, by decide, by decide, by decide, by decide⟩,
      ⟨by decide, by decide, by decide, by decide, by decide⟩⟩
  · unfold PoliciesKept
    decide
  · rw [defaultRules, List.forall_mem_cons, List.forall_mem_cons, List.forall_mem_singleton]
    exact ⟨⟨rfl, rfl, rfl, fun _ => rfl, by decide, by decide⟩, ⟨rfl, rfl, rfl, fun _ => rfl, by decide, by decide⟩,
      ⟨rfl, rfl, rfl, by decide, by decide, by decide⟩⟩

end Ftm50s.Firewall
