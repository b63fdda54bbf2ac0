import Ftm50s.Firewall.Status

set_option autoImplicit false

namespace Ftm50s.Firewall

open Lib.Text Lib.Decimal Ftm50s.Cgi

def protocols : List Bytes := [ascii "tcp", ascii "udp", ascii "icmp", ascii "all"]

def isRule (rule : Rule) : Bool := protocols.contains rule.proto && isField 64 rule.sip && isField 64 rule.dport

-- The port is written for tcp and udp only; the reader fills it in for the others.
def listedPort (rule : Rule) : Bytes :=
  if rule.proto = ascii "icmp" then ascii "echo-request"
  else if rule.proto = ascii "all" then ascii "0"
  else rule.dport

def listed (rule : Rule) : Rule := ⟨rule.sip, rule.proto, listedPort rule⟩

def listedEntry (rule : Rule) : Entry :=
  .rule (ascii "INPUT") (ascii "IN") (ascii "ppp0") rule.sip (ascii "0.0.0.0") rule.proto (ascii "0") (listedPort rule)
    (ascii "DROP")

def ruleScan (rule : Rule) : Scan :=
  ⟨some (ascii "INPUT"), some (ascii "IN"), some (ascii "ppp0"), some rule.sip, some (ascii "0.0.0.0"), some rule.proto,
    some (ascii "0"), some (listedPort rule), some (ascii "DROP")⟩

theorem rule_named (rule : Rule) (valid : isRule rule = true) : rule.proto ∈ protocols := by
  simp only [isRule, Bool.and_eq_true] at valid
  exact List.contains_iff_mem.mp valid.1.1

theorem proto_cases (proto : Bytes) (named : proto ∈ protocols) :
    proto = ascii "tcp" ∨ proto = ascii "udp" ∨ proto = ascii "icmp" ∨ proto = ascii "all" := by
  simpa [protocols] using named

theorem rule_proto (rule : Rule) (valid : isRule rule = true) :
    rule.proto = ascii "tcp" ∨ rule.proto = ascii "udp" ∨ rule.proto = ascii "icmp" ∨ rule.proto = ascii "all" :=
  proto_cases rule.proto (rule_named rule valid)

def sourceWords (rule : Rule) : List Bytes := if rule.sip ≠ ascii "0.0.0.0" then [ascii "-s", rule.sip] else []

def portWords (rule : Rule) : List Bytes :=
  if rule.proto = ascii "all" then []
  else if rule.proto = ascii "icmp" then [ascii "--icmp-type", ascii "echo-request"]
  else [ascii "--dport", rule.dport]

theorem tab_closed (text : Bytes) : (text ++ ascii "\t").getLast?.all isSpace = true := by
  have tab : ascii "\t" = [9] := rfl
  rw [tab, List.getLast?_append]
  rfl

theorem source_words (rule : Rule) (valid : isField 64 rule.sip = true) :
    words (sourceText rule.sip) = sourceWords rule ∧ (sourceText rule.sip).getLast?.all isSpace = true := by
  have tab : ascii "\t" = [9] := rfl
  unfold sourceText sourceWords
  split
  · refine ⟨?_, tab_closed _⟩
    rw [tab, List.append_assoc, words_append (ascii "-s ") _ (by decide), words_word_space rule.sip [] 9
      (field_spec 64 _ valid).1 (by decide)]
    rfl
  · exact ⟨rfl, rfl⟩

theorem proto_closed (proto : Bytes) (dport : Option Bytes) : (protoText proto dport).getLast?.all isSpace = true := by
  have echo : ascii " --icmp-type echo-request\t" = ascii " --icmp-type echo-request" ++ ascii "\t" := rfl
  unfold protoText
  split
  · exact tab_closed _
  · split
    · rw [echo, ← List.append_assoc]
      exact tab_closed _
    · exact tab_closed _

theorem proto_words (rule : Rule) (valid : isRule rule = true) :
    words (protoText rule.proto (some rule.dport)) = [ascii "-p", rule.proto] ++ portWords rule := by
  have portWord : isWord rule.dport = true := by
    simp only [isRule, Bool.and_eq_true] at valid
    exact (field_spec 64 _ valid.2).1
  have port : ∀ proto, isWord proto = true →
      words (ascii "-p " ++ proto ++ ascii " --dport " ++ rule.dport ++ ascii "\t") =
        [ascii "-p", proto, ascii "--dport", rule.dport] := by
    intro proto word
    have shape : ascii "-p " ++ proto ++ ascii " --dport " ++ rule.dport ++ ascii "\t" =
        ascii "-p " ++ (proto ++ 32 :: (ascii "--dport " ++ (rule.dport ++ 9 :: []))) := by
      have mark : ascii " --dport " = 32 :: ascii "--dport " := rfl
      have tab : ascii "\t" = [9] := rfl
      simp only [mark, tab, List.append_assoc, List.cons_append]
    rw [shape, words_append (ascii "-p ") _ (by decide), words_word_space proto _ 32 word (by decide),
      words_append (ascii "--dport ") _ (by decide), words_word_space rule.dport [] 9 portWord (by decide)]
    rfl
  obtain ⟨sip, proto, dport⟩ := rule
  rcases rule_proto _ valid with rfl | rfl | rfl | rfl
  · exact port (ascii "tcp") (by decide)
  · exact port (ascii "udp") (by decide)
  · have echo : words (ascii "-p " ++ ascii "icmp" ++ ascii " --icmp-type echo-request\t") =
        [ascii "-p", ascii "icmp", ascii "--icmp-type", ascii "echo-request"] := by decide
    exact echo
  · have bare : words (ascii "-p " ++ ascii "all" ++ ascii "\t") = [ascii "-p", ascii "all"] := by decide
    exact bare

theorem line_of_words (rule : Rule) (closed : (sourceText rule.sip).getLast?.all isSpace = true) :
    words (lineOf rule) = words (ascii "-A INPUT \t") ++
      (words (sourceText rule.sip) ++ (words (protoText rule.proto (some rule.dport)) ++ words (ascii "-j DROP"))) := by
  have shape : lineOf rule =
      ascii "-A INPUT \t" ++ (sourceText rule.sip ++ (protoText rule.proto (some rule.dport) ++ ascii "-j DROP")) := by
    rw [lineOf, ruleLine, List.append_assoc, List.append_assoc]
  rw [shape, words_append _ _ (by decide), words_append _ _ closed, words_append _ _ (proto_closed _ _)]

theorem rule_words (rule : Rule) (valid : isRule rule = true) :
    words (lineOf rule) =
      [ascii "-A", ascii "INPUT"] ++ sourceWords rule ++ ([ascii "-p", rule.proto] ++ portWords rule) ++
        [ascii "-j", ascii "DROP"] := by
  have sourceValid : isField 64 rule.sip = true := by
    simp only [isRule, Bool.and_eq_true] at valid
    exact valid.1.2
  obtain ⟨source, sourceClosed⟩ := source_words rule sourceValid
  have head : words (ascii "-A INPUT \t") = [ascii "-A", ascii "INPUT"] := by decide
  have verdict : words (ascii "-j DROP") = [ascii "-j", ascii "DROP"] := by decide
  rw [line_of_words rule sourceClosed, source, proto_words rule valid, head, verdict]
  simp only [List.append_assoc]

theorem scan_rule (rule : Rule) (valid : isRule rule = true) :
    scanWords startScan 0 (words (lineOf rule)) = ruleScan rule := by
  rw [rule_words rule valid]
  obtain ⟨sip, proto, dport⟩ := rule
  by_cases any : sip = ascii "0.0.0.0"
  · subst any
    rcases rule_proto _ valid with rfl | rfl | rfl | rfl <;> rfl
  · simp only [sourceWords, ne_eq, any, not_false_eq_true, if_true]
    rcases rule_proto _ valid with rfl | rfl | rfl | rfl <;> rfl

def lineFilters (line : Bytes) : List Bytes := (filterOf (scanWords startScan 0 (words line))).toList

def isPolicy (line : Bytes) : Bool :=
  [":INPUT", ":OUTPUT", ":FORWARD"].any fun pattern => isMatch pattern ((words line).getD 0 [])

theorem record_filters (state : AwkState) (line : Bytes) (plain : isPolicy line = false) :
    awkRecord state line = { state with filters := state.filters ++ lineFilters line } := by
  simp only [isPolicy, List.any_cons, List.any_nil, Bool.or_false, Bool.or_eq_false_iff] at plain
  simp only [awkRecord, plain.1, plain.2.1, plain.2.2, Bool.false_eq_true, if_false, lineFilters]

theorem records_filters (state : AwkState) (records : List Bytes) (plain : ∀ line ∈ records, isPolicy line = false) :
    records.foldl awkRecord state = { state with filters := state.filters ++ records.flatMap lineFilters } := by
  induction records generalizing state with
  | nil => simp
  | cons line rest ih =>
      rw [List.foldl_cons, record_filters state line (plain line (by simp)),
        ih _ fun other member => plain other (by simp [member]), List.flatMap_cons, List.append_assoc]

theorem append_not_policy (line : Bytes) (first : (words line).getD 0 [] = ascii "-A") : isPolicy line = false := by
  rw [isPolicy, first]
  decide

def ruleFilter (rule : Rule) : Bytes := filterText (ruleScan rule) (some rule.proto)

theorem rule_filters (rule : Rule) (valid : isRule rule = true) :
    isPolicy (lineOf rule) = false ∧ lineFilters (lineOf rule) = [ruleFilter rule] := by
  constructor
  · apply append_not_policy
    rw [rule_words rule valid]
    rfl
  · rw [lineFilters, scan_rule rule valid]
    obtain ⟨sip, proto, dport⟩ := rule
    rcases rule_proto _ valid with rfl | rfl | rfl | rfl <;> rfl

theorem record_head : ∀ line ∈ headLines, awkRecord awkBegin line = awkBegin := by
  have prerouting : awkRecord awkBegin (ascii ":PREROUTING ACCEPT") = awkBegin := by decide +kernel
  have postrouting : awkRecord awkBegin (ascii ":POSTROUTING ACCEPT") = awkBegin := by decide +kernel
  have input : awkRecord awkBegin (ascii ":INPUT ACCEPT") = awkBegin := by decide +kernel
  have forward : awkRecord awkBegin (ascii ":FORWARD ACCEPT") = awkBegin := by decide +kernel
  have output : awkRecord awkBegin (ascii ":OUTPUT ACCEPT") = awkBegin := by decide +kernel
  have commit : awkRecord awkBegin (ascii "COMMIT") = awkBegin := by decide +kernel
  simp only [headLines, List.forall_mem_cons, prerouting, postrouting, input, forward, output, commit, true_and]
  decide +kernel

theorem records_head : headLines.foldl awkRecord awkBegin = awkBegin := by
  have general : ∀ records : List Bytes, (∀ line ∈ records, awkRecord awkBegin line = awkBegin) →
      records.foldl awkRecord awkBegin = awkBegin := by
    intro records quiet
    induction records with
    | nil => rfl
    | cons line rest ih =>
        rw [List.foldl_cons, quiet line (by simp), ih fun other member => quiet other (by simp [member])]
  exact general headLines record_head

-- The fixed rule for the WAN interface: a filter of the OUTPUT chain at most,
-- and none when the interface is missing or reads as zero.
def outputLine (szIF : Bytes) : Bytes :=
  ascii "-A OUTPUT  -o " ++ szIF ++ ascii " -p icmp --icmp-type echo-reply -j ACCEPT"

def forwardLines : List Bytes :=
  [ascii "-A FORWARD -i eth0 -j ACCEPT", ascii "-A FORWARD -o eth0 -j ACCEPT", ascii "-A FORWARD -i eth1 -j ACCEPT",
   ascii "-A FORWARD -o eth1 -j ACCEPT", ascii "COMMIT"]

def outputScan (szIF : Bytes) : Scan :=
  ⟨some (ascii "OUTPUT"), some (ascii "OUT"), some szIF, some (ascii "0.0.0.0"), some (ascii "0.0.0.0"),
    some (ascii "icmp"), some (ascii "0"), some (ascii "0"), some (ascii "ACCEPT")⟩

def outputFilters (szIF : Bytes) : List Bytes :=
  if isWord szIF && isKnown (some szIF) then [filterText (outputScan szIF) (some (ascii "icmp"))] else []

theorem output_words (szIF : Bytes) :
    words (outputLine szIF) = [ascii "-A", ascii "OUTPUT", ascii "-o"] ++ words szIF ++
      [ascii "-p", ascii "icmp", ascii "--icmp-type", ascii "echo-reply", ascii "-j", ascii "ACCEPT"] := by
  have shape : outputLine szIF = ascii "-A OUTPUT  -o " ++
    (szIF ++ 32 :: ascii "-p icmp --icmp-type echo-reply -j ACCEPT") := by
    have blank : ascii " -p icmp --icmp-type echo-reply -j ACCEPT" =
        32 :: ascii "-p icmp --icmp-type echo-reply -j ACCEPT" := rfl
    rw [outputLine, blank, List.append_assoc]
  have head : words (ascii "-A OUTPUT  -o ") = [ascii "-A", ascii "OUTPUT", ascii "-o"] := by decide
  have tail : words (ascii "-p icmp --icmp-type echo-reply -j ACCEPT") =
      [ascii "-p", ascii "icmp", ascii "--icmp-type", ascii "echo-reply", ascii "-j", ascii "ACCEPT"] := by decide
  rw [shape, words_append _ _ (by decide), words_space szIF _ 32 (by decide), head, tail, List.append_assoc]

theorem output_known (szIF : Bytes) :
    (filterOf (outputScan szIF)).toList =
      if isKnown (some szIF) then [filterText (outputScan szIF) (some (ascii "icmp"))] else [] := by
  have chain : (outputScan szIF).chain.any (fun chain => startsWith "INPUT" chain || startsWith "OUTPUT" chain) =
    true := by
    have named : (startsWith "INPUT" (ascii "OUTPUT") || startsWith "OUTPUT" (ascii "OUTPUT")) = true := by decide
    exact named
  have known : (isKnown (outputScan szIF).direction && isKnown (outputScan szIF).ifname &&
      isKnown (outputScan szIF).protocol && isKnown (outputScan szIF).policy) = isKnown (some szIF) := by
    have direction : isKnown (some (ascii "OUT")) = true := by decide
    have protocol : isKnown (some (ascii "icmp")) = true := by decide
    have policy : isKnown (some (ascii "ACCEPT")) = true := by decide
    simp only [outputScan, direction, protocol, policy, Bool.true_and, Bool.and_true]
  rw [filterOf, if_pos chain, known]
  split <;> rfl

theorem output_filters (szIF : Bytes) (spaceless : szIF.all (!isSpace ·) = true) :
    isPolicy (outputLine szIF) = false ∧ lineFilters (outputLine szIF) = outputFilters szIF := by
  constructor
  · apply append_not_policy
    rw [output_words]
    rfl
  · rw [lineFilters, output_words]
    by_cases empty : szIF = []
    · subst empty
      decide +kernel
    · have word : isWord szIF = true := by simpa [isWord, spaceless] using empty
      have scan : scanWords startScan 0 ([ascii "-A", ascii "OUTPUT", ascii "-o"] ++ [szIF] ++
          [ascii "-p", ascii "icmp", ascii "--icmp-type", ascii "echo-reply", ascii "-j", ascii "ACCEPT"]) =
          outputScan szIF := rfl
      rw [words_word szIF word, scan, output_known, outputFilters, word, Bool.true_and]

def allFilters (szIF : Bytes) (rules : List Rule) : List Bytes :=
  rules.map ruleFilter ++ (outputFilters szIF ++ forwardLines.flatMap lineFilters)

theorem tail_records (state : AwkState) (szIF : Bytes) (spaceless : szIF.all (!isSpace ·) = true) :
    (tailLines szIF).foldl awkRecord state = { state with filters := state.filters ++ allFilters szIF [] } := by
  have shape : tailLines szIF = outputLine szIF :: forwardLines := rfl
  have plain : ∀ line ∈ tailLines szIF, isPolicy line = false := by
    rw [shape, List.forall_mem_cons]
    exact ⟨(output_filters szIF spaceless).1, by decide⟩
  rw [records_filters state _ plain, shape, List.flatMap_cons, (output_filters szIF spaceless).2, allFilters,
    List.map_nil,
    List.nil_append]

theorem status_records (szIF : Bytes) (rules : List Rule) (valid : ∀ rule ∈ rules, isRule rule = true)
    (spaceless : szIF.all (!isSpace ·) = true) :
    (headLines ++ rules.map lineOf ++ tailLines szIF).foldl awkRecord awkBegin =
      { awkBegin with filters := allFilters szIF rules } := by
  have ruled : (rules.map lineOf).flatMap lineFilters = rules.map ruleFilter := by
    induction rules with
    | nil => rfl
    | cons rule rest ih =>
        rw [List.map_cons, List.flatMap_cons, (rule_filters rule (valid rule (by simp))).2,
          ih fun other member => valid other (by simp [member])]
        rfl
  have plain : ∀ line ∈ rules.map lineOf, isPolicy line = false := by
    intro line member
    obtain ⟨rule, inside, rfl⟩ := List.mem_map.mp member
    exact (rule_filters rule (valid rule inside)).1
  rw [List.append_assoc, List.foldl_append, records_head, List.foldl_append, records_filters awkBegin _ plain, ruled,
    tail_records _ szIF spaceless]
  have start : awkBegin.filters = [] := rfl
  have joined : awkBegin.filters ++ rules.map ruleFilter ++ allFilters szIF [] = allFilters szIF rules := by
    rw [start, List.nil_append, allFilters, allFilters, List.map_nil, List.nil_append]
  rw [← joined]

end Ftm50s.Firewall
