import Ftm50s.Firewall.Status

set_option autoImplicit false

namespace Ftm50s.Firewall

open Lib.Text Lib.Filter

-- A line between the name of a table and its COMMIT
inductive TableLine where
  | chain (name policy : Bytes) (counters : Option Bytes)
  | rule (text : Bytes)
deriving DecidableEq, Repr

structure TablePart where
  table : Bytes
  body : List TableLine
  blanks : Nat
deriving DecidableEq, Repr

def tableLineText : TableLine → Bytes
  | .chain name policy counters =>
      ascii ":" ++ name ++ ascii " " ++ policy ++ (match counters with
        | some text => ascii " " ++ text
        | none => [])
  | .rule text => text

def partLines (part : TablePart) : List Bytes :=
  (ascii "*" ++ part.table) :: part.body.map tableLineText ++ ascii "COMMIT" :: List.replicate part.blanks []

def tableFile (parts : List TablePart) : Bytes := unlines (parts.flatMap partLines)

-- A rule may follow its counters in brackets.
def isTableLine : TableLine → Bool
  | .chain name policy counters => isWord name && isWord policy && counters.all isWord
  | .rule text => (text.head? == some 45 || text.head? == some 91) && !text.contains 10

def isTablePart (part : TablePart) : Bool := isWord part.table && !part.table.contains 58 && part.body.all isTableLine

-- iptables-restore applies the lines in order: the last policy of a chain stays.
def policyFor (chain : Bytes) : TableLine → Option Bytes
  | .chain name policy _ => if name = chain then some policy else none
  | .rule _ => none

def declared (parts : List TablePart) (chain : Bytes) : Option Bytes :=
  ((parts.filter fun part => part.table == ascii "filter").flatMap TablePart.body).reverse.findSome? (policyFor chain)

inductive Chain where
  | input
  | output
  | forward
deriving DecidableEq, Repr

-- Which policy the script takes a line for; the tests are made in this order.
def chainOf (line : Bytes) : Option Chain :=
  let first := (words line).getD 0 []
  if isMatch ":INPUT" first then some .input
  else if isMatch ":OUTPUT" first then some .output
  else if isMatch ":FORWARD" first then some .forward
  else none

def bodyTexts (parts : List TablePart) : List Bytes := parts.flatMap fun part => part.body.map tableLineText

-- The second word of the last line, of any table, that the script takes for the chain
def lastPolicy (chain : Chain) (texts : List Bytes) : Option Bytes :=
  (texts.reverse.find? fun line => chainOf line == some chain).map fun line => (words line).getD 1 []

def policyOf (state : AwkState) : Chain → Bytes
  | .input => state.inputPolicy
  | .output => state.outputPolicy
  | .forward => state.forwardPolicy

theorem record_policy (state : AwkState) (line : Bytes) (chain : Chain) : policyOf (awkRecord state line) chain =
    if chainOf line = some chain then (words line).getD 1 [] else policyOf state chain := by
  by_cases input : isMatch ":INPUT" ((words line).getD 0 []) = true
  · have kind : chainOf line = some .input := by simp only [chainOf, if_pos input]
    simp only [awkRecord, if_pos input, kind]
    cases chain <;> rfl
  · by_cases output : isMatch ":OUTPUT" ((words line).getD 0 []) = true
    · have kind : chainOf line = some .output := by simp only [chainOf, if_neg input, if_pos output]
      simp only [awkRecord, if_neg input, if_pos output, kind]
      cases chain <;> rfl
    · by_cases forward : isMatch ":FORWARD" ((words line).getD 0 []) = true
      · have kind : chainOf line = some .forward := by simp only [chainOf, if_neg input, if_neg output, if_pos forward]
        simp only [awkRecord, if_neg input, if_neg output, if_pos forward, kind]
        cases chain <;> rfl
      · have kind : chainOf line = none := by simp only [chainOf, if_neg input, if_neg output, if_neg forward]
        simp only [awkRecord, if_neg input, if_neg output, if_neg forward, kind]
        cases chain <;> rfl

theorem last_policy_append (chain : Chain) (front : List Bytes) (line : Bytes) : lastPolicy chain (front ++ [line]) =
    if chainOf line = some chain then some ((words line).getD 1 []) else lastPolicy chain front := by
  rw [lastPolicy, List.reverse_append, List.reverse_singleton, List.singleton_append, List.find?_cons]
  by_cases hit : chainOf line = some chain
  · simp [hit]
  · rw [if_neg hit, beq_eq_false_iff_ne.mpr hit, lastPolicy]

-- The variables after a run hold the last line of their kind.
theorem records_policy (texts : List Bytes) (state : AwkState) (chain : Chain) :
    policyOf (texts.foldl awkRecord state) chain = (lastPolicy chain texts).getD (policyOf state chain) := by
  induction texts using List.reverseRecOn with
  | nil => rfl
  | append_singleton front line ih =>
      rw [List.foldl_append, List.foldl_cons, List.foldl_nil, record_policy, last_policy_append, ih]
      by_cases hit : chainOf line = some chain
      · rw [if_pos hit, if_pos hit, Option.getD_some]
      · rw [if_neg hit, if_neg hit]

theorem last_policy_filter (chain : Chain) (texts : List Bytes) :
    lastPolicy chain texts = lastPolicy chain (texts.filter fun line => (chainOf line).isSome) := by
  induction texts using List.reverseRecOn with
  | nil => rfl
  | append_singleton front line ih =>
      rw [List.filter_append, last_policy_append]
      by_cases named : (chainOf line).isSome = true
      · rw [List.filter_cons_of_pos (by exact named), List.filter_nil, last_policy_append, ih]
      · rw [List.filter_cons_of_neg (by exact named), List.filter_nil, List.append_nil, ← ih, if_neg]
        intro hit
        rw [hit] at named
        exact named rfl

theorem silent_without_colon (line : Bytes) (absent : (58 : UInt8) ∉ (words line).getD 0 []) : chainOf line = none := by
  have miss : ∀ pattern, isMatch (":" ++ pattern) ((words line).getD 0 []) = false := by
    intro pattern
    have opening : ascii (":" ++ pattern) = 58 :: ascii pattern := by
      simp [ascii]
      decide
    rw [isMatch, opening]
    exact occurs_absent 58 (ascii pattern) _ absent
  have input : isMatch ":INPUT" ((words line).getD 0 []) = false := miss "INPUT"
  have output : isMatch ":OUTPUT" ((words line).getD 0 []) = false := miss "OUTPUT"
  have forward : isMatch ":FORWARD" ((words line).getD 0 []) = false := miss "FORWARD"
  simp only [chainOf, input, output, forward, Bool.false_eq_true, if_false]

theorem table_name_silent (part : TablePart) (valid : isTablePart part = true) :
    chainOf (ascii "*" ++ part.table) = none := by
  simp only [isTablePart, Bool.and_eq_true] at valid
  obtain ⟨⟨word, plain⟩, _⟩ := valid
  have whole : isWord (ascii "*" ++ part.table) = true := by
    rw [isWord, Bool.and_eq_true] at word ⊢
    refine ⟨rfl, ?_⟩
    rw [List.all_append, word.2]
    rfl
  apply silent_without_colon
  rw [words_word _ whole, List.getD_cons_zero, List.mem_append, not_or]
  exact ⟨by decide, by simpa using plain⟩

theorem part_filter (part : TablePart) (valid : isTablePart part = true) :
    (partLines part).filter (fun line => (chainOf line).isSome) =
      (part.body.map tableLineText).filter fun line => (chainOf line).isSome := by
  have name : (chainOf (ascii "*" ++ part.table)).isSome = false := by
    rw [table_name_silent part valid, Option.isSome_none]
  have commit : (chainOf (ascii "COMMIT")).isSome = false := by decide
  have blank : (chainOf []).isSome = false := by decide
  rw [partLines, List.cons_append, List.filter_cons_of_neg (by rw [name]; exact Bool.false_ne_true), List.filter_append,
    List.filter_cons_of_neg (by rw [commit]; exact Bool.false_ne_true), List.filter_replicate, blank]
  simp

theorem file_policy (chain : Chain) (parts : List TablePart) (valid : parts.all isTablePart = true) :
    lastPolicy chain (parts.flatMap partLines) = lastPolicy chain (bodyTexts parts) := by
  rw [last_policy_filter, last_policy_filter chain (bodyTexts parts), bodyTexts, List.filter_flatMap,
    List.filter_flatMap]
  congr 1
  apply List.flatMap_congr
  intro part member
  exact part_filter part (List.all_eq_true.mp valid part member)

theorem chain_line_words (name policy : Bytes) (counters : Option Bytes) (nameWord : isWord name = true)
    (policyWord : isWord policy = true) (counted : counters.all isWord = true) :
    words (tableLineText (.chain name policy counters)) = (ascii ":" ++ name) :: policy :: counters.toList := by
  have whole : isWord (ascii ":" ++ name) = true := by
    rw [isWord, Bool.and_eq_true] at nameWord ⊢
    refine ⟨rfl, ?_⟩
    rw [List.all_append, nameWord.2]
    rfl
  have opening : ascii " " = [32] := rfl
  cases counters with
  | none =>
      have shape : tableLineText (.chain name policy none) = (ascii ":" ++ name) ++ 32 :: policy := by
        simp [tableLineText, opening]
      rw [shape, words_word_space _ _ 32 whole rfl, words_word policy policyWord]
      rfl
  | some text =>
      have shape : tableLineText (.chain name policy (some text)) =
          (ascii ":" ++ name) ++ 32 :: (policy ++ 32 :: text) := by
        simp [tableLineText, opening]
      rw [shape, words_word_space _ _ 32 whole rfl, words_word_space _ _ 32 policyWord rfl, words_word text counted]
      rfl

theorem part_lines_plain (part : TablePart) (valid : isTablePart part = true) :
    ∀ line ∈ partLines part, (10 : UInt8) ∉ line := by
  simp only [isTablePart, Bool.and_eq_true] at valid
  obtain ⟨⟨word, _⟩, lines⟩ := valid
  intro line member
  rw [partLines, List.cons_append, List.mem_cons, List.mem_append, List.mem_cons] at member
  rcases member with rfl | inside | rfl | blank
  · rw [List.mem_append, not_or]
    exact ⟨by decide, word_plain part.table word⟩
  · obtain ⟨item, body, rfl⟩ := List.mem_map.mp inside
    have valid := List.all_eq_true.mp lines item body
    cases item with
    | chain name policy counters =>
        simp only [isTableLine, Bool.and_eq_true] at valid
        obtain ⟨⟨nameWord, policyWord⟩, counted⟩ := valid
        have nameMiss := word_plain name nameWord
        have policyMiss := word_plain policy policyWord
        have colon : (10 : UInt8) ∉ ascii ":" := by decide
        have space : (10 : UInt8) ∉ ascii " " := by decide
        cases counters with
        | none => simp [tableLineText, colon, space, nameMiss, policyMiss]
        | some text =>
            have textMiss := word_plain text counted
            simp [tableLineText, colon, space, nameMiss, policyMiss, textMiss]
    | rule text =>
        simp only [isTableLine, Bool.and_eq_true] at valid
        simpa [tableLineText] using valid.2
  · decide
  · rw [List.eq_of_mem_replicate blank]
    exact List.not_mem_nil

def awkFinal (parts : List TablePart) : AwkState := (parts.flatMap partLines).foldl awkRecord awkBegin

theorem file_lines (parts : List TablePart) (valid : parts.all isTablePart = true) :
    lines (tableFile parts) = parts.flatMap partLines := by
  apply lines_unlines
  intro line member
  obtain ⟨part, inside, within⟩ := List.mem_flatMap.mp member
  exact part_lines_plain part (List.all_eq_true.mp valid part inside) line within

theorem final_policy (parts : List TablePart) (valid : parts.all isTablePart = true) (chain : Chain) :
    policyOf (awkFinal parts) chain = (lastPolicy chain (bodyTexts parts)).getD (ascii "ACCEPT") := by
  rw [awkFinal, records_policy, file_policy chain parts valid]
  cases chain <;> rfl

theorem first_word_of (texts : List Bytes) (chain : Chain) (policy : Bytes)
    (last : lastPolicy chain texts = some policy) :
    policy = [] ∨ isWord policy = true := by
  obtain ⟨line, _, rfl⟩ := Option.map_eq_some_iff.mp last
  cases second : (words line)[1]? with
  | none => exact Or.inl (by rw [List.getD_eq_getElem?_getD, second, Option.getD_none])
  | some word =>
      right
      rw [List.getD_eq_getElem?_getD, second, Option.getD_some]
      exact words_are_words line word (List.mem_of_getElem? second)

theorem final_policy_plain (parts : List TablePart) (valid : parts.all isTablePart = true) (chain : Chain) :
    (10 : UInt8) ∉ policyOf (awkFinal parts) chain := by
  rw [final_policy parts valid chain]
  cases last : lastPolicy chain (bodyTexts parts) with
  | none => decide
  | some policy =>
      rw [Option.getD_some]
      rcases first_word_of (bodyTexts parts) chain policy last with rfl | word
      · exact List.not_mem_nil
      · exact word_plain policy word

theorem status_head (parts : List TablePart) (valid : parts.all isTablePart = true) :
    ∃ rest, lines (statusIptables (tableFile parts)) =
      ascii "TABLE filter" :: (ascii "CHAIN INPUT " ++ policyOf (awkFinal parts) .input) ::
        (ascii "CHAIN FORWARD " ++ policyOf (awkFinal parts) .forward) :: ascii "CHAIN OUTPUT " :: rest := by
  have plain : ∀ record ∈ [ascii "TABLE filter", ascii "CHAIN INPUT " ++ policyOf (awkFinal parts) .input,
      ascii "CHAIN FORWARD " ++ policyOf (awkFinal parts) .forward, ascii "CHAIN OUTPUT "], (10 : UInt8) ∉ record := by
    intro record member
    simp only [List.mem_cons, List.not_mem_nil, or_false] at member
    rcases member with rfl | rfl | rfl | rfl
    · decide
    · rw [List.mem_append, not_or]
      exact ⟨by decide, final_policy_plain parts valid .input⟩
    · rw [List.mem_append, not_or]
      exact ⟨by decide, final_policy_plain parts valid .forward⟩
    · decide
  refine ⟨lines (unlines ((awkFinal parts).filters.map fun text => ascii "RULE  " ++ text)), ?_⟩
  rw [statusIptables, file_lines parts valid, awkEnd, unlines_append, lines_unlines_append]
  exact congrArg (· ++ _) (lines_unlines _ plain)

theorem declared_line (parts : List TablePart) (valid : parts.all isTablePart = true) (name policy : Bytes)
    (found : declared parts name = some policy) :
    ∃ counters, tableLineText (.chain name policy counters) ∈ bodyTexts parts ∧
      isTableLine (.chain name policy counters) = true := by
  obtain ⟨item, member, hit⟩ := List.exists_of_findSome?_eq_some found
  rw [List.mem_reverse] at member
  obtain ⟨part, inside, body⟩ := List.mem_flatMap.mp member
  have known := (List.mem_filter.mp inside).1
  have lines := List.all_eq_true.mp valid part known
  simp only [isTablePart, Bool.and_eq_true] at lines
  cases item with
  | rule text => cases hit
  | chain other given counters =>
      rw [policyFor] at hit
      split at hit
      · rename_i same
        obtain rfl := Option.some.inj hit
        rw [same] at body
        exact ⟨counters, List.mem_flatMap.mpr ⟨part, known, List.mem_map_of_mem body⟩,
          List.all_eq_true.mp lines.2 _ body⟩
      · cases hit

theorem last_policy_seen (chain : Chain) (texts : List Bytes) (line : Bytes) (member : line ∈ texts)
    (kind : chainOf line = some chain) : lastPolicy chain texts ≠ none := by
  intro absent
  rw [lastPolicy, Option.map_eq_none_iff, List.find?_eq_none] at absent
  exact absent line (List.mem_reverse.mpr member) (by simp [kind])

theorem declared_seen (parts : List TablePart) (valid : parts.all isTablePart = true) (chain : Chain) (name : Bytes)
    (kind : ∀ line, (words line).getD 0 [] = ascii ":" ++ name → chainOf line = some chain)
    (policy : Bytes) (found : declared parts name = some policy) :
    ∃ last, lastPolicy chain (bodyTexts parts) = some last ∧ policyOf (awkFinal parts) chain = last := by
  obtain ⟨counters, member, line⟩ := declared_line parts valid name policy found
  simp only [isTableLine, Bool.and_eq_true] at line
  have split := chain_line_words name policy counters line.1.1 line.1.2 line.2
  have seen := last_policy_seen chain (bodyTexts parts) _ member (kind _ (by rw [split, List.getD_cons_zero]))
  obtain ⟨last, hit⟩ := Option.ne_none_iff_exists'.mp seen
  exact ⟨last, hit, by rw [final_policy parts valid chain, hit, Option.getD_some]⟩

def reportLine (name : String) (policy : Bytes) : Bytes := ascii ("CHAIN " ++ name ++ " ") ++ policy

def Reports (parts : List TablePart) (name : String) (k : Nat) : Prop :=
  ∀ policy, declared parts (ascii name) = some policy →
    (lines (statusIptables (tableFile parts)))[k]? = some (reportLine name policy)

def PoliciesReported (parts : List TablePart) : Prop :=
  Reports parts "INPUT" 1 ∧ Reports parts "FORWARD" 2 ∧ Reports parts "OUTPUT" 3

def FilterSpeaksLast (parts : List TablePart) (name : String) (chain : Chain) : Prop :=
  ∀ policy, declared parts (ascii name) = some policy → lastPolicy chain (bodyTexts parts) = some policy

theorem reports_iff (parts : List TablePart) (valid : parts.all isTablePart = true) (name : String) (k : Nat)
    (chain : Chain) (kind : ∀ line, (words line).getD 0 [] = ascii ":" ++ ascii name → chainOf line = some chain)
      (printed : (lines (statusIptables (tableFile parts)))[k]? =
      some (reportLine name (policyOf (awkFinal parts) chain))) :
    Reports parts name k ↔ FilterSpeaksLast parts name chain := by
  constructor
  · intro reports policy found
    obtain ⟨last, hit, final⟩ := declared_seen parts valid chain (ascii name) kind policy found
    have same := Option.some.inj ((reports policy found).symm.trans printed)
    rw [hit, List.append_cancel_left same, final]
  · intro spoken policy found
    obtain ⟨last, hit, final⟩ := declared_seen parts valid chain (ascii name) kind policy found
    rw [printed, final, Option.some.inj (hit.symm.trans (spoken policy found))]

theorem output_reports_iff (parts : List TablePart) (valid : parts.all isTablePart = true) :
    Reports parts "OUTPUT" 3 ↔ declared parts (ascii "OUTPUT") = none := by
  obtain ⟨rest, shown⟩ := status_head parts valid
  constructor
  · intro reports
    cases found : declared parts (ascii "OUTPUT") with
    | none => rfl
    | some policy =>
        obtain ⟨counters, _, line⟩ := declared_line parts valid (ascii "OUTPUT") policy found
        simp only [isTableLine, Bool.and_eq_true] at line
        have printed := reports policy found
        rw [shown] at printed
        have same : ascii "CHAIN OUTPUT " ++ [] = ascii "CHAIN OUTPUT " ++ policy := by
          rw [List.append_nil]
          exact Option.some.inj printed
        exact absurd (List.append_cancel_left same).symm (word_nonempty policy line.1.2)
  · intro silent policy found
    rw [silent] at found
    cases found

-- The policy of OUTPUT never reaches its print statement, and the other two are
-- those of whichever table comes last.
theorem policies_reported_iff (parts : List TablePart) (valid : parts.all isTablePart = true) :
    PoliciesReported parts ↔ declared parts (ascii "OUTPUT") = none ∧
      FilterSpeaksLast parts "INPUT" .input ∧ FilterSpeaksLast parts "FORWARD" .forward := by
  obtain ⟨rest, shown⟩ := status_head parts valid
  have inputKind : ∀ line, (words line).getD 0 [] = ascii ":" ++ ascii "INPUT" → chainOf line = some .input := by
    intro line named
    have first : isMatch ":INPUT" (ascii ":" ++ ascii "INPUT") = true := by decide
    simp only [chainOf, named, first, if_true]
  have forwardKind : ∀ line, (words line).getD 0 [] = ascii ":" ++ ascii "FORWARD" → chainOf line = some .forward := by
    intro line named
    have first : isMatch ":INPUT" (ascii ":" ++ ascii "FORWARD") = false := by decide
    have second : isMatch ":OUTPUT" (ascii ":" ++ ascii "FORWARD") = false := by decide
    have third : isMatch ":FORWARD" (ascii ":" ++ ascii "FORWARD") = true := by decide
    simp only [chainOf, named, first, second, third, if_true, Bool.false_eq_true, if_false]
  have inputLabel : ascii ("CHAIN " ++ "INPUT" ++ " ") = ascii "CHAIN INPUT " := by decide
  have forwardLabel : ascii ("CHAIN " ++ "FORWARD" ++ " ") = ascii "CHAIN FORWARD " := by decide
  have input := reports_iff parts valid "INPUT" 1 .input inputKind
    (by rw [shown, reportLine, inputLabel, List.getElem?_cons_succ, List.getElem?_cons_zero])
  have forward := reports_iff parts valid "FORWARD" 2 .forward forwardKind
    (by rw [shown, reportLine, forwardLabel, List.getElem?_cons_succ, List.getElem?_cons_succ, List.getElem?_cons_zero])
  rw [PoliciesReported, input, forward, output_reports_iff parts valid]
  constructor
  · rintro ⟨inputLast, forwardLast, silent⟩
    exact ⟨silent, inputLast, forwardLast⟩
  · rintro ⟨silent, inputLast, forwardLast⟩
    exact ⟨inputLast, forwardLast, silent⟩

def mangleThenFilter : List TablePart :=
  [⟨ascii "mangle", [.chain (ascii "INPUT") (ascii "ACCEPT") none], 1⟩,
   ⟨ascii "filter", [.chain (ascii "INPUT") (ascii "DROP") (some (ascii "[0:0]")), .rule (ascii "-A INPUT -j ACCEPT")],
   0⟩]

theorem mangle_then_filter_reported : mangleThenFilter.all isTablePart = true ∧ PoliciesReported mangleThenFilter := by
  refine ⟨by decide, (policies_reported_iff mangleThenFilter (by decide)).mpr ⟨by decide, ?_, ?_⟩⟩
  · intro policy found
    rw [← found]
    decide
  · intro policy found
    cases found

def filterThenMangle : List TablePart :=
  [⟨ascii "filter",
      [.chain (ascii "INPUT") (ascii "DROP") none, .chain (ascii "FORWARD") (ascii "DROP") none,
       .chain (ascii "OUTPUT") (ascii "DROP") none], 1⟩,
   ⟨ascii "mangle", [.chain (ascii "INPUT") (ascii "ACCEPT") none, .chain (ascii "FORWARD") (ascii "ACCEPT") none], 0⟩]

theorem filter_then_mangle_misreported : filterThenMangle.all isTablePart = true ∧ ¬ PoliciesReported filterThenMangle ∧
    statusIptables (tableFile filterThenMangle) =
      ascii "TABLE filter\nCHAIN INPUT ACCEPT\nCHAIN FORWARD ACCEPT\nCHAIN OUTPUT \n" := by
  refine ⟨by decide, ?_, by decide⟩
  rintro ⟨_, _, output⟩
  have lost := (output_reports_iff filterThenMangle (by decide)).mp output
  revert lost
  decide

-- The file that the set branch writes
def builtIn (name : String) : TableLine := .chain (ascii name) (ascii "ACCEPT") none

def writtenParts (rules : List Bytes) (szIF : Bytes) : List TablePart :=
  [⟨ascii "raw", [builtIn "PREROUTING", builtIn "OUTPUT"], 1⟩,
   ⟨ascii "nat", [builtIn "PREROUTING", builtIn "INPUT", builtIn "OUTPUT", builtIn "POSTROUTING",
      .rule (ascii "-A POSTROUTING -o ppp0 -j MASQUERADE")], 1⟩,
   ⟨ascii "mangle", [builtIn "PREROUTING", builtIn "INPUT", builtIn "FORWARD", builtIn "OUTPUT", builtIn "POSTROUTING"],
   1⟩,
   ⟨ascii "filter", [builtIn "INPUT", builtIn "FORWARD", builtIn "OUTPUT"] ++
   (rules ++ (tailLines szIF).dropLast).map .rule, 0⟩]

theorem written_parts_file (rules : List Bytes) (szIF : Bytes) :
    tableFile (writtenParts rules szIF) = unlines (headLines ++ rules ++ tailLines szIF) := by
  have texts : ∀ all : List Bytes, (all.map TableLine.rule).map tableLineText = all := by
    intro all
    rw [List.map_map]
    exact List.map_id all
  have filterLines : partLines ⟨ascii "filter", [builtIn "INPUT", builtIn "FORWARD", builtIn "OUTPUT"] ++
      (rules ++ (tailLines szIF).dropLast).map .rule, 0⟩ =
      [ascii "*filter", ascii ":INPUT ACCEPT", ascii ":FORWARD ACCEPT", ascii ":OUTPUT ACCEPT"] ++
      (rules ++ tailLines szIF) := by
    have tail : (tailLines szIF).dropLast ++ [ascii "COMMIT"] = tailLines szIF := rfl
    have body : ∀ all, ([builtIn "INPUT", builtIn "FORWARD", builtIn "OUTPUT"] ++
      all.map TableLine.rule).map tableLineText =
        [ascii ":INPUT ACCEPT", ascii ":FORWARD ACCEPT", ascii ":OUTPUT ACCEPT"] ++ all := by
      intro all
      rw [List.map_append, texts]
      rfl
    simp only [partLines, body, List.replicate_zero]
    rw [← tail]
    simp only [List.cons_append, List.nil_append, List.append_assoc]
    rfl
  rw [tableFile, writtenParts]
  simp only [List.flatMap_cons, List.flatMap_nil, List.append_nil, filterLines]
  simp only [headLines, List.append_assoc]
  rfl

theorem written_policies_lost (rules : List Bytes) (szIF : Bytes)
    (valid : (writtenParts rules szIF).all isTablePart = true) : ¬ PoliciesReported (writtenParts rules szIF) := by
  rintro ⟨_, _, output⟩
  have silent := (output_reports_iff (writtenParts rules szIF) valid).mp output
  rw [declared, List.findSome?_eq_none_iff] at silent
  have member : builtIn "OUTPUT" ∈
      (((writtenParts rules szIF).filter fun part => part.table == ascii "filter").flatMap TablePart.body).reverse := by
    rw [List.mem_reverse]
    refine List.mem_flatMap.mpr ⟨_, List.mem_filter.mpr ⟨List.mem_of_getElem? (i := 3) rfl, beq_self_eq_true _⟩, ?_⟩
    simp
  have line := silent (builtIn "OUTPUT") member
  cases line

end Ftm50s.Firewall
