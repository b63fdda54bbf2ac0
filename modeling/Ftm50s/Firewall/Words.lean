import Ftm50s.Firewall.Page

set_option autoImplicit false

namespace Ftm50s.Firewall

open Lib.Text Lib.Decimal Lib.Filter Ftm50s.Cgi

-- The words that the table and the script have of their own
def ownWords : List Bytes :=
  [ascii "-A", ascii "INPUT", ascii "-s", ascii "-p", ascii "tcp", ascii "udp", ascii "icmp", ascii "all",
    ascii "--icmp-type",
   ascii "echo-request", ascii "--dport", ascii "-j", ascii "DROP", ascii "IN", ascii "OUT", ascii "ppp0",
   ascii "0.0.0.0",
   ascii "0", ascii "ACCEPT", ascii "TABLE", ascii "filter", ascii "CHAIN", ascii "FORWARD", ascii "OUTPUT",
   ascii "RULE"]

section Drawn

variable (known : Bytes → Prop) (own : ∀ word ∈ ownWords, known word)

structure ScanDrawn (scan : Scan) : Prop where
  chain : ∀ word, scan.chain = some word → known word
  direction : ∀ word, scan.direction = some word → known word
  ifname : ∀ word, scan.ifname = some word → known word
  sip : ∀ word, scan.sip = some word → known word
  dip : ∀ word, scan.dip = some word → known word
  protocol : ∀ word, scan.protocol = some word → known word
  sport : ∀ word, scan.sport = some word → known word
  dport : ∀ word, scan.dport = some word → known word
  policy : ∀ word, scan.policy = some word → known word

variable {known}

include own

theorem own_drawn (text : Bytes) (member : text ∈ ownWords) (word : Bytes) (same : some text = some word) :
    known word :=
  own word (Option.some.inj same ▸ member)

theorem start_drawn : ScanDrawn known startScan where
  chain := nofun
  direction := own_drawn own (ascii "IN") (by decide)
  ifname := own_drawn own (ascii "ppp0") (by decide)
  sip := own_drawn own (ascii "0.0.0.0") (by decide)
  dip := own_drawn own (ascii "0.0.0.0") (by decide)
  protocol := nofun
  sport := own_drawn own (ascii "0") (by decide)
  dport := own_drawn own (ascii "0") (by decide)
  policy := nofun

theorem scan_word_drawn (scan : Scan) (word : Bytes) (rest : List Bytes) (drawn : ScanDrawn known scan)
    (given : ∀ other ∈ rest, known other) : ScanDrawn known (scanWord scan word rest).1 := by
  have later : ∀ (k : Nat) (other : Bytes), rest[k]? = some other → known other := fun k other found =>
    given other (List.mem_of_getElem? found)
  have inward := own_drawn own (ascii "IN") (by decide)
  have outward := own_drawn own (ascii "OUT") (by decide)
  have either : ∀ (test : Prop) [Decidable test] (left right : Scan × Nat), ScanDrawn known left.1 →
    ScanDrawn known right.1 →
      ScanDrawn known (if test then left else right).1 := fun test _ left right first second =>
    iteInduction (motive := fun (pair : Scan × Nat) => ScanDrawn known pair.1) (fun _ => first) fun _ => second
  unfold scanWord
  refine either _ _ _ { drawn with chain := later 0 } ?_
  refine either _ _ _ { drawn with direction := inward, ifname := later 0 } ?_
  refine either _ _ _ { drawn with direction := outward, ifname := later 0 } ?_
  refine either _ _ _ { drawn with sip := later 0 } ?_
  refine either _ _ _ { drawn with dip := later 0 } ?_
  refine either _ _ _ { drawn with protocol := later 0 } ?_
  refine either _ _ _ (either _ _ _ { drawn with dport := later 2 } (either _ _ _ { drawn with sport := later 2 } drawn)) ?_
  refine either _ _ _ { drawn with sport := later 0 } ?_
  refine either _ _ _ { drawn with dport := later 0 } ?_
  refine either _ _ _ (either _ _ _ { drawn with dport := later 0 } (either _ _ _ { drawn with sport := later 0 } drawn)) ?_
  exact either _ _ _ { drawn with policy := later 0 } { drawn with chain := nofun }

theorem scan_words_drawn (array : List Bytes) (given : ∀ word ∈ array, known word) (scan : Scan) (skip : Nat)
    (drawn : ScanDrawn known scan) : ScanDrawn known (scanWords scan skip array) := by
  induction array generalizing scan skip with
  | nil => cases skip <;> exact drawn
  | cons word rest ih =>
      rw [List.forall_mem_cons] at given
      cases skip with
      | zero => exact ih given.2 _ _ (scan_word_drawn own scan word rest drawn given.2)
      | succ skip => exact ih given.2 scan skip drawn

variable (word_like : ∀ word, known word → isWord word = true)

include word_like

omit own in
theorem filter_text_drawn (scan : Scan) (protocol : Option Bytes) (drawn : ScanDrawn known scan)
    (named : ∀ word, protocol = some word → known word) : ∀ word ∈ words (filterText scan protocol), known word := by
  have column : ∀ field : Option Bytes, (∀ word, field = some word → known word) → field.getD [] = [] ∨
    known (field.getD []) := by
    intro field given
    cases field with
    | none => exact Or.inl rfl
    | some word => exact Or.inr (given word rfl)
  have fields : ∀ field ∈ filterFields scan protocol, field.2 = [] ∨ known field.2 := by
    simp only [filterFields, List.forall_mem_cons]
    exact ⟨column _ drawn.chain, column _ drawn.direction, column _ drawn.ifname, column _ drawn.sip,
      column _ drawn.dip,
      column _ named, column _ drawn.sport, column _ drawn.dport, column _ drawn.policy, by simp⟩
  have gaps := words_gaps (filterFields scan protocol) fun field inside =>
    (fields field inside).imp_right (word_like field.2)
  intro word member
  rw [filterText, gaps, List.mem_filter] at member
  obtain ⟨field, inside, rfl⟩ := List.mem_map.mp member.1
  rcases fields field inside with empty | found
  · simp [empty] at member
  · exact found

theorem filter_of_drawn (scan : Scan) (drawn : ScanDrawn known scan) :
    ∀ text ∈ (filterOf scan).toList, ∀ word ∈ words text, known word := by
  intro text member
  rw [Option.mem_toList] at member
  unfold filterOf at member
  split at member
  · split at member
    · obtain rfl := Option.some.inj member
      exact filter_text_drawn word_like scan scan.protocol drawn drawn.protocol
    · cases member
  · split at member
    · split at member
      · obtain rfl := Option.some.inj member
        exact filter_text_drawn word_like scan _ drawn (own_drawn own (ascii "all") (by decide))
      · cases member
    · cases member

omit own in
theorem second_word_drawn (array : List Bytes) (given : ∀ word ∈ array, known word) :
    ∀ word ∈ words (array.getD 1 []), known word := by
  intro word member
  rw [List.getD_eq_getElem?_getD] at member
  cases found : array[1]? with
  | none =>
      rw [found] at member
      cases member
  | some second =>
      have here := given second (List.mem_of_getElem? found)
      rw [found, Option.getD_some, words_word second (word_like second here), List.mem_singleton] at member
      rw [member]
      exact here

structure StateDrawn (known : Bytes → Prop) (state : AwkState) : Prop where
  input : ∀ word ∈ words state.inputPolicy, known word
  output : ∀ word ∈ words state.outputPolicy, known word
  forward : ∀ word ∈ words state.forwardPolicy, known word
  filters : ∀ text ∈ state.filters, ∀ word ∈ words text, known word

theorem awk_record_drawn (state : AwkState) (line : Bytes) (drawn : StateDrawn known state)
    (given : ∀ word ∈ words line, known word) : StateDrawn known (awkRecord state line) := by
  have policy := second_word_drawn word_like (words line) given
  unfold awkRecord
  dsimp only
  split
  · exact { drawn with input := policy }
  · split
    · exact { drawn with output := policy }
    · split
      · exact { drawn with forward := policy }
      · refine { drawn with filters := fun text member => ?_ }
        rcases List.mem_append.mp member with old | new
        · exact drawn.filters text old
        · exact filter_of_drawn own word_like _ (scan_words_drawn own _ given _ 0 (start_drawn own)) text new

theorem awk_records_drawn (records : List Bytes) (state : AwkState) (drawn : StateDrawn known state)
    (given : ∀ line ∈ records, ∀ word ∈ words line, known word) : StateDrawn known (records.foldl awkRecord state) := by
  induction records generalizing state with
  | nil => exact drawn
  | cons line rest ih =>
      rw [List.forall_mem_cons] at given
      exact ih _ (awk_record_drawn own word_like state line drawn given.1) given.2

omit word_like in
theorem awk_end_drawn (state : AwkState) (drawn : StateDrawn known state) :
    ∀ word ∈ words (unlines (awkEnd state)), known word := by
  have chain : ∀ (name : String) (policy : Bytes), (∀ word ∈ words (ascii name), word ∈ ownWords) →
      (ascii name).getLast?.all isSpace = true → (∀ word ∈ words policy, known word) →
      ∀ word ∈ words (ascii name ++ policy), known word := by
    intro name policy fixed closed given word member
    rw [words_append _ _ closed] at member
    rcases List.mem_append.mp member with front | back
    · exact own word (fixed word front)
    · exact given word back
  rw [words_unlines]
  intro word member
  obtain ⟨line, inside, here⟩ := List.mem_flatMap.mp member
  simp only [awkEnd, List.cons_append, List.nil_append, List.mem_cons, List.mem_map] at inside
  rcases inside with rfl | rfl | rfl | rfl | ⟨text, filter, rfl⟩
  · exact own word ((by decide : ∀ word ∈ words (ascii "TABLE filter"), word ∈ ownWords) word here)
  · exact chain "CHAIN INPUT " state.inputPolicy (by decide) (by decide) drawn.input word here
  · exact chain "CHAIN FORWARD " state.forwardPolicy (by decide) (by decide) drawn.forward word here
  · exact own word ((by decide : ∀ word ∈ words (ascii "CHAIN OUTPUT "), word ∈ ownWords) word here)
  · exact chain "RULE  " text (by decide) (by decide) (drawn.filters text filter) word here

end Drawn

theorem status_line_texts (stale : Nat → Bytes) (raw : Bytes) (entries : List Entry)
    (run : statusLine stale raw = some entries) :
    ∀ entry ∈ entries, ∀ text ∈ entryTexts entry, (text ∈ words (cstr raw) ∧ text.length < 64) ∨
    ∃ i, text = stale i := by
  have column : ∀ count i, i < count → ((words (cstr raw)).take count).all (fun word => decide (word.length < 64)) =
    true →
      ((words (cstr raw)).getD i (stale i) ∈ words (cstr raw) ∧ ((words (cstr raw)).getD i (stale i)).length < 64) ∨
        ∃ k, (words (cstr raw)).getD i (stale i) = stale k := by
    intro count i below fits
    rw [List.getD_eq_getElem?_getD]
    cases found : (words (cstr raw))[i]? with
    | none => exact Or.inr ⟨i, rfl⟩
    | some word =>
        have early : word ∈ (words (cstr raw)).take count := by
          apply List.mem_of_getElem? (i := i)
          rw [List.getElem?_take, if_pos below, found]
        have short := List.all_eq_true.mp fits word early
        exact Or.inl ⟨List.mem_of_getElem? found, of_decide_eq_true short⟩
  have only : ∀ entry, entries = [entry] → (∀ text ∈ entryTexts entry,
      (text ∈ words (cstr raw) ∧ text.length < 64) ∨ ∃ i, text = stale i) → ∀ other ∈ entries,
      ∀ text ∈ entryTexts other,
      (text ∈ words (cstr raw) ∧ text.length < 64) ∨ ∃ i, text = stale i := by
    rintro entry rfl each other member
    rw [List.mem_singleton.mp member]
    exact each
  have nothing : entries = [] → ∀ other ∈ entries, ∀ text ∈ entryTexts other,
      (text ∈ words (cstr raw) ∧ text.length < 64) ∨ ∃ i, text = stale i := by
    rintro rfl
    exact List.forall_mem_nil _
  simp only [statusLine, Bool.not_eq_true'] at run
  split at run
  · cases run
  split at run
  · split at run
    · cases run
    · rename_i fits
      apply only _ (Option.some.inj run).symm
      simp only [entryTexts, List.forall_mem_cons]
      exact ⟨column 2 1 (by decide) (by simpa using fits), List.forall_mem_nil _⟩
  split at run
  · split at run
    · cases run
    · rename_i fits
      have each := fun i below => column 3 i below (by simpa using fits)
      apply only _ (Option.some.inj run).symm
      simp only [entryTexts, List.forall_mem_cons]
      exact ⟨each 1 (by decide), each 2 (by decide), List.forall_mem_nil _⟩
  split at run
  · split at run
    · cases run
    · rename_i fits
      have each := fun i below => column 10 i below (by simpa using fits)
      split at run
      · apply only _ (Option.some.inj run).symm
        simp only [entryTexts, List.forall_mem_cons]
        exact ⟨each 1 (by decide), each 2 (by decide), each 3 (by decide), each 4 (by decide), each 5 (by decide),
          each 6 (by decide), each 7 (by decide), each 8 (by decide), each 9 (by decide), List.forall_mem_nil _⟩
      · exact nothing (Option.some.inj run).symm
  · exact nothing (Option.some.inj run).symm

def hasPort (rule : Rule) : Bool := rule.proto == ascii "tcp" || rule.proto == ascii "udp"

def printed (rule : Rule) : List Bytes := if hasPort rule then [rule.sip, rule.dport] else [rule.sip]

theorem sip_printed (rule : Rule) : rule.sip ∈ printed rule := by
  unfold printed
  split <;> simp

theorem dport_printed (rule : Rule) (port : hasPort rule = true) : rule.dport ∈ printed rule := by
  simp [printed, port]

def FromRules (rules : List Rule) (word : Bytes) : Prop :=
  word ∈ ownWords ∨ ∃ rule ∈ rules, ∃ field ∈ printed rule, word ∈ words field

def Traced (rules : List Rule) (text : Bytes) : Prop := isWord text = true ∧ ∃ word, FromRules rules word ∧ text <:+:
    word

theorem source_line_words (sip : Bytes) : (sourceText sip).getLast?.all isSpace = true ∧
    ∀ word ∈ words (sourceText sip), word = ascii "-s" ∨ word ∈ words sip := by
  have tab : ascii "\t" = [9] := rfl
  have done : words [] = [] := rfl
  have mark : words (ascii "-s ") = [ascii "-s"] := by decide
  unfold sourceText
  split
  · refine ⟨tab_closed _, fun word member => ?_⟩
    rw [tab, List.append_assoc, words_append (ascii "-s ") _ (by decide), words_space sip [] 9 (by decide), mark, done,
      List.append_nil] at member
    simpa using member
  · exact ⟨rfl, nofun⟩

theorem port_line_words (proto dport : Bytes) (fixed : ∀ word ∈ words (ascii "-p " ++ proto ++ ascii " --dport "),
    word ∈ ownWords) :
    ∀ word ∈ words (ascii "-p " ++ proto ++ ascii " --dport " ++ dport ++ ascii "\t"), word ∈ ownWords ∨
    word ∈ words dport := by
  intro word member
  have tab : ascii "\t" = [9] := rfl
  have done : words [] = [] := rfl
  have closed : (ascii "-p " ++ proto ++ ascii " --dport ").getLast?.all isSpace = true := by
    have mark : ascii " --dport " = ascii " --dport" ++ [32] := rfl
    rw [mark, ← List.append_assoc, List.getLast?_concat]
    rfl
  rw [tab, words_space _ [] 9 (by decide), done, List.append_nil, words_append _ _ closed] at member
  exact (List.mem_append.mp member).imp_left (fixed word)

theorem proto_line_words (rule : Rule) (named : rule.proto ∈ protocols) :
    ∀ word ∈ words (protoText rule.proto (some rule.dport)), word ∈ ownWords ∨ hasPort rule = true ∧
    word ∈ words rule.dport := by
  obtain ⟨sip, proto, dport⟩ := rule
  rcases proto_cases proto named with rfl | rfl | rfl | rfl
  · intro word member
    exact (port_line_words (ascii "tcp") dport (by decide) word member).imp_right fun inside => ⟨rfl, inside⟩
  · intro word member
    exact (port_line_words (ascii "udp") dport (by decide) word member).imp_right fun inside => ⟨rfl, inside⟩
  · have fixed : ∀ word ∈ words (ascii "-p " ++ ascii "icmp" ++ ascii " --icmp-type echo-request\t"),
      word ∈ ownWords := by decide
    exact fun word member => Or.inl (fixed word member)
  · have fixed : ∀ word ∈ words (ascii "-p " ++ ascii "all" ++ ascii "\t"), word ∈ ownWords := by decide
    exact fun word member => Or.inl (fixed word member)

theorem line_words (rule : Rule) (named : rule.proto ∈ protocols) :
    ∀ word ∈ words (lineOf rule), word ∈ ownWords ∨ ∃ field ∈ printed rule, word ∈ words field := by
  obtain ⟨closed, source⟩ := source_line_words rule.sip
  intro word member
  rw [line_of_words rule closed] at member
  simp only [List.mem_append] at member
  rcases member with head | address | protocol | verdict
  · exact Or.inl ((by decide : ∀ word ∈ words (ascii "-A INPUT \t"), word ∈ ownWords) word head)
  · rcases source word address with rfl | inside
    · exact Or.inl (by decide)
    · exact Or.inr ⟨rule.sip, sip_printed rule, inside⟩
  · rcases proto_line_words rule named word protocol with fixed | ⟨port, inside⟩
    · exact Or.inl fixed
    · exact Or.inr ⟨rule.dport, dport_printed rule port, inside⟩
  · exact Or.inl ((by decide : ∀ word ∈ words (ascii "-j DROP"), word ∈ ownWords) word verdict)

theorem own_traced (rules : List Rule) : ∀ word ∈ ownWords, Traced rules word := by
  intro word member
  exact ⟨(by decide : ∀ word ∈ ownWords, isWord word = true) word member, word, Or.inl member, List.infix_rfl⟩

theorem traced_part (rules : List Rule) (text part word : Bytes) (each : ∀ word ∈ words text, Traced rules word)
    (within : part <:+: text) (member : word ∈ words part) : Traced rules word := by
  obtain ⟨whole, inside, smaller⟩ := words_infix text part word within member
  obtain ⟨_, base, known, longer⟩ := each whole inside
  exact ⟨words_are_words part word member, base, known, smaller.trans longer⟩

theorem rule_text_traced (rules : List Rule) (named : ∀ rule ∈ rules, rule.proto ∈ protocols) :
    ∀ word ∈ words (unlines (rules.map lineOf)), Traced rules word := by
  intro word member
  refine ⟨words_are_words _ word member, word, ?_, List.infix_rfl⟩
  rw [words_unlines] at member
  obtain ⟨line, inside, here⟩ := List.mem_flatMap.mp member
  obtain ⟨rule, known, rfl⟩ := List.mem_map.mp inside
  rcases line_words rule (named rule known) word here with own | ⟨field, printed, found⟩
  · exact Or.inl own
  · exact Or.inr ⟨rule, known, field, printed, found⟩

theorem table_lines (szIF : Bytes) (rules : List Rule) (spaceless : szIF.all (!isSpace ·) = true) :
    lines (unlines (headLines ++ rules.map lineOf ++ tailLines szIF)) =
      headLines ++ (lines (unlines (rules.map lineOf)) ++ tailLines szIF) := by
  have plain := table_lines_plain szIF [] nofun spaceless
  have head := lines_unlines headLines fun line member => plain line (by simp [member])
  have tail := lines_unlines (tailLines szIF) fun line member => plain line (by simp [member])
  rw [List.append_assoc, unlines_append, unlines_append, lines_unlines_append, lines_unlines_append, head, tail]

theorem table_state (szIF : Bytes) (rules : List Rule) (named : ∀ rule ∈ rules, rule.proto ∈ protocols)
    (spaceless : szIF.all (!isSpace ·) = true) :
    ∃ state, StateDrawn (Traced rules) state ∧
      (lines (unlines (headLines ++ rules.map lineOf ++ tailLines szIF))).foldl awkRecord awkBegin =
        { state with filters := state.filters ++ allFilters szIF [] } := by
  have own := own_traced rules
  have begins : StateDrawn (Traced rules) awkBegin := by
    have accept : ∀ word ∈ words (ascii "ACCEPT"), Traced rules word := fun word member =>
      own word ((by decide : ∀ word ∈ words (ascii "ACCEPT"), word ∈ ownWords) word member)
    exact ⟨accept, accept, accept, nofun⟩
  refine ⟨(lines (unlines (rules.map lineOf))).foldl awkRecord awkBegin, ?_, ?_⟩
  · apply awk_records_drawn own (fun word traced => traced.1) _ _ begins
    intro line member word inside
    exact traced_part rules _ line word (rule_text_traced rules named) (lines_part _ line member) inside
  · rw [table_lines szIF rules spaceless, List.foldl_append, records_head, List.foldl_append,
      tail_records _ szIF spaceless]

theorem awk_end_append (state : AwkState) (more : List Bytes) :
    awkEnd { state with filters := state.filters ++ more } = awkEnd state ++ more.map fun text => ascii "RULE  " ++
    text := by
  simp [awkEnd]

theorem status_texts (stale : Nat → Bytes) (files : Files) (szIF : Bytes) (rules : List Rule)
    (named : ∀ rule ∈ rules, rule.proto ∈ protocols) (found : wanInterface files.wan = some szIF)
    (table : files.iptables = unlines (headLines ++ rules.map lineOf ++ tailLines szIF)) (answer : Bool × List Entry)
    (run : netfilterStatus stale files = some answer) :
    ∀ entry ∈ answer.2, ∀ text ∈ entryTexts entry, (Traced rules text ∧ text.length < 64) ∨ ∃ i, text = stale i := by
  obtain ⟨spaceless, short, nul⟩ := wan_interface_spec files.wan szIF found
  obtain ⟨state, drawn, folded⟩ := table_state szIF rules named spaceless
  have tail := status_filter_lines stale (allScans szIF []) (all_scans_fit szIF [] nofun short nul)
  have empty := all_scans_entries szIF []
  obtain ⟨enabled, _, rest⟩ := Option.bind_eq_some_iff.mp run
  obtain ⟨lists, parsed, rfl⟩ := Option.map_eq_some_iff.mp rest
  rw [statusIptables, table, folded, awk_end_append, unlines_append, fgets_unlines_append, List.mapM_append,
    all_filters_scans,
    tail] at parsed
  obtain ⟨front, ruled, more⟩ := Option.bind_eq_some_iff.mp parsed
  obtain rfl : front ++ (allScans szIF []).map (fun scan => entryOf scan.1 scan.2) = lists := Option.some.inj more
  intro entry member text inside
  rw [List.flatten_append, show ((allScans szIF []).map fun scan => entryOf scan.1 scan.2).flatten = [] from empty,
    List.append_nil] at member
  obtain ⟨entries, listed, here⟩ := List.mem_flatten.mp member
  obtain ⟨raw, piece, line⟩ := map_m_mem (statusLine stale) _ front ruled entries listed
  have part : cstr raw <:+: unlines (awkEnd state) :=
    (List.takeWhile_prefix _).isInfix.trans (fgets_part 1024 _ raw piece)
  rcases status_line_texts stale raw entries line entry here text inside with ⟨word, fits⟩ | unread
  · exact Or.inl ⟨traced_part rules _ (cstr raw) text (awk_end_drawn (own_traced rules) state drawn) part word, fits⟩
  · exact Or.inr unread

end Ftm50s.Firewall
