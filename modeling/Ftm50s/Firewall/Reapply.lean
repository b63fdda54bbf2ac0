import Ftm50s.Firewall.Words
import Mathlib.Data.Finset.Max

set_option autoImplicit false

namespace Ftm50s.Firewall

open Lib.Text Lib.Decimal Lib.Filter Ftm50s.Cgi

structure Resubmits (req : Request) (rules : List Rule) : Prop where
  sip : ∀ i, getstrf req "sip" i = rules[i]?.map Rule.sip
  proto : ∀ i, getstrf req "proto" i = rules[i]?.map Rule.proto
  dport : ∀ (i : Nat) (rule : Rule), rules[i]? = some rule → hasPort rule = true → getstrf req "dport" i =
  some rule.dport

-- After the set, opening the page and pressing apply posts the same rules and
-- writes the same table, whatever text the stack gives for the policy that the
-- script leaves out.
def Reapplies (files : Files) (req : Request) (rules : List Rule) : Prop :=
  ∃ next, netfilterSet ⟨true, true⟩ files req = some (next, .ok) ∧
    ∀ stale : Nat → Bytes, (∀ i, isXmlText (stale i) = true) →
      ∃ answer page again final, netfilterStatus stale next = some answer ∧ onLoad answer = some page ∧
        applied page = some again ∧ Resubmits again rules ∧
        netfilterSet ⟨true, true⟩ next again = some (final, .ok) ∧ final.iptables = next.iptables

def isCarried (text : Bytes) : Bool := isField 64 text && isXmlText text && isSendable text

def isShown (rule : Rule) : Bool := protocolOptions.contains rule.proto && (printed rule).all isCarried

theorem carried_spec (text : Bytes) (carried : isCarried text = true) :
    isField 64 text = true ∧ isXmlText text = true ∧ isSendable text = true := by
  simpa [isCarried, and_assoc] using carried

theorem shown_carried (rule : Rule) (shown : isShown rule = true) :
    rule.proto ∈ protocolOptions ∧ isCarried rule.sip = true ∧ isCarried rule.proto = true ∧
    isCarried (listedPort rule) = true := by
  rw [isShown, Bool.and_eq_true, List.contains_iff_mem] at shown
  obtain ⟨option, texts⟩ := shown
  have sip := List.all_eq_true.mp texts rule.sip (sip_printed rule)
  have options : ∀ proto ∈ protocolOptions, isCarried proto = true := by decide
  have echo : isCarried (ascii "echo-request") = true := by decide
  refine ⟨option, sip, options rule.proto option, ?_⟩
  obtain ⟨address, proto, port⟩ := rule
  simp only [protocolOptions, List.mem_cons, List.not_mem_nil, or_false] at option
  rcases option with rfl | rfl | rfl
  · exact List.all_eq_true.mp texts port (dport_printed _ rfl)
  · exact List.all_eq_true.mp texts port (dport_printed _ rfl)
  · exact echo

theorem shown_is_rule (rule : Rule) (shown : isShown rule = true) : isRule (listed rule) = true := by
  obtain ⟨option, sip, _, dport⟩ := shown_carried rule shown
  have named : protocols.contains rule.proto = true := by
    simp only [protocolOptions, protocols, List.mem_cons, List.contains_iff_mem] at option ⊢
    tauto
  simp only [isRule, listed, named, (carried_spec _ sip).1, (carried_spec _ dport).1, Bool.and_self]

theorem load_rules_listed (page : Page) (rules : List Rule) (shown : ∀ rule ∈ rules, isShown rule = true) :
    (loadRules page (rules.map listedEntry)).enable = page.enable ∧
      (loadRules page (rules.map listedEntry)).rows.map submitted = page.rows.map submitted ++ rules.map listed := by
  induction rules generalizing page with
  | nil => simp [loadRules]
  | cons rule rest ih =>
      obtain ⟨option, sip, proto, dport⟩ := shown_carried rule (shown rule (by simp))
      have named : ∀ text, isCarried text = true → text ≠ [] := fun text carried =>
        word_nonempty text (field_spec 64 text (carried_spec text carried).1).1
      have given : ¬ (ascii "IN" = [] ∨ rule.sip = [] ∨ rule.proto = [] ∨ listedPort rule = []) := by
        simp only [not_or]
        exact ⟨by decide, named _ sip, named _ proto, named _ dport⟩
      obtain ⟨enable, rows⟩ := ih (addHost page rule.sip rule.proto (listedPort rule)) fun other member =>
        shown other (by simp [member])
      rw [List.map_cons, listedEntry, loadRules, if_neg given, if_pos rfl]
      refine ⟨enable, ?_⟩
      rw [rows]
      simp only [addHost, List.map_append, submitted, selectValue, if_pos option, List.append_assoc, List.map_cons,
        List.map_nil,
        List.cons_append, List.nil_append, listed]

theorem entries_readable (stale : Nat → Bytes) (rules : List Rule) (plain : ∀ i, isXmlText (stale i) = true)
    (shown : ∀ rule ∈ rules, isShown rule = true) :
    ((chainEntries stale ++ rules.map listedEntry).flatMap entryTexts).all isXmlText = true := by
  have chains : (([.table (ascii "filter"), .chain (ascii "INPUT") (ascii "ACCEPT"),
    .chain (ascii "FORWARD") (ascii "ACCEPT")] :
      List Entry).flatMap entryTexts).all isXmlText = true := by decide
  have output : isXmlText (ascii "OUTPUT") = true := by decide
  rw [List.flatMap_append, List.all_append, Bool.and_eq_true]
  constructor
  · have shape : chainEntries stale = [.table (ascii "filter"), .chain (ascii "INPUT") (ascii "ACCEPT"),
        .chain (ascii "FORWARD") (ascii "ACCEPT")] ++ [.chain (ascii "OUTPUT") (stale 2)] := rfl
    rw [shape, List.flatMap_append, List.all_append, chains]
    simp [entryTexts, output, plain 2]
  · rw [List.all_eq_true]
    intro text member
    obtain ⟨entry, inside, own⟩ := List.mem_flatMap.mp member
    obtain ⟨rule, known, rfl⟩ := List.mem_map.mp inside
    obtain ⟨_, sip, proto, dport⟩ := shown_carried rule (shown rule known)
    simp only [listedEntry, entryTexts, List.mem_cons, List.not_mem_nil, or_false] at own
    rcases own with rfl | rfl | rfl | rfl | rfl | rfl | rfl | rfl | rfl
    · decide
    · decide
    · decide
    · exact (carried_spec _ sip).2.1
    · decide
    · exact (carried_spec _ proto).2.1
    · decide
    · exact (carried_spec _ dport).2.1
    · decide

theorem listed_sends (rule : Rule) (shown : isShown rule = true) : Sends (listed rule) := by
  obtain ⟨_, sip, proto, dport⟩ := shown_carried rule shown
  exact ⟨(carried_spec _ sip).2.2, (carried_spec _ proto).2.2, (carried_spec _ dport).2.2⟩

theorem listed_resubmits (req : Request) (rules : List Rule) (lists : Lists req (rules.map listed)) :
    Resubmits req rules := by
  refine ⟨fun i => ?_, fun i => ?_, fun i rule found port => ?_⟩
  · rw [lists.sip i, List.getElem?_map, Option.map_map]
    rfl
  · rw [lists.proto i, List.getElem?_map, Option.map_map]
    rfl
  · rw [lists.dport i, List.getElem?_map, found]
    simp only [hasPort, Bool.or_eq_true, beq_iff_eq] at port
    obtain ⟨sip, proto, dport⟩ := rule
    rcases port with rfl | rfl <;> rfl

theorem entry_listed (rule : Rule) (named : rule.proto ∈ protocols) : listedEntry (listed rule) = listedEntry rule := by
  obtain ⟨sip, proto, dport⟩ := rule
  rcases proto_cases proto named with rfl | rfl | rfl | rfl <;> rfl

theorem shown_reapplies (files : Files) (req : Request) (state szIF : Bytes) (rules : List Rule) (enabled : Bool)
    (given : getstr req "state" = some state) (lists : Lists req rules) (found : wanInterface files.wan = some szIF)
    (read : serviceEnabled (some state) = some enabled) (shown : ∀ rule ∈ rules, isShown rule = true) :
    Reapplies files req rules := by
  have named : ∀ rule ∈ rules, rule.proto ∈ protocols :=
    fun rule inside => rule_named (listed rule) (shown_is_rule rule (shown rule inside))
  have set := set_spec files req state rules given lists
  rw [found] at set
  refine ⟨_, set, fun stale plain => ?_⟩
  have same : writtenFiles files state szIF rules = writtenFiles files state szIF (rules.map listed) := by
    rw [writtenFiles, writtenFiles, lines_listed rules named]
  have valid : ∀ rule ∈ rules.map listed, isRule rule = true := by
    intro rule inside
    obtain ⟨own, known, rfl⟩ := List.mem_map.mp inside
    exact shown_is_rule own (shown own known)
  have entries : (rules.map listed).map listedEntry = rules.map listedEntry := by
    rw [List.map_map]
    exact List.map_congr_left fun rule inside => entry_listed rule (named rule inside)
  have status := status_of_table stale (writtenFiles files state szIF (rules.map listed)) szIF
    (rules.map listed) valid found rfl
  rw [show serviceEnabled (writtenFiles files state szIF (rules.map listed)).service = some enabled from read, ← same,
    entries] at status
  have load : onLoad (enabled, chainEntries stale ++ rules.map listedEntry) =
      some (loadRules ⟨enabled, []⟩ (rules.map listedEntry)) := by
    rw [onLoad, if_pos (entries_readable stale rules plain shown)]
    rfl
  obtain ⟨enable, rows⟩ := load_rules_listed ⟨enabled, []⟩ rules shown
  rw [List.map_nil, List.nil_append] at rows
  have sends : ∀ rule ∈ rules.map listed, Sends rule := by
    intro rule inside
    obtain ⟨own, known, rfl⟩ := List.mem_map.mp inside
    exact listed_sends own (shown own known)
  have posted := applied_clean (loadRules ⟨enabled, []⟩ (rules.map listedEntry)) fun row inside =>
    sends (submitted row) (rows ▸ List.mem_map_of_mem inside)
  rw [rows] at posted
  obtain ⟨stateAgain, listsAgain⟩ := page_entries_lists (loadRules ⟨enabled, []⟩ (rules.map listedEntry)).enable
    (rules.map listed) sends
  have setAgain := set_spec (writtenFiles files state szIF rules) _ _ (rules.map listed) stateAgain listsAgain
  rw [show wanInterface (writtenFiles files state szIF rules).wan = some szIF from found] at setAgain
  refine ⟨_, _, _, _, status, load, posted, listed_resubmits _ rules listsAgain, setAgain, ?_⟩
  simp only [writtenFiles, lines_listed rules named]

theorem arrives_sendable (text value : Bytes) (arrives : Arrives text value) (clean : isSendable text = true) :
    value = text := by
  obtain ⟨decoded, run, rfl⟩ := arrives
  rw [sent_whole text (sendable_absent text clean 35 rfl),
    url_decode_plain text (sendable_absent text clean 43 rfl) (sendable_absent text clean 37 rfl)] at run
  obtain rfl := Option.some.inj run
  exact cstr_plain text (sendable_absent text clean 0 rfl)

theorem arrives_length (text value : Bytes) (arrives : Arrives text value) :
    value.length ≤ text.length ∧ (value.length = text.length → (35 : UInt8) ∉ text ∧ (37 : UInt8) ∉ text ∧
    (43 : UInt8) ∉ value) := by
  obtain ⟨decoded, run, rfl⟩ := arrives
  obtain ⟨short, clean⟩ := url_decode_length _ decoded run
  have front : cstr decoded <+: decoded := List.takeWhile_prefix _
  have cut := front.length_le
  have kept := (sent_front text).length_le
  refine ⟨by omega, fun same => ?_⟩
  have whole : sent text = text := (sent_front text).eq_of_length (by omega)
  obtain ⟨percent, plus⟩ := clean (by omega)
  rw [whole] at percent
  refine ⟨?_, percent, fun member => plus (front.subset member)⟩
  rw [← whole]
  exact sent_clean text

-- A field that came back: from a text of the page, itself a part of a word of
-- the table
def CameBack (fields : List Bytes) (field : Bytes) : Prop :=
  ∃ text word, isWord text = true ∧ text.length < 64 ∧ isXmlText text = true ∧ text <:+: word ∧
    (isCarried word = true ∨ ∃ other ∈ fields, word ∈ words other) ∧ Arrives text field

theorem xml_text_absent (text : Bytes) (plain : isXmlText text = true) (c : UInt8)
    (bad : (32 ≤ c && c ≤ 127 && c != 60 && c != 38) = false) : c ∉ text := by
  rw [isXmlText, Bool.and_eq_true] at plain
  exact all_absent _ text plain.1 c bad

theorem carried_of_sendable (text : Bytes) (word : isWord text = true) (short : text.length < 64)
    (plain : isXmlText text = true) (clean : isSendable text = true) : isCarried text = true := by
  have nul : text.all (· != 0) = true := by
    rw [List.all_eq_true]
    intro c member
    have other : c ≠ 0 := fun zero => sendable_absent text clean 0 rfl (zero ▸ member)
    simpa using other
  simp [isCarried, isField, word, short, nul, plain, clean]

-- The longest field that does not come back by itself would come from another
-- one of its length with a plus sign, and that sign does not come back.
theorem longest_odd (fields : List Bytes) (each : ∀ field ∈ fields, CameBack fields field) (field : Bytes)
    (member : field ∈ fields) (odd : isCarried field = false) (longest : ∀ other ∈ fields, isCarried other = false →
    other.length ≤ field.length) :
    (43 : UInt8) ∉ field ∧ ∃ other ∈ fields, isCarried other = false ∧ other.length = field.length ∧
    (43 : UInt8) ∈ other := by
  obtain ⟨text, word, isAWord, short, plain, within, source, arrives⟩ := each field member
  have unsent : isSendable text = false := by
    by_contra clean
    rw [Bool.not_eq_false] at clean
    have same := arrives_sendable text field arrives clean
    rw [same, carried_of_sendable text isAWord short plain clean] at odd
    cases odd
  have part : ∀ whole, isCarried whole = true → ¬ text <:+: whole := by
    intro whole carried inside
    have clean : isSendable text = true := by
      rw [isSendable, List.all_eq_true]
      intro c here
      exact List.all_eq_true.mp (carried_spec whole carried).2.2 c (inside.subset here)
    rw [clean] at unsent
    cases unsent
  rcases source with carried | ⟨other, known, inside⟩
  · exact absurd within (part word carried)
  · have longer : text <:+: other := within.trans (words_part other word inside)
    have otherOdd : isCarried other = false := by
      by_contra carried
      exact part other (by simpa using carried) longer
    have bound := longest other known otherOdd
    have span := longer.length_le
    obtain ⟨shrinks, keeps⟩ := arrives_length text field arrives
    have same : text = other := longer.eq_of_length (by omega)
    obtain ⟨hash, percent, plus⟩ := keeps (by omega)
    refine ⟨plus, other, known, otherOdd, by omega, ?_⟩
    rw [← same]
    by_contra noPlus
    have clean := sendable_of_absent text (xml_text_absent text plain 38 rfl) hash noPlus percent
      (xml_text_absent text plain 0 rfl)
    rw [clean] at unsent
    cases unsent

theorem all_carried (fields : List Bytes) (each : ∀ field ∈ fields, CameBack fields field) :
    ∀ field ∈ fields, isCarried field = true := by
  by_contra incomplete
  push Not at incomplete
  obtain ⟨start, present, startOdd⟩ := incomplete
  have some_odd : (fields.filter fun field => !isCarried field).toFinset.Nonempty :=
    ⟨start, by simp [present, startOdd]⟩
  obtain ⟨field, found, greatest⟩ := Finset.exists_max_image _ List.length some_odd
  simp only [List.mem_toFinset, List.mem_filter, Bool.not_eq_true', and_imp] at found greatest
  obtain ⟨_, other, known, odd, long, plus⟩ := longest_odd fields each field found.1 found.2 greatest
  have next := longest_odd fields each other known odd fun third inside thirdOdd =>
    long ▸ greatest third inside thirdOdd
  exact next.1 plus

def ShowsEntry (entries : List Entry) (row : Row) : Prop :=
  (row.proto ∈ protocolOptions ∨ row.proto = []) ∧ ∀ text ∈ [row.sip, row.dport], ∃ entry ∈ entries,
    text ∈ entryTexts entry

theorem select_value_cases (options : List Bytes) (value : Bytes) :
    selectValue options value ∈ options ∨ selectValue options value = [] := by
  unfold selectValue
  split
  · rename_i option
    exact Or.inl option
  · exact Or.inr rfl

theorem load_rules_rows (entries : List Entry) (page : Page) :
    ∀ row ∈ (loadRules page entries).rows, row ∈ page.rows ∨ ShowsEntry entries row := by
  have later : ∀ entry (rest : List Entry) row, ShowsEntry rest row → ShowsEntry (entry :: rest) row := by
    intro entry rest row shows
    refine ⟨shows.1, fun text member => ?_⟩
    obtain ⟨other, inside, here⟩ := shows.2 text member
    exact ⟨other, by simp [inside], here⟩
  induction entries generalizing page with
  | nil => exact fun row member => Or.inl member
  | cons entry rest ih =>
      cases entry with
      | table szName => exact fun row member => (ih page row member).imp_right (later _ rest row)
      | chain szName szPolicy => exact fun row member => (ih page row member).imp_right (later _ rest row)
      | rule szPipe szDir szInterface szSIP szDIP szProto szSPort szDPort szPolicy =>
          intro row member
          rw [loadRules] at member
          split at member
          · exact Or.inl member
          · rcases ih _ row member with old | new
            · split at old
              · rcases List.mem_append.mp old with before | added
                · exact Or.inl before
                · rw [List.mem_singleton] at added
                  subst added
                  refine Or.inr ⟨select_value_cases protocolOptions szProto, ?_⟩
                  simp only [List.forall_mem_cons]
                  exact ⟨⟨_, List.mem_cons_self, by simp [entryTexts]⟩, ⟨_, List.mem_cons_self, by simp [entryTexts]⟩,
                    nofun⟩
              · exact Or.inl old
            · exact Or.inr (later _ rest row new)

theorem row_texts (stale : Nat → Bytes) (rules : List Rule) (answer : Bool × List Entry) (page : Page)
    (plain : ∀ i, stale i = ascii "ACCEPT") (texts : ∀ entry ∈ answer.2, ∀ text ∈ entryTexts entry,
    (Traced rules text ∧ text.length < 64) ∨ ∃ i, text = stale i) (load : onLoad answer =
    some page) : ∀ row ∈ page.rows, (row.proto ∈ protocolOptions ∨ row.proto = []) ∧ ∀ text ∈ [row.sip, row.dport],
    Traced rules text ∧ text.length < 64 ∧ isXmlText text = true := by
  rw [onLoad] at load
  split at load
  · rename_i readable
    obtain rfl := Option.some.inj load
    intro row member
    rcases load_rules_rows answer.2 ⟨answer.1, []⟩ row member with absent | ⟨option, shows⟩
    · cases absent
    · refine ⟨option, fun text inside => ?_⟩
      obtain ⟨entry, known, here⟩ := shows text inside
      have xml := List.all_eq_true.mp readable text (List.mem_flatMap.mpr ⟨entry, known, here⟩)
      rcases texts entry known text here with ⟨traced, short⟩ | ⟨i, same⟩
      · exact ⟨traced, short, xml⟩
      · rw [plain i] at same
        rw [same]
        exact ⟨own_traced rules _ (by decide), by decide, by decide⟩
  · cases load

theorem row_came_back (rules : List Rule) (text field : Bytes)
    (shown : Traced rules text ∧ text.length < 64 ∧ isXmlText text = true) (arrives : Arrives text field) :
    CameBack (rules.flatMap printed) field := by
  obtain ⟨⟨isAWord, word, source, within⟩, short, xml⟩ := shown
  refine ⟨text, word, isAWord, short, xml, within, ?_, arrives⟩
  rcases source with own | ⟨rule, inside, other, text, here⟩
  · exact Or.inl ((by decide : ∀ word ∈ ownWords, isCarried word = true) word own)
  · exact Or.inr ⟨other, List.mem_flatMap.mpr ⟨rule, inside, text⟩, here⟩

theorem reapplies_shown (files : Files) (req : Request) (state : Bytes) (rules : List Rule)
    (given : getstr req "state" = some state) (lists : Lists req rules) (named : ∀ rule ∈ rules, rule.proto ∈ protocols)
      (reapplies : Reapplies files req rules) :
    (serviceEnabled (some state)).isSome = true ∧ (wanInterface files.wan).isSome = true ∧ ∀ rule ∈ rules,
    isShown rule = true := by
  obtain ⟨next, written, stable⟩ := reapplies
  rw [set_spec files req state rules given lists] at written
  obtain ⟨szIF, found, same⟩ := Option.map_eq_some_iff.mp written
  obtain ⟨rfl, _⟩ := Prod.mk.inj same
  obtain ⟨answer, page, again, final, status, load, posted, resubmits, _⟩ :=
    stable (fun _ => ascii "ACCEPT") fun _ => by decide
  obtain ⟨enabled, read, _⟩ := Option.bind_eq_some_iff.mp status
  refine ⟨Option.isSome_iff_exists.mpr ⟨enabled, read⟩, Option.isSome_iff_exists.mpr ⟨szIF, found⟩, ?_⟩
  have texts := status_texts _ (writtenFiles files state szIF rules) szIF rules named found rfl answer status
  have rows := row_texts _ rules answer page (fun _ => rfl) texts load
  have option : ∀ row ∈ page.rows, isSendable row.proto = true := by
    intro row member
    rcases (rows row member).1 with inside | empty
    · exact (by decide : ∀ proto ∈ protocolOptions, isSendable proto = true) row.proto inside
    · rw [empty]
      rfl
  have single : ∀ row ∈ page.rows, (38 : UInt8) ∉ row.sip ∧ (38 : UInt8) ∉ row.proto ∧ (38 : UInt8) ∉ row.dport :=
    fun row member =>
    ⟨xml_text_absent _ ((rows row member).2 row.sip (by simp)).2.2 38 rfl, sendable_absent _ (option row member) 38 rfl,
      xml_text_absent _ ((rows row member).2 row.dport (by simp)).2.2 38 rfl⟩
  have values := applied_values page again posted single
  have came : ∀ field ∈ rules.flatMap printed, CameBack (rules.flatMap printed) field := by
    intro field member
    obtain ⟨rule, inside, own⟩ := List.mem_flatMap.mp member
    obtain ⟨i, here⟩ := List.mem_iff_getElem?.mp inside
    have sip : CameBack (rules.flatMap printed) rule.sip := by
      have posted_sip := resubmits.sip i
      rw [here, Option.map_some] at posted_sip
      obtain ⟨row, known, arrives⟩ := (values i rule.sip).1 posted_sip
      exact row_came_back rules row.sip rule.sip ((rows row known).2 row.sip (by simp)) arrives
    unfold printed at own
    split at own
    · rename_i port
      rcases List.mem_cons.mp own with rfl | second
      · exact sip
      · obtain rfl := List.mem_singleton.mp second
        obtain ⟨row, known, arrives⟩ := (values i rule.dport).2.2 (resubmits.dport i rule here port)
        exact row_came_back rules row.dport rule.dport ((rows row known).2 row.dport (by simp)) arrives
    · rw [List.mem_singleton.mp own]
      exact sip
  have carried := all_carried _ came
  intro rule member
  obtain ⟨i, here⟩ := List.mem_iff_getElem?.mp member
  have proto := resubmits.proto i
  rw [here, Option.map_some] at proto
  obtain ⟨row, inside, arrives⟩ := (values i rule.proto).2.1 proto
  have whole := arrives_sendable row.proto rule.proto arrives (option row inside)
  have shown : rule.proto ∈ protocolOptions := by
    rcases (rows row inside).1 with known | empty
    · exact whole ▸ known
    · have absent : [] ∉ protocols := by decide
      exact absurd (named rule member) (by rw [whole, empty]; exact absent)
  rw [isShown, Bool.and_eq_true, List.contains_iff_mem, List.all_eq_true]
  exact ⟨shown, fun field own => carried field (List.mem_flatMap.mpr ⟨rule, member, own⟩)⟩

def AddsRule (page : Page) : Prop := ∀ row ∈ (onAddHost page).rows.drop page.rows.length,
    (submitted row).proto ∈ protocols

theorem never_adds_rule (page : Page) : ¬ AddsRule page := by
  have blank : selectValue protocolOptions (ascii "all") = [] := by decide
  have absent : [] ∉ protocols := by decide
  simp [AddsRule, onAddHost, addHost, submitted, blank, absent]

-- The selector has no entry for all, so such a rule comes back without its
-- protocol, and so does every added row.
theorem reapply_exact (files : Files) (req : Request) (state : Bytes) (rules : List Rule)
    (given : getstr req "state" = some state) (lists : Lists req rules) (named : ∀ rule ∈ rules,
    rule.proto ∈ protocols) :
    (Reapplies files req rules ↔ wordBelow 1024 state = true ∧ files.wan.all (wordBelow 64) = true ∧
        ∀ rule ∈ rules, isShown rule = true) ∧
      ∀ page, ¬ AddsRule page := by
  refine ⟨?_, never_adds_rule⟩
  rw [← wan_interface_some, ← service_enabled_some]
  constructor
  · exact reapplies_shown files req state rules given lists named
  · rintro ⟨stateFits, wanFits, shown⟩
    obtain ⟨enabled, read⟩ := Option.isSome_iff_exists.mp stateFits
    obtain ⟨szIF, found⟩ := Option.isSome_iff_exists.mp wanFits
    exact shown_reapplies files req state szIF rules enabled given lists found read shown

def httpRule : Rule := ⟨ascii "10.0.0.7", ascii "tcp", ascii "80"⟩

theorem reapply_exact_tcp : Reapplies ⟨none, none, []⟩ ⟨setEntry :: pageEntries true [httpRule]⟩ [httpRule] := by
  have clean : ∀ rule ∈ [httpRule], Sends rule := by
    simp only [List.forall_mem_singleton, Sends, httpRule]
    decide
  obtain ⟨given, lists⟩ := page_entries_lists true [httpRule] clean
  have exact_when := (reapply_exact ⟨none, none, []⟩ _ _ [httpRule] given lists (by decide)).1
  exact exact_when.mpr ⟨by decide, by decide, by decide⟩

def allRule : Rule := ⟨ascii "0.0.0.0", ascii "all", ascii "0"⟩

theorem all_rule_not_reapplied :
    getstr ⟨setEntry :: pageEntries true [allRule]⟩ "state" = some (ascii "enabled") ∧
      Lists ⟨setEntry :: pageEntries true [allRule]⟩ [allRule] ∧ allRule.proto ∈ protocols ∧
      ¬ Reapplies ⟨none, none, []⟩ ⟨setEntry :: pageEntries true [allRule]⟩ [allRule] ∧ ¬ AddsRule ⟨true, []⟩ := by
  have clean : ∀ rule ∈ [allRule], Sends rule := by
    simp only [List.forall_mem_singleton, Sends, allRule]
    decide
  obtain ⟨given, lists⟩ := page_entries_lists true [allRule] clean
  refine ⟨given, lists, by decide, fun reapplies => ?_, never_adds_rule _⟩
  have shown := (reapplies_shown _ _ _ [allRule] given lists (by decide) reapplies).2.2 allRule (by simp)
  exact absurd shown (by decide)

end Ftm50s.Firewall
