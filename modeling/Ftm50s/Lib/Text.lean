import Mathlib.Data.List.DropRight
import Mathlib.Tactic.Common

set_option autoImplicit false

namespace Lib.Text

abbrev Bytes := List UInt8

-- Literals are ASCII, so one character is one byte.
def ascii (text : String) : Bytes := text.toList.map fun c => c.toUInt8

def isSpace (c : UInt8) : Bool := c == 32 || (9 ≤ c && c ≤ 13)

-- A C string ends before the first NUL of the storage that holds it.
def cstr (storage : Bytes) : Bytes := storage.takeWhile (· != 0)

def padTo (width : Nat) (fill : UInt8) (text : Bytes) : Bytes := text ++ List.replicate (width - text.length) fill

-- Left-aligned columns with one blank between them, as printf's %-7s %-15s gives
def columns : List (Nat × Bytes) → Bytes
  | [] => []
  | [(width, text)] => padTo width 32 text
  | (width, text) :: rest => padTo width 32 text ++ 32 :: columns rest

def trim (text : Bytes) : Bytes := (text.dropWhile isSpace).rdropWhile isSpace

def trimmed (text : Bytes) : Bool := text.head?.all (!isSpace ·) && text.getLast?.all (!isSpace ·)

def isWord (text : Bytes) : Bool := !text.isEmpty && text.all (!isSpace ·)

-- A word that an array of the given size can take with its NUL
def isField (size : Nat) (text : Bytes) : Bool := isWord text && decide (text.length < size) && text.all (· != 0)

-- Words are the maximal runs of bytes that are not white space.
def wordsFrom (current : Bytes) : Bytes → List Bytes
  | [] => if current = [] then [] else [current]
  | c :: rest =>
      if isSpace c then
        if current = [] then wordsFrom [] rest else current :: wordsFrom [] rest
      else wordsFrom (current ++ [c]) rest

def words (text : Bytes) : List Bytes := wordsFrom [] text

-- Cutting a stream into records: a record is closed as soon as it is full.
def cutFrom (full : Bytes → Bool) (current : Bytes) : Bytes → List Bytes
  | [] => if current = [] then [] else [current]
  | c :: rest =>
      if full (current ++ [c]) then (current ++ [c]) :: cutFrom full [] rest
      else cutFrom full (current ++ [c]) rest

def lineEnds (record : Bytes) : Bool := record.getLast? == some 10

-- fgets with a buffer of the given size leaves room for the NUL.
def fgets (size : Nat) (stream : Bytes) : List Bytes :=
  cutFrom (fun record => lineEnds record || record.length + 1 == size) [] stream

-- Lines as awk and sed see them: the newline belongs to no line.
def chomp (record : Bytes) : Bytes := if lineEnds record then record.dropLast else record

def lines (stream : Bytes) : List Bytes := (cutFrom lineEnds [] stream).map chomp

def unlines (records : List Bytes) : Bytes := records.flatMap fun record => record ++ [10]

theorem words_from_word (current text rest : Bytes) (plain : text.all (!isSpace ·) = true) :
    wordsFrom current (text ++ rest) = wordsFrom (current ++ text) rest := by
  induction text generalizing current with
  | nil => simp
  | cons c tail ih =>
      obtain ⟨notSpace, tailPlain⟩ : isSpace c = false ∧ tail.all (!isSpace ·) = true := by
        simpa using plain
      simp only [List.cons_append, wordsFrom, notSpace, Bool.false_eq_true, if_false]
      rw [ih (current ++ [c]) tailPlain, List.append_assoc, List.singleton_append]

theorem words_from_space (current before after : Bytes) (c : UInt8) (space : isSpace c = true) :
    wordsFrom current (before ++ c :: after) = wordsFrom current before ++ wordsFrom [] after := by
  induction before generalizing current with
  | nil =>
      by_cases empty : current = []
      · simp [wordsFrom, space, empty]
      · simp [wordsFrom, space, empty]
  | cons d tail ih =>
      by_cases spaceHead : isSpace d = true
      · by_cases empty : current = []
        · simp [wordsFrom, spaceHead, empty, ih]
        · simp [wordsFrom, spaceHead, empty, ih]
      · simp [wordsFrom, spaceHead, ih]

theorem words_space (before after : Bytes) (c : UInt8) (space : isSpace c = true) :
    words (before ++ c :: after) = words before ++ words after :=
  words_from_space [] before after c space

theorem words_space_cons (c : UInt8) (rest : Bytes) (space : isSpace c = true) : words (c :: rest) = words rest := by
  simp [words, wordsFrom, space]

theorem words_word (text : Bytes) (word : isWord text = true) : words text = [text] := by
  obtain ⟨nonempty, plain⟩ : text ≠ [] ∧ text.all (!isSpace ·) = true := by
    simpa [isWord] using word
  have consumed := words_from_word [] text [] plain
  simpa [words, wordsFrom, nonempty] using consumed

theorem word_spaceless (text : Bytes) (word : isWord text = true) (c : UInt8) (space : isSpace c = true) :
    c ∉ text := by
  intro member
  rw [isWord, Bool.and_eq_true] at word
  simpa [space] using List.all_eq_true.mp word.2 c member

theorem word_plain (text : Bytes) (word : isWord text = true) : (10 : UInt8) ∉ text := word_spaceless text word 10 rfl

theorem field_spec (size : Nat) (text : Bytes) (valid : isField size text = true) :
    isWord text = true ∧ text.length < size ∧ (0 : UInt8) ∉ text ∧ (10 : UInt8) ∉ text := by
  simp only [isField, Bool.and_eq_true, decide_eq_true_eq] at valid
  obtain ⟨⟨word, short⟩, plain⟩ := valid
  refine ⟨word, short, ?_, word_plain text word⟩
  intro nul
  simpa using List.all_eq_true.mp plain 0 nul

theorem words_append (before after : Bytes) (closed : before.getLast?.all isSpace = true) :
    words (before ++ after) = words before ++ words after := by
  rcases List.eq_nil_or_concat before with rfl | ⟨front, c, rfl⟩
  · rfl
  · have space : isSpace c = true := by simpa using closed
    simp only [List.concat_eq_append, List.append_assoc, List.singleton_append]
    rw [words_space front after c space, words_space front [] c space]
    simp [words, wordsFrom]

theorem words_word_space (text rest : Bytes) (c : UInt8) (word : isWord text = true) (space : isSpace c = true) :
    words (text ++ c :: rest) = text :: words rest := by
  rw [words_space text rest c space, words_word text word]
  rfl

theorem words_blanks (count : Nat) (rest : Bytes) : words (List.replicate count 32 ++ rest) = words rest := by
  induction count with
  | zero => rfl
  | succ count ih => rw [List.replicate_succ, List.cons_append, words_space_cons 32 _ (by decide), ih]

theorem words_column (width : Nat) (text rest : Bytes) (c : UInt8) (word : isWord text = true)
    (space : isSpace c = true) :
    words (padTo width 32 text ++ c :: rest) = text :: words rest := by
  rw [padTo, List.append_assoc]
  cases width - text.length with
  | zero => exact words_word_space text rest c word space
  | succ count =>
      rw [List.replicate_succ, List.cons_append, words_word_space text _ 32 word (by decide), words_blanks,
        words_space_cons c rest space]

theorem words_columns (fields : List (Nat × Bytes)) (c : UInt8) (rest : Bytes) (space : isSpace c = true)
    (valid : ∀ field ∈ fields, isWord field.2 = true) :
    words (columns fields ++ c :: rest) = fields.map Prod.snd ++ words rest := by
  induction fields with
  | nil => exact words_space_cons c rest space
  | cons field others ih =>
      have own := valid field (by simp)
      have later := ih fun other member => valid other (by simp [member])
      cases others with
      | nil => exact words_column field.1 field.2 rest c own space
      | cons second more =>
          rw [columns, List.append_assoc, List.cons_append, words_column field.1 field.2 _ 32 own (by decide), later]
          · rfl
          · exact nofun

theorem word_nonempty (text : Bytes) (word : isWord text = true) : text ≠ [] := fun empty => by
  rw [empty] at word
  cases word

theorem pad_words (width : Nat) (text : Bytes) (word : isWord text = true) : words (padTo width 32 text) = [text] := by
  have closed := words_column width text [] 32 word (by decide)
  rw [words_space _ _ 32 (by decide)] at closed
  simpa [words, wordsFrom] using closed

theorem words_pad (width : Nat) (text : Bytes) (valid : text = [] ∨ isWord text = true) :
    words (padTo width 32 text) = [text].filter (!·.isEmpty) := by
  cases valid with
  | inl empty =>
      have blank := words_blanks width []
      rw [List.append_nil] at blank
      rw [empty, padTo, List.nil_append]
      exact blank
  | inr word =>
      have filled := word_nonempty text word
      rw [pad_words width text word]
      simp [filled]

theorem words_gaps (fields : List (Nat × Bytes)) (valid : ∀ field ∈ fields, field.2 = [] ∨ isWord field.2 = true) :
    words (columns fields) = (fields.map Prod.snd).filter (!·.isEmpty) := by
  induction fields with
  | nil => rfl
  | cons field others ih =>
      rw [List.forall_mem_cons] at valid
      have own := words_pad field.1 field.2 valid.1
      cases others with
      | nil => exact own
      | cons following more =>
          have shape : columns (field :: following :: more) =
              padTo field.1 32 field.2 ++ 32 :: columns (following :: more) := rfl
          rw [shape, words_space _ _ 32 (by decide), own, ih valid.2, List.map_cons, ← List.filter_append]
          rfl

theorem pad_bytes (width : Nat) (text : Bytes) (c : UInt8) (member : c ∈ padTo width 32 text) : c ∈ text ∨ c = 32 := by
  rcases List.mem_append.mp member with own | blank
  · exact Or.inl own
  · exact Or.inr (List.eq_of_mem_replicate blank)

theorem pad_plain (width : Nat) (value : Bytes) (plain : (10 : UInt8) ∉ value) :
    (10 : UInt8) ∉ padTo width 32 value := by
  intro member
  cases pad_bytes width value 10 member with
  | inl inside => exact plain inside
  | inr blank => exact absurd blank (by decide)

theorem columns_bytes (fields : List (Nat × Bytes)) (c : UInt8) (member : c ∈ columns fields) :
    (∃ field ∈ fields, c ∈ field.2) ∨ c = 32 := by
  induction fields with
  | nil => cases member
  | cons field others ih =>
      have first : c ∈ padTo field.1 32 field.2 → (∃ other ∈ field :: others, c ∈ other.2) ∨ c = 32 := by
        intro inside
        rcases pad_bytes field.1 field.2 c inside with own | blank
        · exact Or.inl ⟨field, by simp, own⟩
        · exact Or.inr blank
      cases others with
      | nil => exact first member
      | cons second more =>
          rcases List.mem_append.mp member with inside | later
          · exact first inside
          · rcases List.mem_cons.mp later with blank | rest
            · exact Or.inr blank
            · rcases ih rest with ⟨other, known, own⟩ | blank
              · exact Or.inl ⟨other, by simp [known], own⟩
              · exact Or.inr blank

theorem columns_length (fields : List (Nat × Bytes)) (limit : Nat)
    (short : ∀ field ∈ fields, field.1 ≤ limit ∧ field.2.length ≤ limit) :
    (columns fields).length ≤ fields.length * (limit + 1) := by
  induction fields with
  | nil => simp [columns]
  | cons field others ih =>
      obtain ⟨width, length⟩ := short field (by simp)
      have later := ih fun other member => short other (by simp [member])
      have own : (padTo field.1 32 field.2).length ≤ limit := by
        rw [padTo, List.length_append, List.length_replicate]
        omega
      rw [List.length_cons, Nat.succ_mul]
      cases others with
      | nil =>
          rw [columns]
          omega
      | cons second more =>
          rw [columns, List.length_append, List.length_cons]
          · omega
          · exact nofun

theorem words_are_words (text word : Bytes) (member : word ∈ words text) : isWord word = true := by
  have general : ∀ current, current.all (!isSpace ·) = true → word ∈ wordsFrom current text → isWord word = true := by
    clear member
    induction text with
    | nil =>
        intro current plain member
        by_cases empty : current = []
        · simp [wordsFrom, empty] at member
        · rw [wordsFrom, if_neg empty, List.mem_singleton] at member
          rw [member, isWord, plain, Bool.and_true]
          simpa using empty
    | cons c rest ih =>
        intro current plain member
        rw [wordsFrom] at member
        by_cases space : isSpace c = true
        · rw [if_pos space] at member
          split at member
          · exact ih [] rfl member
          · rename_i filled
            rcases List.mem_cons.mp member with rfl | later
            · rw [isWord, plain, Bool.and_true]
              simpa using filled
            · exact ih [] rfl later
        · rw [if_neg space] at member
          exact ih (current ++ [c]) (by simp [plain, space]) member
  exact general [] rfl member

theorem words_from_head (current rest : Bytes) (nonempty : current ≠ []) :
    ∃ whole more, wordsFrom current rest = whole :: more ∧ current <+: whole := by
  induction rest generalizing current with
  | nil => exact ⟨current, [], by rw [wordsFrom, if_neg nonempty], List.prefix_refl current⟩
  | cons c rest ih =>
      rw [wordsFrom]
      by_cases space : isSpace c = true
      · exact ⟨current, wordsFrom [] rest, by rw [if_pos space, if_neg nonempty], List.prefix_refl current⟩
      · obtain ⟨whole, more, cut, front⟩ := ih (current ++ [c]) (by simp)
        exact ⟨whole, more, by rw [if_neg space, cut], (List.prefix_append current [c]).trans front⟩

theorem words_from_append (current part back word : Bytes) (member : word ∈ wordsFrom current part) :
    ∃ whole ∈ wordsFrom current (part ++ back), word <+: whole := by
  induction part generalizing current with
  | nil =>
      by_cases empty : current = []
      · simp [wordsFrom, empty] at member
      · rw [wordsFrom, if_neg empty, List.mem_singleton] at member
        obtain ⟨whole, more, cut, within⟩ := words_from_head current back empty
        rw [member, List.nil_append, cut]
        exact ⟨whole, List.mem_cons_self, within⟩
  | cons c rest ih =>
      rw [List.cons_append, wordsFrom]
      rw [wordsFrom] at member
      split at member
      · rename_i space
        rw [if_pos space]
        by_cases empty : current = []
        · rw [if_pos empty] at member ⊢
          exact ih [] member
        · rw [if_neg empty] at member ⊢
          rcases List.mem_cons.mp member with rfl | later
          · exact ⟨word, by simp, List.prefix_rfl⟩
          · obtain ⟨whole, inside, within⟩ := ih [] later
            exact ⟨whole, by simp [inside], within⟩
      · rename_i letter
        rw [if_neg letter]
        exact ih (current ++ [c]) member

theorem words_from_suffix (front current part word : Bytes) (member : word ∈ wordsFrom current part) :
    ∃ whole ∈ wordsFrom (front ++ current) part, word <:+ whole := by
  induction part generalizing current front with
  | nil =>
      by_cases empty : current = []
      · simp [wordsFrom, empty] at member
      · rw [wordsFrom, if_neg empty, List.mem_singleton] at member
        exact ⟨front ++ current, by simp [wordsFrom, empty], by simp [member]⟩
  | cons c rest ih =>
      rw [wordsFrom] at member ⊢
      split at member
      · rename_i space
        rw [if_pos space]
        split at member
        · obtain ⟨whole, inside, within⟩ := ih [] [] member
          refine ⟨whole, ?_, within⟩
          split
          · exact inside
          · exact List.mem_cons_of_mem _ inside
        · rename_i filled
          rw [if_neg (by simp [filled])]
          rcases List.mem_cons.mp member with rfl | later
          · exact ⟨front ++ word, by simp, List.suffix_append front word⟩
          · exact ⟨word, by simp [later], List.suffix_rfl⟩
      · rename_i letter
        rw [if_neg letter, List.append_assoc]
        exact ih front (current ++ [c]) member

theorem words_append_suffix (front part word : Bytes) (member : word ∈ words part) :
    ∃ whole ∈ words (front ++ part), word <:+ whole := by
  have general : ∀ current, ∃ whole ∈ wordsFrom current (front ++ part), word <:+ whole := by
    induction front with
    | nil =>
        intro current
        have longer := words_from_suffix current [] part word member
        rwa [List.append_nil] at longer
    | cons c rest ih =>
        intro current
        rw [List.cons_append, wordsFrom]
        split
        · obtain ⟨whole, inside, within⟩ := ih []
          refine ⟨whole, ?_, within⟩
          split
          · exact inside
          · exact List.mem_cons_of_mem _ inside
        · exact ih (current ++ [c])
  exact general []

theorem words_infix (text part word : Bytes) (within : part <:+: text) (member : word ∈ words part) :
    ∃ whole ∈ words text, word <:+: whole := by
  obtain ⟨front, back, rfl⟩ := within
  obtain ⟨longer, inside, suffix⟩ := words_append_suffix front part word member
  obtain ⟨whole, known, front⟩ := words_from_append [] (front ++ part) back longer inside
  exact ⟨whole, known, suffix.isInfix.trans front.isInfix⟩

theorem words_part (text word : Bytes) (member : word ∈ words text) : word <:+: text := by
  have general : ∀ current, word ∈ wordsFrom current text → word <:+: current ++ text := by
    clear member
    induction text with
    | nil =>
        intro current member
        by_cases empty : current = []
        · simp [wordsFrom, empty] at member
        · rw [wordsFrom, if_neg empty, List.mem_singleton] at member
          simp [member]
    | cons c rest ih =>
        intro current member
        have tail : ∀ part, part <:+: rest → part <:+: current ++ c :: rest := fun part within =>
          (within.trans (List.suffix_cons c rest).isInfix).trans (List.suffix_append current (c :: rest)).isInfix
        rw [wordsFrom] at member
        split at member
        · split at member
          · exact tail word (by simpa using ih [] member)
          · rcases List.mem_cons.mp member with rfl | later
            · exact (List.prefix_append word (c :: rest)).isInfix
            · exact tail word (by simpa using ih [] later)
        · have longer := ih (current ++ [c]) member
          rwa [List.append_assoc, List.singleton_append] at longer
  simpa using general [] member

theorem unlines_append (front back : List Bytes) : unlines (front ++ back) = unlines front ++ unlines back :=
  List.flatMap_append

theorem words_unlines (records : List Bytes) : words (unlines records) = records.flatMap words := by
  induction records with
  | nil => rfl
  | cons record rest ih =>
      have first : unlines (record :: rest) = record ++ 10 :: unlines rest := by simp [unlines]
      rw [first, words_space record _ 10 rfl, ih, List.flatMap_cons]

theorem cut_from_open (full : Bytes → Bool) (current text rest : Bytes)
    (stillOpen : ∀ part, part <+: text → part ≠ [] → full (current ++ part) = false) :
    cutFrom full current (text ++ rest) = cutFrom full (current ++ text) rest := by
  induction text generalizing current with
  | nil => simp
  | cons c tail ih =>
      have headOpen : full (current ++ [c]) = false := stillOpen [c] (by simp) (by simp)
      simp only [List.cons_append, cutFrom, headOpen, Bool.false_eq_true, if_false]
      rw [ih (current ++ [c]), List.append_assoc, List.singleton_append]
      intro part within nonempty
      simpa using stillOpen (c :: part) (by simpa using within) (by simp)

theorem cut_from_record (full : Bytes → Bool) (text rest : Bytes) (c : UInt8)
    (stillOpen : ∀ part, part <+: text → part ≠ [] → full part = false) (closed : full (text ++ [c]) = true) :
    cutFrom full [] (text ++ c :: rest) = (text ++ [c]) :: cutFrom full [] rest := by
  rw [cut_from_open full [] text (c :: rest) (by simpa using stillOpen)]
  simp [cutFrom, closed]

theorem cut_from_flatten (full : Bytes → Bool) (current stream : Bytes) :
    (cutFrom full current stream).flatten = current ++ stream := by
  induction stream generalizing current with
  | nil => by_cases empty : current = [] <;> simp [cutFrom, empty]
  | cons c rest ih =>
      rw [cutFrom]
      split
      · rw [List.flatten_cons, ih [], List.nil_append, List.append_assoc, List.singleton_append]
      · rw [ih (current ++ [c]), List.append_assoc, List.singleton_append]

theorem cut_from_part (full : Bytes → Bool) (stream record : Bytes) (member : record ∈ cutFrom full [] stream) :
    record <:+: stream := by
  have whole := cut_from_flatten full [] stream
  rw [List.nil_append] at whole
  rw [← whole]
  exact List.infix_of_mem_flatten member

theorem fgets_part (size : Nat) (stream record : Bytes) (member : record ∈ fgets size stream) : record <:+: stream :=
  cut_from_part _ stream record member

theorem lines_part (stream line : Bytes) (member : line ∈ lines stream) : line <:+: stream := by
  obtain ⟨record, inside, rfl⟩ := List.mem_map.mp member
  have front : chomp record <+: record := by
    unfold chomp
    split
    · exact List.dropLast_prefix record
    · exact List.prefix_rfl
  exact front.isInfix.trans (cut_from_part lineEnds stream record inside)

theorem prefix_not_line_end (text part : Bytes) (plain : (10 : UInt8) ∉ text) (within : part <+: text) :
    lineEnds part = false := by
  have absent : part.getLast? ≠ some 10 := fun last =>
    plain (within.subset (List.mem_of_getLast? last))
  simpa [lineEnds] using absent

theorem fgets_line (size : Nat) (text rest : Bytes) (plain : (10 : UInt8) ∉ text) (fits : text.length + 1 < size) :
    fgets size (text ++ 10 :: rest) = (text ++ [10]) :: fgets size rest := by
  apply cut_from_record
  · intro part within _
    have short : part.length ≤ text.length := within.length_le
    have room : part.length + 1 ≠ size := by omega
    simp [prefix_not_line_end text part plain within, room]
  · simp [lineEnds]

theorem lines_line (text rest : Bytes) (plain : (10 : UInt8) ∉ text) :
    lines (text ++ 10 :: rest) = text :: lines rest := by
  have record := cut_from_record lineEnds text rest 10
    (fun part within _ => prefix_not_line_end text part plain within) (by simp [lineEnds])
  simp [lines, record, chomp, lineEnds]

theorem lines_unlines (records : List Bytes) (plain : ∀ record ∈ records, (10 : UInt8) ∉ record) :
    lines (unlines records) = records := by
  induction records with
  | nil => rfl
  | cons record tail ih =>
      have tailPlain : ∀ other ∈ tail, (10 : UInt8) ∉ other := fun other member => plain other (by simp [member])
      have first : unlines (record :: tail) = record ++ 10 :: unlines tail := by
        simp [unlines, List.flatMap_cons]
      rw [first, lines_line record _ (plain record (by simp)), ih tailPlain]

theorem fgets_unlines (size : Nat) (records : List Bytes) (plain : ∀ record ∈ records, (10 : UInt8) ∉ record)
    (fits : ∀ record ∈ records, record.length + 1 < size) :
    fgets size (unlines records) = records.map fun record => record ++ [10] := by
  induction records with
  | nil => rfl
  | cons record tail ih =>
      have later := ih (fun other member => plain other (by simp [member])) fun other member =>
        fits other (by simp [member])
      rw [unlines, List.flatMap_cons, List.append_assoc, List.singleton_append,
        fgets_line size record _ (plain record (by simp)) (fits record (by simp)), List.map_cons]
      exact congrArg (List.cons _) later

theorem fgets_short (size : Nat) (stream : Bytes) (short : stream.length + 1 < size) :
    (fgets size stream).map chomp = lines stream := by
  have general : ∀ current, current.length + stream.length + 1 < size →
      cutFrom (fun record => lineEnds record || record.length + 1 == size) current stream =
      cutFrom lineEnds current stream := by
    clear short
    induction stream with
    | nil => exact fun current _ => rfl
    | cons c rest ih =>
        intro current fits
        rw [List.length_cons] at fits
        have room : (current ++ [c]).length + 1 ≠ size := by
          rw [List.length_append, List.length_singleton]
          omega
        simp only [cutFrom, beq_eq_false_iff_ne.mpr room, Bool.or_false]
        rw [ih [] (by rw [List.length_nil]; omega),
          ih (current ++ [c]) (by rw [List.length_append, List.length_singleton]; omega)]
  rw [fgets, lines, general [] (by rw [List.length_nil]; omega)]

theorem cut_from_newline (full : Bytes → Bool) (closes : ∀ record, full (record ++ [10]) = true)
    (current text rest : Bytes) :
    cutFrom full current (text ++ 10 :: rest) = cutFrom full current (text ++ [10]) ++ cutFrom full [] rest := by
  induction text generalizing current with
  | nil => simp [cutFrom, closes current]
  | cons c tail ih =>
      rw [List.cons_append, List.cons_append, cutFrom, cutFrom]
      split
      · rw [ih [], List.cons_append]
      · rw [ih (current ++ [c])]

theorem cut_from_unlines (full : Bytes → Bool) (closes : ∀ record, full (record ++ [10]) = true) (records : List Bytes)
    (rest : Bytes) :
    cutFrom full [] (unlines records ++ rest) = cutFrom full [] (unlines records) ++ cutFrom full [] rest := by
  rcases List.eq_nil_or_concat records with rfl | ⟨front, last, rfl⟩
  · rfl
  · have shape : unlines (front.concat last) = unlines front ++ last ++ [10] := by simp [unlines]
    rw [shape, List.append_assoc, List.singleton_append, cut_from_newline full closes]

theorem fgets_newline (size : Nat) (text rest : Bytes) :
    fgets size (text ++ 10 :: rest) = fgets size (text ++ [10]) ++ fgets size rest :=
  cut_from_newline _ (by simp [lineEnds]) [] text rest

theorem fgets_unlines_append (size : Nat) (records : List Bytes) (rest : Bytes) :
    fgets size (unlines records ++ rest) = fgets size (unlines records) ++ fgets size rest :=
  cut_from_unlines _ (by simp [lineEnds]) records rest

theorem lines_newline (text rest : Bytes) : lines (text ++ 10 :: rest) = lines (text ++ [10]) ++ lines rest := by
  rw [lines, cut_from_newline lineEnds (by simp [lineEnds]) [] text rest, List.map_append]
  rfl

theorem lines_unlines_append (records : List Bytes) (rest : Bytes) :
    lines (unlines records ++ rest) = lines (unlines records) ++ lines rest := by
  rw [lines, cut_from_unlines lineEnds (by simp [lineEnds]) records rest, List.map_append]
  rfl

theorem fgets_newline_last (size : Nat) (stream record : Bytes) (member : record ∈ fgets size stream) :
    (10 : UInt8) ∉ record.dropLast := by
  -- the record under construction never holds a newline
  have general : ∀ current, (10 : UInt8) ∉ current →
      record ∈ cutFrom (fun record => lineEnds record || record.length + 1 == size) current stream →
      (10 : UInt8) ∉ record.dropLast := by
    clear member
    induction stream with
    | nil =>
        intro current plain member
        by_cases empty : current = []
        · simp [cutFrom, empty] at member
        · rw [cutFrom, if_neg empty, List.mem_singleton] at member
          exact fun newline => plain (member ▸ List.dropLast_subset _ newline)
    | cons c rest ih =>
        intro current plain member
        rw [cutFrom] at member
        split at member
        · rcases List.mem_cons.mp member with rfl | later
          · simpa using plain
          · exact ih [] (by simp) later
        · rename_i stillOpen
          apply ih (current ++ [c]) _ member
          intro newline
          rcases List.mem_append.mp newline with old | fresh
          · exact plain old
          · simp [lineEnds, List.mem_singleton.mp fresh] at stillOpen
  exact general [] (by simp) member

theorem infix_newline_last (record part : Bytes) (within : part <:+: record) (single : (10 : UInt8) ∉ record.dropLast) :
    (10 : UInt8) ∉ part.dropLast := by
  obtain ⟨before, after, rfl⟩ := within
  rcases List.eq_nil_or_concat part with rfl | ⟨front, c, rfl⟩
  · simp
  · intro newline
    apply single
    rw [List.concat_eq_append, List.dropLast_concat] at newline
    rw [List.concat_eq_append, List.append_assoc, List.append_assoc, List.dropLast_append_of_ne_nil (by simp),
      List.dropLast_append_of_ne_nil (by simp)]
    simp [newline]

theorem all_absent (test : UInt8 → Bool) (text : Bytes) (each : text.all test = true) (c : UInt8)
    (bad : test c = false) : c ∉ text := by
  intro member
  rw [List.all_eq_true.mp each c member] at bad
  cases bad

theorem cstr_plain (text : Bytes) (plain : (0 : UInt8) ∉ text) : cstr text = text := by
  rw [cstr, List.takeWhile_eq_self_iff]
  intro c member
  have nonzero : c ≠ 0 := fun zero => plain (zero ▸ member)
  simpa using nonzero

theorem cstr_no_nul (storage : Bytes) : (0 : UInt8) ∉ cstr storage := by
  intro member
  simpa using List.mem_takeWhile_imp member

theorem trim_part (text : Bytes) : trim text <:+: text :=
  (List.rdropWhile_prefix isSpace (text.dropWhile isSpace)).isInfix.trans (List.dropWhile_suffix isSpace).isInfix

theorem trim_space_left (c : UInt8) (text : Bytes) (space : isSpace c = true) : trim (c :: text) = trim text := by
  simp [trim, space]

theorem rdrop_space_right (text : Bytes) (c : UInt8) (space : isSpace c = true) :
    (text ++ [c]).rdropWhile isSpace = text.rdropWhile isSpace := by
  rw [List.rdropWhile_concat, if_pos space]

theorem trim_space_right (text : Bytes) (c : UInt8) (space : isSpace c = true) : trim (text ++ [c]) = trim text := by
  by_cases blank : text.dropWhile isSpace = []
  · have all : ∀ d ∈ text, isSpace d = true := List.dropWhile_eq_nil_iff.mp blank
    have allMore : (text ++ [c]).dropWhile isSpace = [] := by
      rw [List.dropWhile_eq_nil_iff]
      intro d member
      rcases List.mem_append.mp member with old | fresh
      · exact all d old
      · rw [List.mem_singleton.mp fresh]
        exact space
    rw [trim, trim, blank, allMore]
  · have kept : (text ++ [c]).dropWhile isSpace = text.dropWhile isSpace ++ [c] := by
      rw [List.dropWhile_append, if_neg (by simpa using blank)]
    rw [trim, trim, kept, rdrop_space_right _ c space]

theorem trimmed_iff (text : Bytes) : trimmed text = true ↔
    (∀ c, text.head? = some c → isSpace c = false) ∧ (∀ c, text.getLast? = some c → isSpace c = false) := by
  simp [trimmed, Option.all_eq_true]

theorem trimmed_trim (text : Bytes) : trimmed (trim text) = true := by
  rw [trimmed_iff]
  constructor
  · intro c head
    have nonempty : trim text ≠ [] := by
      intro empty
      simp [empty] at head
    have sameHead : (text.dropWhile isSpace).head? = some c := by
      obtain ⟨tail, whole⟩ := List.rdropWhile_prefix isSpace (text.dropWhile isSpace)
      change trim text ++ tail = text.dropWhile isSpace at whole
      rw [← whole, List.head?_append_of_ne_nil _ nonempty]
      exact head
    have stop := List.head?_dropWhile_not isSpace text
    rw [sameHead] at stop
    simpa using stop
  · intro c last
    have nonempty : trim text ≠ [] := by
      intro empty
      simp [empty] at last
    have stop : ¬ isSpace ((trim text).getLast nonempty) = true :=
      List.rdropWhile_last_not isSpace (text.dropWhile isSpace) nonempty
    rw [List.getLast?_eq_some_getLast nonempty, Option.some.injEq] at last
    rw [← last]
    simpa using stop

theorem trim_trimmed (text : Bytes) (clean : trimmed text = true) : trim text = text := by
  obtain ⟨head, last⟩ := (trimmed_iff text).mp clean
  have left : text.dropWhile isSpace = text := by
    cases text with
    | nil => rfl
    | cons c rest => simp [head c rfl]
  rw [trim, left, List.rdropWhile_eq_self_iff]
  intro nonempty
  simp [last _ (List.getLast?_eq_some_getLast nonempty)]

theorem trim_fixed_iff (text : Bytes) : trim text = text ↔ trimmed text = true := by
  constructor
  · intro fixed
    rw [← fixed]
    exact trimmed_trim text
  · exact trim_trimmed text

theorem trim_no_newline (record : Bytes) (single : (10 : UInt8) ∉ record.dropLast) : (10 : UInt8) ∉ trim record := by
  rcases List.eq_nil_or_concat record with rfl | ⟨front, c, rfl⟩
  · simp [trim]
  · rw [List.concat_eq_append, List.dropLast_concat] at single
    rw [List.concat_eq_append]
    by_cases space : isSpace c = true
    · rw [trim_space_right front c space]
      exact fun newline => single ((trim_part front).subset newline)
    · intro newline
      rcases List.mem_append.mp ((trim_part (front ++ [c])).subset newline) with old | fresh
      · exact single old
      · rw [← List.mem_singleton.mp fresh] at space
        exact space (by decide)

theorem map_m_some {α β : Type} (f : α → Option β) (g : α → β) (items : List α) (each : ∀ item ∈ items, f item = some
    (g item)) :
    items.mapM f = some (items.map g) := by
  induction items with
  | nil => rfl
  | cons item rest ih =>
      rw [List.mapM_cons, each item (by simp), ih fun other member => each other (by simp [member])]
      rfl

theorem map_m_mem {α β : Type} (f : α → Option β) (items : List α) (results : List β)
    (run : items.mapM f = some results) (result : β) (member : result ∈ results) : ∃ item ∈ items, f item =
    some result := by
  induction items generalizing results with
  | nil =>
      obtain rfl := Option.some.inj run
      cases member
  | cons item rest ih =>
      rw [List.mapM_cons] at run
      obtain ⟨first, here, more⟩ := Option.bind_eq_some_iff.mp run
      obtain ⟨others, later, same⟩ := Option.bind_eq_some_iff.mp more
      obtain rfl := Option.some.inj same
      rcases List.mem_cons.mp member with rfl | inside
      · exact ⟨item, by simp, here⟩
      · obtain ⟨other, known, found⟩ := ih others later inside
        exact ⟨other, by simp [known], found⟩

theorem read_printed {α β : Type} (parse : Bytes → Option β) (print : α → Bytes) (result : α → β) (items : List α)
    (each : ∀ item ∈ items, parse (print item ++ [10]) = some (result item)) :
    ((items.map print).map fun line => line ++ [10]).mapM parse = some (items.map result) := by
  rw [List.map_map, List.mapM_map]
  exact map_m_some _ result items each

end Lib.Text
