import Ftm50s.Lib.Filter

set_option autoImplicit false

namespace Lib.Scan

open Lib.Text Lib.Filter

-- The text from the first occurrence of the pattern on
def strstr (pattern : Bytes) : Bytes → Option Bytes
  | [] => if pattern = [] then some [] else none
  | c :: rest => if pattern.isPrefixOf (c :: rest) then some (c :: rest) else strstr pattern rest

-- What sscanf's %s leaves behind: blanks are passed over, then a word.
def afterWord (text : Bytes) : Bytes := (text.dropWhile isSpace).dropWhile (!isSpace ·)

-- The text begins with blanks and a word that white space or the end closes.
structure Opens (text gap word : Bytes) : Prop where
  whole : text = gap ++ (word ++ afterWord text)
  blank : gap.all isSpace = true
  isWord : isWord word = true
  closed : (afterWord text).head?.all isSpace = true

theorem words_gap (gap text : Bytes) (blank : gap.all isSpace = true) : words (gap ++ text) = words text := by
  induction gap with
  | nil => rfl
  | cons c rest ih =>
      rw [List.all_cons, Bool.and_eq_true] at blank
      rw [List.cons_append, words_space_cons c _ blank.1, ih blank.2]

theorem words_word_closed (word tail : Bytes) (valid : isWord word = true) (closed : tail.head?.all isSpace = true) :
    words (word ++ tail) = word :: words tail := by
  cases tail with
  | nil => rw [List.append_nil, words_word word valid]; rfl
  | cons c rest =>
      have space : isSpace c = true := by simpa using closed
      rw [words_word_space word rest c valid space, words_space_cons c rest space]

theorem words_open (text word : Bytes) (more : List Bytes) (all : words text = word :: more) :
    Opens text (text.takeWhile isSpace) word ∧ words (afterWord text) = more := by
  have blank : (text.takeWhile isSpace).all isSpace = true := List.all_takeWhile
  have bare : words (text.dropWhile isSpace) = word :: more := by
    rw [← all]
    conv_rhs => rw [← List.takeWhile_append_dropWhile (p := isSpace) (l := text), words_gap _ _ blank]
  have closed : (afterWord text).head?.all isSpace = true := by
    have stop := List.head?_dropWhile_not (!isSpace ·) (text.dropWhile isSpace)
    unfold afterWord
    cases found : ((text.dropWhile isSpace).dropWhile (!isSpace ·)).head? with
    | none => rfl
    | some c =>
        rw [found] at stop
        simpa using stop
  have first : isWord ((text.dropWhile isSpace).takeWhile (!isSpace ·)) = true := by
    rw [isWord, Bool.and_eq_true]
    refine ⟨?_, List.all_takeWhile⟩
    cases start : text.dropWhile isSpace with
    | nil =>
        rw [start] at bare
        cases bare
    | cons c rest =>
        have letter := List.head?_dropWhile_not isSpace text
        rw [start] at letter
        have notSpace : isSpace c = false := by simpa using letter
        simp [notSpace]
  have split : text.dropWhile isSpace = (text.dropWhile isSpace).takeWhile (!isSpace ·) ++ afterWord text :=
    (List.takeWhile_append_dropWhile ..).symm
  have same := bare
  rw [split, words_word_closed _ _ first closed] at same
  obtain ⟨named, later⟩ := List.cons.inj same
  refine ⟨⟨?_, blank, by rw [← named]; exact first, closed⟩, later⟩
  rw [← named, ← split, List.takeWhile_append_dropWhile]

theorem prefix_closed (pattern text tail : Bytes) (plain : pattern.all (!isSpace ·) = true)
    (closed : tail.head?.all isSpace = true) : pattern.isPrefixOf (text ++ tail) = pattern.isPrefixOf text := by
  induction pattern generalizing text with
  | nil => rfl
  | cons d pattern ih =>
      rw [List.all_cons, Bool.and_eq_true] at plain
      cases text with
      | cons c text => rw [List.cons_append, List.isPrefixOf, List.isPrefixOf, ih text plain.2]
      | nil =>
          cases tail with
          | nil => rfl
          | cons c tail =>
              have different : d ≠ c := by
                rintro rfl
                have space : isSpace d = true := by simpa using closed
                simp [space] at plain
              simp [List.isPrefixOf, different]

theorem strstr_gap (pattern gap text : Bytes) (word : isWord pattern = true) (blank : gap.all isSpace = true) :
    strstr pattern (gap ++ text) = strstr pattern text := by
  induction gap with
  | nil => rfl
  | cons c rest ih =>
      rw [List.all_cons, Bool.and_eq_true] at blank
      have miss : pattern.isPrefixOf (c :: (rest ++ text)) = false := by
        obtain ⟨d, tail, rfl⟩ := List.exists_cons_of_ne_nil (word_nonempty pattern word)
        have different : d ≠ c := by
          rintro rfl
          exact word_spaceless _ word d blank.1 List.mem_cons_self
        simp [List.isPrefixOf, different]
      rw [List.cons_append, strstr, miss]
      exact ih blank.2

theorem strstr_word_absent (pattern word tail : Bytes) (valid : isWord pattern = true)
    (closed : tail.head?.all isSpace = true) (absent : occurs pattern word = false) :
    strstr pattern (word ++ tail) = strstr pattern tail := by
  rw [isWord, Bool.and_eq_true] at valid
  induction word with
  | nil => rfl
  | cons c rest ih =>
      rw [occurs, Bool.or_eq_false_iff] at absent
      rw [List.cons_append, strstr, ← List.cons_append, prefix_closed pattern (c :: rest) tail valid.2 closed, absent.1]
      exact ih absent.2

theorem strstr_word_found (pattern word tail : Bytes) (valid : isWord pattern = true)
    (closed : tail.head?.all isSpace = true) (found : occurs pattern word = true) :
    ∃ back, strstr pattern (word ++ tail) = some (pattern ++ (back ++ tail)) := by
  have spaceless := valid
  rw [isWord, Bool.and_eq_true] at spaceless
  induction word with
  | nil =>
      rw [occurs, List.isEmpty_iff] at found
      exact absurd found (word_nonempty pattern valid)
  | cons c rest ih =>
      rw [List.cons_append, strstr, ← List.cons_append, prefix_closed pattern (c :: rest) tail spaceless.2 closed]
      cases here : pattern.isPrefixOf (c :: rest) with
      | true =>
          obtain ⟨back, whole⟩ := List.isPrefixOf_iff_prefix.mp here
          refine ⟨back, ?_⟩
          rw [← whole, List.append_assoc]
          rfl
      | false =>
          rw [occurs, here, Bool.false_or] at found
          obtain ⟨back, later⟩ := ih found
          exact ⟨back, later⟩

theorem strstr_here (pattern tail : Bytes) (nonempty : pattern ≠ []) :
    strstr pattern (pattern ++ tail) = some (pattern ++ tail) := by
  obtain ⟨c, rest, rfl⟩ := List.exists_cons_of_ne_nil nonempty
  rw [List.cons_append, strstr, ← List.cons_append, List.isPrefixOf_iff_prefix.mpr (List.prefix_append _ _)]
  rfl

theorem drop_blanks_keeps (front tail : Bytes) (c : UInt8) (letter : isSpace c = false) :
    (c :: tail).length ≤ ((front ++ c :: tail).dropWhile isSpace).length := by
  induction front with
  | nil =>
      rw [List.nil_append, List.dropWhile_cons_of_neg (by rw [letter]; exact Bool.false_ne_true)]
  | cons d rest ih =>
      rw [List.cons_append]
      by_cases space : isSpace d = true
      · rw [List.dropWhile_cons_of_pos space]
        exact ih
      · rw [List.dropWhile_cons_of_neg space]
        simp only [List.length_cons, List.length_append]
        omega

theorem words_from_length (current part more : Bytes) :
    (wordsFrom current part).length ≤ (wordsFrom current (part ++ more)).length := by
  induction part generalizing current with
  | nil =>
      rw [List.nil_append, wordsFrom]
      by_cases empty : current = []
      · simp [empty]
      · obtain ⟨whole, others, cut, _⟩ := words_from_head current more empty
        rw [if_neg empty, cut]
        simp
  | cons c rest ih =>
      rw [List.cons_append, wordsFrom, wordsFrom]
      by_cases space : isSpace c = true
      · by_cases empty : current = []
        · simpa [space, empty] using ih []
        · simpa [space, empty] using ih []
      · simpa [space] using ih (current ++ [c])

theorem words_length_le (part more : Bytes) : (words part).length ≤ (words (part ++ more)).length :=
  words_from_length [] part more

theorem cut_from_length (full : Bytes → Bool) (limit : Nat) (current stream record : Bytes)
    (closes : ∀ text, text.length = limit → full text = true) (room : current.length < limit)
    (member : record ∈ cutFrom full current stream) : record.length ≤ limit := by
  induction stream generalizing current with
  | nil =>
      rw [cutFrom] at member
      split at member
      · exact absurd member List.not_mem_nil
      · rw [List.mem_singleton.mp member]
        omega
  | cons c rest ih =>
      rw [cutFrom] at member
      have grown : (current ++ [c]).length = current.length + 1 := by simp
      split at member
      · rcases List.mem_cons.mp member with rfl | later
        · omega
        · exact ih [] (by rw [List.length_nil]; omega) later
      · rename_i unended
        have below : (current ++ [c]).length ≠ limit := fun same => unended (closes _ same)
        exact ih (current ++ [c]) (by omega) member

theorem fgets_length (size : Nat) (stream record : Bytes) (room : 1 < size) (member : record ∈ fgets size stream) :
    record.length + 1 ≤ size := by
  have closes : ∀ text : Bytes, text.length = size - 1 → (lineEnds text || text.length + 1 == size) = true := by
    intro text same
    have full : text.length + 1 = size := by omega
    simp [full]
  have bound := cut_from_length _ (size - 1) [] stream record closes (by rw [List.length_nil]; omega) member
  omega

theorem fgets_whole (size : Nat) (stream : Bytes) : (fgets size stream).flatten = stream := cut_from_flatten _ [] stream

-- The lines with their newlines
def rows (stream : Bytes) : List Bytes := cutFrom lineEnds [] stream

theorem cut_from_front (full : Bytes → Bool) (current stream : Bytes) (nonempty : current ≠ []) :
    ∃ row others, cutFrom full current stream = row :: others ∧ current <+: row := by
  induction stream generalizing current with
  | nil => exact ⟨current, [], by rw [cutFrom, if_neg nonempty], List.prefix_refl current⟩
  | cons c rest ih =>
      rw [cutFrom]
      by_cases closed : full (current ++ [c]) = true
      · exact ⟨current ++ [c], cutFrom full [] rest, by rw [if_pos closed], List.prefix_append current [c]⟩
      · obtain ⟨row, others, cut, front⟩ := ih (current ++ [c]) (by simp)
        exact ⟨row, others, by rw [if_neg closed, cut], (List.prefix_append current [c]).trans front⟩

theorem chomp_front (current row : Bytes) (front : current <+: row) (unended : lineEnds current = false) :
    current.length ≤ (chomp row).length := by
  obtain ⟨back, rfl⟩ := front
  rw [chomp]
  cases back with
  | nil =>
      rw [List.append_nil, unended]
      exact Nat.le_refl _
  | cons c rest =>
      split
      · rw [List.length_dropLast, List.length_append, List.length_cons]
        omega
      · rw [List.length_append]
        omega

theorem fgets_rows (size : Nat) (stream : Bytes) (short : ∀ row ∈ rows stream, (chomp row).length + 1 < size) :
    fgets size stream = rows stream := by
  have general : ∀ current, (∀ row ∈ cutFrom lineEnds current stream, (chomp row).length + 1 < size) →
      cutFrom (fun record => lineEnds record || record.length + 1 == size) current stream =
      cutFrom lineEnds current stream := by
    clear short
    induction stream with
    | nil => exact fun current _ => rfl
    | cons c rest ih =>
        intro current short
        rw [cutFrom, cutFrom]
        rw [cutFrom] at short
        cases closed : lineEnds (current ++ [c]) with
        | true =>
            rw [closed] at short
            simp only [if_true, Bool.true_or] at short ⊢
            rw [ih [] fun row member => short row (List.mem_cons_of_mem _ member)]
        | false =>
            rw [closed] at short
            simp only [if_false, Bool.false_or, Bool.false_eq_true] at short ⊢
            obtain ⟨row, others, cut, front⟩ := cut_from_front lineEnds (current ++ [c]) rest (by simp)
            have bound := short row (by rw [cut]; exact List.mem_cons_self)
            have below := chomp_front (current ++ [c]) row front closed
            have room : (current ++ [c]).length + 1 ≠ size := by omega
            rw [beq_eq_false_iff_ne.mpr room, if_neg Bool.false_ne_true, ih (current ++ [c]) short]
  exact general [] short

theorem fgets_first (size : Nat) (part rest : Bytes) (nonempty : part ≠ []) (plain : (10 : UInt8) ∉ part)
    (room : part.length + 1 < size) : ∃ row others, fgets size (part ++ rest) = row :: others ∧ part <+: row := by
  have front := cut_from_open (fun record => lineEnds record || record.length + 1 == size)
    [] part rest fun piece within _ => by
    have short := within.length_le
    have open_piece := prefix_not_line_end part piece plain within
    simp only [List.nil_append, open_piece, Bool.false_or, beq_eq_false_iff_ne]
    omega
  rw [fgets, front]
  exact cut_from_front _ part rest nonempty

theorem words_head (word rest : Bytes) (valid : isWord word = true) :
    ∃ whole more, words (word ++ rest) = whole :: more ∧ word <+: whole := by
  have plain : word.all (!isSpace ·) = true := by
    rw [isWord, Bool.and_eq_true] at valid
    exact valid.2
  rw [words, words_from_word [] word rest plain]
  exact words_from_head word rest (word_nonempty word valid)

theorem map_m_none {α β : Type} (f : α → Option β) (front back : List α) (item : α) (fails : f item = none) :
    (front ++ item :: back).mapM f = none := by
  induction front with
  | nil =>
      rw [List.nil_append, List.mapM_cons, fails]
      rfl
  | cons other front ih =>
      rw [List.cons_append, List.mapM_cons, ih]
      cases f other <;> rfl

theorem map_m_singleton {α β : Type} (f : α → Option β) (items : List α) (result : β)
    (run : items.mapM f = some [result]) :
    ∃ item, items = [item] ∧ f item = some result := by
  cases items with
  | nil => cases run
  | cons first rest =>
      rw [List.mapM_cons] at run
      obtain ⟨head, found, run⟩ := Option.bind_eq_some_iff.mp run
      obtain ⟨tail, later, run⟩ := Option.bind_eq_some_iff.mp run
      obtain ⟨rfl, rfl⟩ := List.cons.inj (Option.some.inj run)
      cases rest with
      | nil => exact ⟨first, rfl, found⟩
      | cons second more =>
          rw [List.mapM_cons] at later
          obtain ⟨other, _, later⟩ := Option.bind_eq_some_iff.mp later
          obtain ⟨tail, _, later⟩ := Option.bind_eq_some_iff.mp later
          cases later

end Lib.Scan
