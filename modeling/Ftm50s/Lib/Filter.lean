import Ftm50s.Lib.Text

set_option autoImplicit false

namespace Lib.Filter

open Lib.Text

-- sed's s/pattern/image/g for a fixed, non-empty pattern: matches are taken from
-- the left and do not overlap, so the rest of a match is skipped.
def replaceFrom (pattern image : Bytes) : Nat → Bytes → Bytes
  | _, [] => []
  | skip + 1, _ :: rest => replaceFrom pattern image skip rest
  | 0, c :: rest =>
      if pattern.isPrefixOf (c :: rest) then image ++ replaceFrom pattern image (pattern.length - 1) rest
      else c :: replaceFrom pattern image 0 rest

def occurs (pattern : Bytes) : Bytes → Bool
  | [] => pattern.isEmpty
  | c :: rest => pattern.isPrefixOf (c :: rest) || occurs pattern rest

def replaceAll (pattern image text : Bytes) : Bytes := replaceFrom pattern image 0 text

def deleteAll (bytes : Bytes) (text : Bytes) : Bytes := text.filter fun c => !bytes.contains c

-- awk's split: an empty record has no fields.
def splitFields (separator : UInt8) (record : Bytes) : List Bytes :=
  if record = [] then [] else record.splitOn separator

theorem replace_miss (pattern image : Bytes) (c : UInt8) (rest : Bytes) (miss : pattern.isPrefixOf (c :: rest) =
    false) :
    replaceAll pattern image (c :: rest) = c :: replaceAll pattern image rest := by
  simp [replaceAll, replaceFrom, miss]

theorem replace_pass (first : UInt8) (more image text rest : Bytes) (absent : first ∉ text) :
    replaceAll (first :: more) image (text ++ rest) = text ++ replaceAll (first :: more) image rest := by
  induction text with
  | nil => rfl
  | cons c tail ih =>
      obtain ⟨different, tailAbsent⟩ : first ≠ c ∧ first ∉ tail := by simpa using absent
      have miss : (first :: more).isPrefixOf (c :: (tail ++ rest)) = false := by simp [List.isPrefixOf, different]
      rw [List.cons_append, replace_miss _ image c _ miss, ih tailAbsent, List.cons_append]

theorem replace_absent (first : UInt8) (more image text : Bytes) (absent : first ∉ text) :
    replaceAll (first :: more) image text = text := by
  have passed := replace_pass first more image text [] absent
  simpa [replaceAll, replaceFrom] using passed

theorem delete_absent (bytes text : Bytes) (absent : ∀ c ∈ text, c ∉ bytes) : deleteAll bytes text = text := by
  rw [deleteAll, List.filter_eq_self]
  intro c member
  simpa using absent c member

theorem split_single (separator : UInt8) (record : Bytes) (nonempty : record ≠ []) (absent : separator ∉ record) :
    splitFields separator record = [record] := by
  rw [splitFields, if_neg nonempty]
  exact List.splitOn_eq_singleton absent

theorem occurs_append (pattern front text : Bytes) (found : occurs pattern text = true) :
    occurs pattern (front ++ text) = true := by
  induction front with
  | nil => exact found
  | cons c front ih => rw [List.cons_append, occurs, ih, Bool.or_true]

theorem lines_end (front line back : Bytes) (plain : (10 : UInt8) ∉ line) :
    ∃ part, part ++ line ∈ lines (front ++ (line ++ 10 :: back)) := by
  have general : ∀ current, ∃ part, part ++
    line ∈ (cutFrom lineEnds current (front ++ (line ++ 10 :: back))).map chomp := by
    induction front with
    | nil =>
        intro current
        refine ⟨current, ?_⟩
        have stillOpen : ∀ part, part <+: line → part ≠ [] → lineEnds (current ++ part) = false := by
          intro part within nonempty
          have last := prefix_not_line_end line part plain within
          rwa [lineEnds, List.getLast?_append_of_ne_nil _ nonempty]
        have closed : lineEnds (current ++ line ++ [10]) = true := by simp [lineEnds]
        rw [List.nil_append, cut_from_open lineEnds current line (10 :: back) stillOpen, cutFrom, if_pos closed]
        simp [chomp, lineEnds]
    | cons c front ih =>
        intro current
        rw [List.cons_append, cutFrom]
        by_cases full : lineEnds (current ++ [c]) = true
        · obtain ⟨part, member⟩ := ih []
          rw [if_pos full]
          exact ⟨part, List.mem_cons_of_mem _ member⟩
        · rw [if_neg full]
          exact ih (current ++ [c])
  exact general []

theorem replace_one (c : UInt8) (image text : Bytes) :
    replaceAll [c] image text = text.flatMap fun b => if b = c then image else [b] := by
  induction text with
  | nil => rfl
  | cons b rest ih =>
      have same : replaceAll [c] image (b :: rest) = (if b = c then image else [b]) ++ replaceAll [c] image rest := by
        by_cases hit : b = c
        · simp [replaceAll, replaceFrom, hit]
        · simp [replaceAll, replaceFrom, hit, Ne.symm hit]
      rw [same, ih, List.flatMap_cons]

theorem replace_byte (c d : UInt8) (text : Bytes) :
    replaceAll [c] [d] text = text.map fun b => if b = c then d else b := by
  rw [replace_one, List.map_eq_flatMap]
  congr 1
  funext b
  split <;> rfl

theorem occurs_append_right (pattern text back : Bytes) (found : occurs pattern text = true) :
    occurs pattern (text ++ back) = true := by
  induction text with
  | nil =>
      have empty : pattern = [] := by simpa [occurs] using found
      cases back with
      | nil => exact found
      | cons c rest => simp [occurs, empty]
  | cons c rest ih =>
      rw [occurs, Bool.or_eq_true] at found
      rw [List.cons_append, occurs, Bool.or_eq_true]
      cases found with
      | inl here =>
          rw [List.isPrefixOf_iff_prefix] at here ⊢
          exact Or.inl (here.trans (List.prefix_append (c :: rest) back))
      | inr later => exact Or.inr (ih later)

theorem occurs_absent (first : UInt8) (more text : Bytes) (absent : first ∉ text) :
    occurs (first :: more) text = false := by
  induction text with
  | nil => rfl
  | cons c rest ih =>
      obtain ⟨different, later⟩ : first ≠ c ∧ first ∉ rest := by simpa using absent
      simp [occurs, List.isPrefixOf, different, ih later]

theorem prefix_before (pattern text back : Bytes) (c : UInt8) (absent : c ∉ pattern)
    (found : pattern <+: text ++ c :: back) : pattern <+: text := by
  cases List.prefix_or_prefix_of_prefix found (List.prefix_append text (c :: back)) with
  | inl inside => exact inside
  | inr longer =>
      obtain ⟨more, rfl⟩ := longer
      rw [List.prefix_append_right_inj] at found
      cases more with
      | nil => simp
      | cons d more =>
          rw [List.cons_prefix_cons] at found
          exact absurd (by simp [found.1]) absent

theorem occurs_cut (pattern text back : Bytes) (c : UInt8) (absent : c ∉ pattern) (nonempty : pattern ≠ [])
    (found : occurs pattern (text ++ c :: back) = true) : occurs pattern text = true ∨ occurs pattern back = true := by
  induction text with
  | nil =>
      rw [List.nil_append, occurs, Bool.or_eq_true, List.isPrefixOf_iff_prefix] at found
      cases found with
      | inl here => exact absurd (List.prefix_nil.mp (prefix_before pattern [] back c absent here)) nonempty
      | inr later => exact Or.inr later
  | cons d text ih =>
      rw [List.cons_append, occurs, Bool.or_eq_true, List.isPrefixOf_iff_prefix] at found
      rw [occurs, Bool.or_eq_true, List.isPrefixOf_iff_prefix]
      cases found with
      | inl here => exact Or.inl (Or.inl (prefix_before pattern (d :: text) back c absent here))
      | inr later =>
          cases ih later with
          | inl front => exact Or.inl (Or.inr front)
          | inr after => exact Or.inr after

-- The shell cuts an unquoted variable at blanks, tabs and newlines, and echo
-- puts one blank between the pieces.
def isIfs (c : UInt8) : Bool := c == 32 || c == 9 || c == 10

def ifsWords (text : Bytes) : List Bytes := (text.splitOnP isIfs).filter (!·.isEmpty)

def echoed (text : Bytes) : Bytes := List.intercalate [32] (ifsWords text)

theorem ifs_space (c : UInt8) (ifs : isIfs c = true) : isSpace c = true := by
  simp only [isIfs, Bool.or_eq_true, beq_iff_eq] at ifs
  obtain (rfl | rfl) | rfl := ifs <;> rfl

theorem ifs_cases (prop : Bytes → Prop) (whole : ∀ text, (∀ c ∈ text, isIfs c = false) → prop text)
    (cut : ∀ word c rest, (∀ d ∈ word, isIfs d = false) → isIfs c = true → prop rest → prop (word ++ c :: rest))
    (text : Bytes) : prop text := by
  have general : ∀ word, (∀ d ∈ word, isIfs d = false) → prop (word ++ text) ∧ prop text := by
    induction text with
    | nil => exact fun word plain => ⟨by simpa using whole word plain, whole [] (by simp)⟩
    | cons c rest ih =>
        have step : ∀ word, (∀ d ∈ word, isIfs d = false) → prop (word ++ c :: rest) := by
          intro word plain
          cases ifs : isIfs c with
          | true => exact cut word c rest plain ifs (ih [] (by simp)).2
          | false =>
              have longer := (ih (word ++ [c]) (by simpa [ifs, or_imp, forall_and] using plain)).1
              simpa using longer
        exact fun word plain => ⟨step word plain, step [] (by simp)⟩
  exact (general [] (by simp)).2

theorem ifs_words_whole (text : Bytes) (plain : ∀ c ∈ text, isIfs c = false) :
    ifsWords text = if text = [] then [] else [text] := by
  rw [ifsWords, List.splitOnP_eq_singleton plain]
  cases text with
  | nil => rfl
  | cons c rest => rfl

theorem ifs_words_cut (word rest : Bytes) (c : UInt8) (plain : ∀ d ∈ word, isIfs d = false) (ifs : isIfs c = true) :
    ifsWords (word ++ c :: rest) = (if word = [] then [] else [word]) ++ ifsWords rest := by
  rw [ifsWords, List.splitOnP_append_cons_of_forall_mem plain c ifs]
  cases word with
  | nil => rfl
  | cons d more => rfl

theorem echoed_cut (word rest : Bytes) (c : UInt8) (plain : ∀ d ∈ word, isIfs d = false) (ifs : isIfs c = true) :
    echoed (word ++ c :: rest) = echoed rest ∧ word = [] ∨
      echoed (word ++ c :: rest) = word ∧ echoed rest = [] ∨ echoed (word ++ c :: rest) = word ++ 32 ::
      echoed rest := by
  by_cases empty : word = []
  · refine Or.inl ⟨?_, empty⟩
    rw [echoed, ifs_words_cut word rest c plain ifs, if_pos empty]
    rfl
  · rw [echoed, ifs_words_cut word rest c plain ifs, if_neg empty, echoed]
    cases ifsWords rest with
    | nil => exact Or.inr (Or.inl ⟨by simp, by simp⟩)
    | cons first others => exact Or.inr (Or.inr (by simp [List.intercalate_cons_cons]))

theorem echoed_whole (text : Bytes) (plain : ∀ c ∈ text, isIfs c = false) : echoed text = text := by
  rw [echoed, ifs_words_whole text plain]
  by_cases empty : text = []
  · simp [empty]
  · simp [empty]

theorem echoed_line (text : Bytes) : (10 : UInt8) ∉ echoed text := by
  refine ifs_cases (fun text => (10 : UInt8) ∉ echoed text) ?_ ?_ text
  · intro text plain member
    rw [echoed_whole text plain] at member
    exact absurd (plain 10 member) (by decide)
  · intro word c rest plain ifs ih
    have front : (10 : UInt8) ∉ word := fun member => absurd (plain 10 member) (by decide)
    obtain ⟨shape, _⟩ | ⟨shape, _⟩ | shape := echoed_cut word rest c plain ifs
    · rwa [shape]
    · rwa [shape]
    · simp [shape, front, ih]

theorem words_echoed (image : UInt8 → UInt8) (blanks : ∀ c, isIfs c = true → isSpace (image c) = true) (text : Bytes) :
    words ((echoed text).map image) = words (text.map image) := by
  refine ifs_cases (fun text => words ((echoed text).map image) = words (text.map image)) ?_ ?_ text
  · intro text plain
    rw [echoed_whole text plain]
  · intro word c rest plain ifs same
    have split : words ((word ++ c :: rest).map image) = words (word.map image) ++ words (rest.map image) := by
      rw [List.map_append, List.map_cons, words_space _ _ _ (blanks c ifs)]
    obtain ⟨shape, rfl⟩ | ⟨shape, none⟩ | shape := echoed_cut word rest c plain ifs
    · rw [shape, split, same]
      rfl
    · rw [none] at same
      rw [shape, split, ← same]
      exact (List.append_nil _).symm
    · rw [shape, split, ← same, List.map_append, List.map_cons, words_space _ _ _ (blanks 32 rfl)]

theorem occurs_echoed (pattern text : Bytes) (plain : ∀ c ∈ pattern, isIfs c = false) (nonempty : pattern ≠ [])
    (found : occurs pattern (echoed text) = true) : occurs pattern text = true := by
  refine ifs_cases (fun text => occurs pattern (echoed text) = true → occurs pattern text = true) ?_ ?_ text found
  · intro text whole found
    rwa [echoed_whole text whole] at found
  · intro word c rest wordPlain ifs ih found
    have behind : occurs pattern rest = true → occurs pattern (word ++ c :: rest) = true := by
      intro later
      rw [List.append_cons]
      exact occurs_append pattern (word ++ [c]) rest later
    obtain ⟨shape, _⟩ | ⟨shape, _⟩ | shape := echoed_cut word rest c wordPlain ifs
    · rw [shape] at found
      exact behind (ih found)
    · rw [shape] at found
      exact occurs_append_right pattern word (c :: rest) found
    · rw [shape] at found
      have absent : (32 : UInt8) ∉ pattern := fun member => absurd (plain 32 member) (by decide)
      cases occurs_cut pattern word (echoed rest) 32 absent nonempty found with
      | inl front => exact occurs_append_right pattern word (c :: rest) front
      | inr later => exact behind (ih later)

end Lib.Filter
