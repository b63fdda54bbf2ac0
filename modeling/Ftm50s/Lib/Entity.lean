import Mathlib.Data.List.TakeWhile
import Mathlib.Tactic.Common

set_option autoImplicit false

namespace Lib.Entity

variable {α : Type}

-- Text with references that a mark opens. reference says of the text behind the
-- mark how many of its letters belong to the reference, which are skipped, and
-- what it stands for. A mark that opens no reference stands for itself.
def expandFrom [DecidableEq α] (mark : α) (reference : List α → Option (Nat × List α)) : Nat → List α → List α
  | _, [] => []
  | skip + 1, _ :: rest => expandFrom mark reference skip rest
  | 0, c :: rest =>
      if c = mark then
        match reference rest with
        | some (taken, value) => value ++ expandFrom mark reference taken rest
        | none => c :: expandFrom mark reference 0 rest
      else c :: expandFrom mark reference 0 rest

def expand [DecidableEq α] (mark : α) (reference : List α → Option (Nat × List α)) (text : List α) : List α :=
  expandFrom mark reference 0 text

-- Some mark of the text opens a reference.
def opens [DecidableEq α] (mark : α) (reference : List α → Option (Nat × List α)) : List α → Bool
  | [] => false
  | c :: rest => decide (c = mark) && (reference rest).isSome || opens mark reference rest

-- The letters with an image are written as the mark and the image.
def quote (mark : α) (image : α → Option (List α)) (text : List α) : List α :=
  text.flatMap fun c =>
    match image c with
    | some word => mark :: word
    | none => [c]

section Expand

variable [DecidableEq α] {mark : α} {reference : List α → Option (Nat × List α)}

theorem expand_from_drop (skip : Nat) (text : List α) :
    expandFrom mark reference skip text = expand mark reference (text.drop skip) := by
  induction text generalizing skip with
  | nil => cases skip <;> rfl
  | cons c rest ih =>
      cases skip with
      | zero => rfl
      | succ skip => exact ih skip

theorem expand_letter (c : α) (rest : List α) (other : c ≠ mark) :
    expand mark reference (c :: rest) = c :: expand mark reference rest := by
  rw [expand, expandFrom, if_neg other, expand]

theorem expand_reference (rest value : List α) (taken : Nat) (found : reference rest = some (taken, value)) :
    expand mark reference (mark :: rest) = value ++ expand mark reference (rest.drop taken) := by
  rw [expand, expandFrom, if_pos rfl, found, ← expand_from_drop]

theorem expand_mark (rest : List α) (missing : reference rest = none) :
    expand mark reference (mark :: rest) = mark :: expand mark reference rest := by
  rw [expand, expandFrom, if_pos rfl, missing, expand]

theorem expand_letters (text rest : List α) (absent : mark ∉ text) :
    expand mark reference (text ++ rest) = text ++ expand mark reference rest := by
  induction text with
  | nil => rfl
  | cons c text ih =>
      obtain ⟨other, later⟩ : mark ≠ c ∧ mark ∉ text := by simpa using absent
      rw [List.cons_append, expand_letter c _ (Ne.symm other), ih later, List.cons_append]

theorem expand_closed (text : List α) (closed : opens mark reference text = false) :
    expand mark reference text = text := by
  induction text with
  | nil => rfl
  | cons c rest ih =>
      obtain ⟨here, later⟩ : (decide (c = mark) && (reference rest).isSome) = false ∧ opens mark reference rest =
        false := by
        simpa [opens, -Bool.and_eq_false_imp] using closed
      by_cases marked : c = mark
      · subst marked
        have missing : reference rest = none := by simpa using here
        rw [expand_mark rest missing, ih later]
      · rw [expand_letter c rest marked, ih later]

theorem expand_length
    (contracts : ∀ text taken value, reference text = some (taken, value) → taken ≤ text.length ∧ value.length ≤ taken)
    (text : List α) :
    (expand mark reference text).length ≤ text.length ∧
      ((expand mark reference text).length = text.length → opens mark reference text = false) := by
  induction length : text.length using Nat.strong_induction_on generalizing text with
  | _ size ih =>
      cases text with
      | nil => exact ⟨Nat.zero_le _, fun _ => rfl⟩
      | cons c rest =>
          rw [List.length_cons] at length
          obtain ⟨shorter, closed⟩ := ih rest.length (by omega) rest rfl
          by_cases marked : c = mark
          · subst marked
            cases found : reference rest with
            | none =>
                rw [expand_mark rest found, List.length_cons]
                refine ⟨by omega, fun same => ?_⟩
                simp [opens, found, closed (by omega)]
            | some entry =>
                obtain ⟨taken, value⟩ := entry
                obtain ⟨within, short⟩ := contracts rest taken value found
                have dropped : (rest.drop taken).length = rest.length - taken := List.length_drop
                obtain ⟨behind, _⟩ := ih (rest.drop taken).length (by omega) (rest.drop taken) rfl
                rw [expand_reference rest value taken found, List.length_append]
                exact ⟨by omega, fun same => by omega⟩
          · rw [expand_letter c rest marked, List.length_cons]
            refine ⟨by omega, fun same => ?_⟩
            simp [opens, marked, closed (by omega)]

end Expand

section Quote

variable {mark : α} {image : α → Option (List α)}

theorem quote_plain (c : α) (rest : List α) (plain : image c = none) :
    quote mark image (c :: rest) = c :: quote mark image rest := by
  simp [quote, List.flatMap_cons, plain]

theorem quote_image (c : α) (rest word : List α) (quoted : image c = some word) :
    quote mark image (c :: rest) = mark :: (word ++ quote mark image rest) := by
  simp [quote, List.flatMap_cons, quoted]

theorem quote_none (text : List α) (plain : ∀ c ∈ text, image c = none) : quote mark image text = text := by
  induction text with
  | nil => rfl
  | cons c rest ih =>
      rw [quote_plain c rest (plain c (by simp)), ih fun d member => plain d (by simp [member])]

theorem quote_span (text : List α) (taken : Nat) (within : taken ≤ (quote mark image text).length)
    (absent : mark ∉ (quote mark image text).take taken) :
    taken ≤ text.length ∧ (quote mark image text).drop taken = quote mark image (text.drop taken) := by
  induction text generalizing taken with
  | nil =>
      have zero : taken = 0 := by simpa [quote] using within
      rw [zero]
      exact ⟨le_refl _, rfl⟩
  | cons c rest ih =>
      cases taken with
      | zero => exact ⟨Nat.zero_le _, rfl⟩
      | succ taken =>
          cases quoted : image c with
          | some word =>
              rw [quote_image c rest word quoted] at absent
              exact absurd (by simp) absent
          | none =>
              rw [quote_plain c rest quoted] at within absent ⊢
              obtain ⟨_, later⟩ : mark ≠ c ∧ mark ∉ (quote mark image rest).take taken := by simpa using absent
              obtain ⟨bound, shape⟩ := ih taken (by simpa using within) later
              exact ⟨by simpa using bound, by simpa using shape⟩

end Quote

section Misread

-- References take what they stand for from the letters behind the mark, and
-- each image is a reference to some other letter.
variable [DecidableEq α] {mark : α} {reference : List α → Option (Nat × List α)} {image : α → Option (List α)}
    {read : α → α}

variable
  (contracts : ∀ text taken value, reference text = some (taken, value) →
    taken ≤ text.length ∧ value.length ≤ taken ∧ mark ∉ text.take taken)
  (reads : ∀ c word, image c = some word → ∀ rest, reference (word ++ rest) = some (word.length, [read c]))

include contracts in
theorem expand_quote_reference (rest value : List α) (taken : Nat)
    (found : reference (quote mark image rest) = some (taken, value))
    (behind : (expand mark reference (quote mark image (rest.drop taken))).length ≤ (rest.drop taken).length) :
    (expand mark reference (mark :: quote mark image rest)).length ≤ rest.length := by
  obtain ⟨within, short, absent⟩ := contracts _ taken value found
  obtain ⟨bound, shape⟩ := quote_span rest taken within absent
  rw [expand_reference _ _ _ found, shape, List.length_append]
  rw [List.length_drop] at behind
  omega

include contracts reads

theorem expand_quote_length (text : List α) : (expand mark reference (quote mark image text)).length ≤ text.length := by
  induction length : text.length using Nat.strong_induction_on generalizing text with
  | _ size ih =>
      cases text with
      | nil => exact Nat.zero_le _
      | cons c rest =>
          rw [List.length_cons] at length
          have later := ih rest.length (by omega) rest rfl
          cases quoted : image c with
          | some word =>
              rw [quote_image c rest word quoted, expand_reference _ _ _ (reads c word quoted _), List.drop_left,
                List.length_append,
                List.length_singleton]
              omega
          | none =>
              rw [quote_plain c rest quoted]
              by_cases marked : c = mark
              · subst marked
                cases found : reference (quote c image rest) with
                | none =>
                    rw [expand_mark _ found, List.length_cons]
                    omega
                | some entry =>
                    obtain ⟨taken, value⟩ := entry
                    have dropped : (rest.drop taken).length = rest.length - taken := List.length_drop
                    have behind := ih (rest.drop taken).length (by omega) (rest.drop taken) rfl
                    have shorter := expand_quote_reference contracts rest value taken found behind
                    omega
              · rw [expand_letter c _ marked, List.length_cons]
                omega

theorem expand_quote_iff (wrong : ∀ c word, image c = some word → read c ≠ c) (text : List α) :
    expand mark reference (quote mark image text) = text ↔
      (∀ c ∈ text, image c = none) ∧ opens mark reference text = false := by
  constructor
  · intro same
    induction text with
    | nil => exact ⟨by simp, rfl⟩
    | cons c rest ih =>
        cases quoted : image c with
        | some word =>
            rw [quote_image c rest word quoted, expand_reference _ _ _ (reads c word quoted _)] at same
            exact absurd (List.cons.inj same).1 (wrong c word quoted)
        | none =>
            rw [quote_plain c rest quoted] at same
            by_cases marked : c = mark
            · subst marked
              cases found : reference (quote c image rest) with
              | none =>
                  rw [expand_mark _ found] at same
                  obtain ⟨plain, closed⟩ := ih (List.cons.inj same).2
                  rw [quote_none rest plain] at found
                  exact ⟨by simpa [quoted] using plain, by simp [opens, found, closed]⟩
              | some entry =>
                  obtain ⟨taken, value⟩ := entry
                  have behind := expand_quote_length contracts reads (rest.drop taken)
                  have shorter := expand_quote_reference contracts rest value taken found behind
                  rw [same, List.length_cons] at shorter
                  omega
            · rw [expand_letter c _ marked] at same
              obtain ⟨plain, closed⟩ := ih (List.cons.inj same).2
              exact ⟨by simpa [quoted] using plain, by simp [opens, marked, closed]⟩
  · rintro ⟨plain, closed⟩
    rw [quote_none text plain, expand_closed text closed]

end Misread

end Lib.Entity
