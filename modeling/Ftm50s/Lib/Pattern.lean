import Mathlib.Data.List.Forall2
import Mathlib.Tactic.Common

set_option autoImplicit false

namespace Lib.Pattern

-- An anchored pattern: a row of pieces, each a class of letters with the least and
-- the greatest number of them
variable {α : Type}

structure Piece (α : Type) where
  test : α → Bool
  low : Nat
  high : Nat

def letter (test : α → Bool) : Piece α := ⟨test, 1, 1⟩

def Piece.takes (piece : Piece α) (field : List α) : Bool :=
  decide (piece.low ≤ field.length ∧ field.length ≤ piece.high) && field.all piece.test

-- The greatest number comes first, and the next smaller one when the rest fails.
def attempt (piece : Piece α) (next : List α → Option (List (List α))) (text : List α) : Nat → Option (List (List α))
  | 0 => if piece.takes [] then (next text).map ([] :: ·) else none
  | count + 1 =>
      if piece.takes (text.take (count + 1)) ∧ count < text.length then
        match next (text.drop (count + 1)) with
        | some fields => some (text.take (count + 1) :: fields)
        | none => attempt piece next text count
      else attempt piece next text count

-- What each piece has taken of the whole text
def fullMatch : List (Piece α) → List α → Option (List (List α))
  | [], text => if text.isEmpty then some [] else none
  | piece :: rest, text => attempt piece (fullMatch rest) text piece.high

def Fits (pieces : List (Piece α)) (fields : List (List α)) : Prop :=
  List.Forall₂ (fun piece field => piece.takes field = true) pieces fields

theorem takes_iff (piece : Piece α) (field : List α) :
    piece.takes field = true ↔ (piece.low ≤ field.length ∧ field.length ≤ piece.high) ∧ field.all piece.test =
    true := by
  rw [Piece.takes, Bool.and_eq_true, decide_eq_true_iff]

theorem letter_takes [DecidableEq α] (mark : α) (field : List α) :
    (letter (· == mark)).takes field = true ↔ field = [mark] := by
  rw [takes_iff]
  constructor
  · rintro ⟨⟨low, high⟩, all⟩
    obtain ⟨c, rfl⟩ := List.length_eq_one_iff.mp (Nat.le_antisymm high low)
    simpa [letter] using all
  · rintro rfl
    simp [letter]

theorem attempt_sound (piece : Piece α) (next : List α → Option (List (List α))) (text : List α) (count : Nat)
    (fields : List (List α)) (found : attempt piece next text count = some fields) :
    ∃ field rest tail, fields = field :: rest ∧ text = field ++ tail ∧ piece.takes field = true ∧
    next tail = some rest := by
  induction count with
  | zero =>
      rw [attempt] at found
      split at found
      · rename_i taken
        obtain ⟨rest, later, rfl⟩ := Option.map_eq_some_iff.mp found
        exact ⟨[], rest, text, rfl, rfl, taken, later⟩
      · cases found
  | succ count ih =>
      rw [attempt] at found
      split at found
      · rename_i taken
        split at found
        · rename_i rest later
          obtain rfl := Option.some.inj found
          exact ⟨_, rest, _, rfl, (List.take_append_drop _ text).symm, taken.1, later⟩
        · exact ih found
      · exact ih found

theorem attempt_complete (piece : Piece α) (next : List α → Option (List (List α))) (field tail : List α) (count : Nat)
    (taken : piece.takes field = true) (within : field.length ≤ count) (later : (next tail).isSome = true) :
    (attempt piece next (field ++ tail) count).isSome = true := by
  induction count with
  | zero =>
      obtain rfl : field = [] := List.eq_nil_of_length_eq_zero (Nat.le_zero.mp within)
      rw [attempt, if_pos taken, Option.isSome_map]
      exact later
  | succ count ih =>
      rw [attempt]
      by_cases here : field.length = count + 1
      · have whole : (field ++ tail).take (count + 1) = field := by rw [← here, List.take_left]
        have behind : (field ++ tail).drop (count + 1) = tail := by rw [← here, List.drop_left]
        have inside : count < (field ++ tail).length := by rw [List.length_append]; omega
        obtain ⟨fields, given⟩ := Option.isSome_iff_exists.mp later
        rw [whole, behind, if_pos ⟨taken, inside⟩, given]
        rfl
      · have smaller := ih (by omega)
        split
        · split
          · rfl
          · exact smaller
        · exact smaller

theorem full_match_sound (pieces : List (Piece α)) (text : List α) (fields : List (List α))
    (found : fullMatch pieces text = some fields) : Fits pieces fields ∧ text = fields.flatten := by
  induction pieces generalizing text fields with
  | nil =>
      rw [fullMatch] at found
      split at found
      · rename_i empty
        obtain rfl := Option.some.inj found
        exact ⟨List.Forall₂.nil, List.isEmpty_iff.mp empty⟩
      · cases found
  | cons piece rest ih =>
      obtain ⟨field, others, tail, rfl, rfl, taken, later⟩ := attempt_sound piece _ text piece.high fields found
      obtain ⟨fits, flat⟩ := ih tail others later
      exact ⟨List.Forall₂.cons taken fits, by rw [List.flatten_cons, ← flat]⟩

theorem full_match_complete (pieces : List (Piece α)) (fields : List (List α)) (fits : Fits pieces fields) :
    (fullMatch pieces fields.flatten).isSome = true := by
  induction fits with
  | nil => rfl
  | @cons piece field rest others taken _ ih =>
      have bounds := ((takes_iff piece field).mp taken).1.2
      rw [fullMatch, List.flatten_cons]
      exact attempt_complete piece _ field _ piece.high taken bounds ih

theorem full_match_iff (pieces : List (Piece α)) (text : List α) :
    (fullMatch pieces text).isSome = true ↔ ∃ fields, Fits pieces fields ∧ text = fields.flatten := by
  constructor
  · intro found
    obtain ⟨fields, given⟩ := Option.isSome_iff_exists.mp found
    exact ⟨fields, full_match_sound pieces text fields given⟩
  · rintro ⟨fields, fits, rfl⟩
    exact full_match_complete pieces fields fits

theorem separated_inj (mark : α) (front back left right : List α) (without : mark ∉ front) (other : mark ∉ back)
    (same : front ++ mark :: left = back ++ mark :: right) : front = back ∧ left = right := by
  induction front generalizing back with
  | nil =>
      cases back with
      | nil => exact ⟨rfl, (List.cons.inj same).2⟩
      | cons c back => exact absurd (by rw [(List.cons.inj same).1]; simp) other
  | cons c front ih =>
      cases back with
      | nil => exact absurd (by rw [← (List.cons.inj same).1]; simp) without
      | cons d back =>
          obtain ⟨rfl, rest⟩ := List.cons.inj same
          obtain ⟨rfl, tails⟩ := ih back (fun member => without (by simp [member])) (fun member =>
            other (by simp [member])) rest
          exact ⟨rfl, tails⟩

end Lib.Pattern
