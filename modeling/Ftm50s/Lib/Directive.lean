import Ftm50s.Lib.Text
import Mathlib.Data.List.Forall2

set_option autoImplicit false

namespace Lib.Directive

open Lib.Text

-- The word a line begins with; none on a blank line
def directive (line : Bytes) : Option Bytes := (words line).head?

def directives (text : Bytes) : List (Option Bytes) := (lines text).map directive

def Alike (left right : Bytes) : Prop := directives (left ++ [10]) = directives (right ++ [10])

theorem fold_last_set {σ α β : Type} (step : σ → α → σ) (field : σ → β) (value : α → Option β)
    (sets : ∀ state record, field (step state record) = (value record).getD (field state)) (records : List α)
      (state : σ) :
    field (records.foldl step state) = (records.filterMap value).getLast?.getD (field state) := by
  induction records generalizing state with
  | nil => rfl
  | cons record rest ih =>
      rw [List.foldl_cons, ih (step state record), sets, List.filterMap_cons]
      cases value record with
      | none => rfl
      | some found =>
          rw [List.getLast?_cons]
          cases (rest.filterMap value).getLast? <;> rfl

theorem directives_append (text rest : Bytes) :
    directives (text ++ 10 :: rest) = directives (text ++ [10]) ++ directives rest := by
  rw [directives, lines_newline, List.map_append]
  rfl

theorem directives_unlines (records : List Bytes) :
    directives (unlines records) = records.flatMap fun record => directives (record ++ [10]) := by
  induction records with
  | nil => rfl
  | cons record rest ih =>
      have first : unlines (record :: rest) = record ++ 10 :: unlines rest := by simp [unlines]
      rw [first, directives_append, ih, List.flatMap_cons]

theorem directives_plain (record : Bytes) (plain : (10 : UInt8) ∉ record) :
    directives (record ++ [10]) = [directive record] := by
  rw [directives, lines_line record [] plain]
  rfl

-- Fixed text that settles the directive of its line: a word and white space behind it
def isMark (text : Bytes) : Bool := text.getLast?.all isSpace && !(words text).isEmpty && !text.contains 10

theorem mark_spec (mark : Bytes) (valid : isMark mark = true) :
    mark.getLast?.all isSpace = true ∧ words mark ≠ [] ∧ (10 : UInt8) ∉ mark := by
  simpa [isMark, and_assoc] using valid

theorem directive_marked (mark rest : Bytes) (valid : isMark mark = true) :
    directive (mark ++ rest) = directive mark := by
  obtain ⟨closed, given, _⟩ := mark_spec mark valid
  rw [directive, directive, words_append mark rest closed]
  exact List.head?_append_of_ne_nil _ given

theorem directive_set_off (line mark rest : Bytes) (valid : isMark mark = true) :
    directive (line ++ 32 :: (mark ++ rest)) = (words line ++ words mark).head? := by
  obtain ⟨closed, given, _⟩ := mark_spec mark valid
  rw [directive, words_space line _ 32 (by decide), words_append mark rest closed, ← List.append_assoc]
  exact List.head?_append_of_ne_nil _ (by simp [given])

theorem alike_refl (record : Bytes) : Alike record record := rfl

theorem alike_plain (left right : Bytes) (leftPlain : (10 : UInt8) ∉ left) (rightPlain : (10 : UInt8) ∉ right)
    (same : directive left = directive right) : Alike left right := by
  rw [Alike, directives_plain left leftPlain, directives_plain right rightPlain, same]

theorem alike_marked (mark left right : Bytes) (valid : isMark mark = true) (leftPlain : (10 : UInt8) ∉ left)
    (rightPlain : (10 : UInt8) ∉ right) : Alike (mark ++ left) (mark ++ right) := by
  obtain ⟨_, _, markPlain⟩ := mark_spec mark valid
  apply alike_plain
  · simp [markPlain, leftPlain]
  · simp [markPlain, rightPlain]
  · rw [directive_marked mark left valid, directive_marked mark right valid]

theorem alike_break (front otherFront left right : Bytes) (fronts : Alike front otherFront) (rest : Alike left right) :
    Alike (front ++ 10 :: left) (otherFront ++ 10 :: right) := by
  simp only [Alike, List.append_assoc, List.cons_append] at fronts rest ⊢
  rw [directives_append front, directives_append otherFront, fronts, rest]

theorem alike_shared (shared left right : Bytes) (last : ∀ line, (10 : UInt8) ∉ line → Alike (line ++ left)
    (line ++ right)) : Alike (shared ++ left) (shared ++ right) := by
  induction size : shared.length using Nat.strongRecOn generalizing shared with
  | ind length ih =>
      by_cases newline : (10 : UInt8) ∈ shared
      · obtain ⟨line, rest, rfl, _⟩ := List.eq_append_cons_of_mem newline
        have shorter : rest.length < length := by
          rw [← size, List.length_append, List.length_cons]
          omega
        rw [List.append_assoc, List.append_assoc, List.cons_append, List.cons_append]
        exact alike_break line line _ _ (alike_refl line) (ih rest.length shorter rest rfl)
      · exact last shared newline

theorem alike_between (mark second front otherFront shared left right : Bytes) (valid : isMark mark = true)
    (secondValid : isMark second = true) (frontPlain : (10 : UInt8) ∉ front) (otherPlain : (10 : UInt8) ∉ otherFront)
    (leftPlain : (10 : UInt8) ∉ left) (rightPlain : (10 : UInt8) ∉ right) :
    Alike (mark ++ (front ++ (shared ++ 32 :: (second ++ left)))) (mark ++
    (otherFront ++ (shared ++ 32 :: (second ++ right)))) := by
  obtain ⟨_, _, secondPlain⟩ := mark_spec second secondValid
  have blank : (10 : UInt8) ≠ 32 := by decide
  by_cases broken : (10 : UInt8) ∈ shared
  · obtain ⟨line, rest, rfl, plain⟩ := List.eq_append_cons_of_mem broken
    have behind : Alike (rest ++ 32 :: (second ++ left)) (rest ++ 32 :: (second ++ right)) := by
      apply alike_shared
      intro last lastPlain
      apply alike_plain
      · simp [lastPlain, blank, secondPlain, leftPlain]
      · simp [lastPlain, blank, secondPlain, rightPlain]
      · rw [directive_set_off last second left secondValid, directive_set_off last second right secondValid]
    have before : Alike (mark ++ (front ++ line)) (mark ++ (otherFront ++ line)) :=
      alike_marked mark _ _ valid (by simp [frontPlain, plain]) (by simp [otherPlain, plain])
    simpa only [List.append_assoc, List.cons_append] using alike_break _ _ _ _ before behind
  · apply alike_marked mark _ _ valid
    · simp [frontPlain, broken, blank, secondPlain, leftPlain]
    · simp [otherPlain, broken, blank, secondPlain, rightPlain]

theorem directives_alike (left right : List Bytes) (same : List.Forall₂ Alike left right) :
    directives (unlines left) = directives (unlines right) := by
  rw [directives_unlines, directives_unlines]
  induction same with
  | nil => rfl
  | cons first rest ih => rw [List.flatMap_cons, List.flatMap_cons, first, ih]

theorem alike_same (records : List Bytes) : List.Forall₂ Alike records records :=
  List.forall₂_same.mpr fun record _ => alike_refl record

end Lib.Directive
