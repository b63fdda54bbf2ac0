import Ftm50s.Lib.Text

set_option autoImplicit false

namespace Lib.Printf

open Lib.Text

-- printf of a format with no arguments. Two percent signs print one; every other
-- conversion asks for an argument that is not there, and none stands for that.
def printfFrom : Bool → Bytes → Option Bytes
  | false, [] => some []
  | true, [] => none
  | false, c :: rest => if c = 37 then printfFrom true rest else (printfFrom false rest).map fun shown => c :: shown
  | true, c :: rest => if c = 37 then (printfFrom false rest).map fun shown => 37 :: shown else none

def printf (format : Bytes) : Option Bytes := printfFrom false format

-- What is put out is the text when it is clean, and is shorter than it otherwise.
structure Copies (out : Option Bytes) (text : Bytes) (clean : Prop) : Prop where
  whole : clean → out = some text
  fewer : ∀ shown, out = some shown → shown.length ≤ text.length ∧ (shown.length = text.length → clean)

theorem copies_iff (out : Option Bytes) (text : Bytes) (clean : Prop) (copies : Copies out text clean) :
    out = some text ↔ clean :=
  ⟨fun same => (copies.fewer text same).2 rfl, copies.whole⟩

theorem printf_plain (format : Bytes) (plain : (37 : UInt8) ∉ format) : printf format = some format := by
  induction format with
  | nil => rfl
  | cons c rest ih =>
      rw [List.mem_cons, not_or] at plain
      rw [printf, printfFrom, if_neg (Ne.symm plain.1)]
      rw [printf] at ih
      rw [ih plain.2, Option.map_some]

theorem printf_length (pending : Bool) (format shown : Bytes) (ran : printfFrom pending format = some shown) :
    shown.length ≤ format.length := by
  induction format generalizing pending shown with
  | nil =>
      cases pending with
      | true => cases ran
      | false => rw [← Option.some.inj ran]
  | cons c rest ih =>
      cases pending with
      | true =>
          rw [printfFrom] at ran
          split at ran
          · obtain ⟨tail, later, rfl⟩ := Option.map_eq_some_iff.mp ran
            exact Nat.succ_le_succ (ih false tail later)
          · cases ran
      | false =>
          rw [printfFrom] at ran
          split at ran
          · exact Nat.le_succ_of_le (ih true shown ran)
          · obtain ⟨tail, later, rfl⟩ := Option.map_eq_some_iff.mp ran
            exact Nat.succ_le_succ (ih false tail later)

theorem printf_full (format shown : Bytes) (ran : printf format = some shown) (full : shown.length = format.length) :
    (37 : UInt8) ∉ format := by
  induction format generalizing shown with
  | nil => exact List.not_mem_nil
  | cons c rest ih =>
      rw [printf, printfFrom] at ran
      split at ran
      · have short := printf_length true rest shown ran
        rw [List.length_cons] at full
        omega
      · rename_i other
        obtain ⟨tail, later, rfl⟩ := Option.map_eq_some_iff.mp ran
        rw [List.length_cons, List.length_cons] at full
        rw [List.mem_cons, not_or]
        exact ⟨Ne.symm other, ih tail later (by omega)⟩

theorem printf_copies (buffer : Bytes) :
    Copies (printf (cstr buffer)) buffer ((37 : UInt8) ∉ buffer ∧ (0 : UInt8) ∉ buffer) := by
  have front : (cstr buffer).length ≤ buffer.length := (List.takeWhile_prefix _).length_le
  refine ⟨?_, ?_⟩
  · rintro ⟨plain, noNul⟩
    rw [cstr_plain buffer noNul, printf_plain buffer plain]
  · intro shown ran
    have short := printf_length false (cstr buffer) shown ran
    refine ⟨by omega, ?_⟩
    intro full
    have all : cstr buffer = buffer := (List.takeWhile_prefix _).eq_of_length (by
      change (cstr buffer).length = buffer.length
      omega)
    have plain := printf_full (cstr buffer) shown ran (by rw [all]; exact full)
    have noNul := cstr_no_nul buffer
    rw [all] at plain noNul
    exact ⟨plain, noNul⟩

theorem copies_wrap (out : Option Bytes) (text front back : Bytes) (clean : Prop) (copies : Copies out text clean) :
    Copies (out.map fun shown => front ++ shown ++ back) (front ++ text ++ back) clean := by
  refine ⟨fun holds => by rw [copies.whole holds, Option.map_some], ?_⟩
  intro shown ran
  obtain ⟨inner, found, rfl⟩ := Option.map_eq_some_iff.mp ran
  obtain ⟨short, full⟩ := copies.fewer inner found
  simp only [List.length_append]
  exact ⟨by omega, fun same => full (by omega)⟩

theorem copies_list {α : Type} (items : List α) (out : α → Option Bytes) (text : α → Bytes) (clean : α → Prop)
    (each : ∀ item ∈ items, Copies (out item) (text item) (clean item)) :
    Copies ((items.mapM out).map List.flatten) (items.map text).flatten (∀ item ∈ items, clean item) := by
  induction items with
  | nil =>
      refine ⟨fun _ => rfl, ?_⟩
      intro shown ran
      obtain rfl := Option.some.inj ran
      exact ⟨Nat.le_refl _, fun _ item member => absurd member List.not_mem_nil⟩
  | cons first rest ih =>
      have head := each first List.mem_cons_self
      have tail := ih fun item member => each item (List.mem_cons_of_mem _ member)
      refine ⟨?_, ?_⟩
      · intro holds
        have later := tail.whole fun item member => holds item (List.mem_cons_of_mem _ member)
        obtain ⟨others, ran, flat⟩ := Option.map_eq_some_iff.mp later
        rw [List.mapM_cons, head.whole (holds first List.mem_cons_self), ran]
        exact congrArg (fun text => some (_ ++ text)) flat
      · intro shown ran
        obtain ⟨all, steps, rfl⟩ := Option.map_eq_some_iff.mp ran
        rw [List.mapM_cons] at steps
        obtain ⟨one, found, steps⟩ := Option.bind_eq_some_iff.mp steps
        obtain ⟨others, later, steps⟩ := Option.bind_eq_some_iff.mp steps
        obtain rfl := Option.some.inj steps
        obtain ⟨headShort, headFull⟩ := head.fewer one found
        obtain ⟨tailShort, tailFull⟩ := tail.fewer others.flatten (by rw [later, Option.map_some])
        simp only [List.flatten_cons, List.map_cons, List.length_append]
        refine ⟨by omega, ?_⟩
        intro same item member
        rcases List.mem_cons.mp member with rfl | inside
        · exact headFull (by omega)
        · exact tailFull (by omega) item inside

end Lib.Printf
