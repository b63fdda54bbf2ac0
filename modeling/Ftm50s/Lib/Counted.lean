import Mathlib.Tactic.Common

set_option autoImplicit false

namespace Lib.Counted

variable {κ β : Type}

-- One turn of a loop that counts up: it leaves the loop, or makes some calls and
-- goes on with what it has produced. none is a turn that one of the calls ends.
inductive Turn (κ β : Type) where
  | leave
  | step (calls : List κ) (out : Option β)

structure Made (κ β : Type) where
  index : Nat
  calls : List κ
  out : Option β

-- The turns made from number i on; none when the fuel does not reach the end.
def run (turn : Nat → Turn κ β) : Nat → Nat → Option (List (Made κ β))
  | 0, _ => none
  | fuel + 1, i =>
      match turn i with
      | .leave => some []
      | .step calls none => some [⟨i, calls, none⟩]
      | .step calls (some out) => (run turn fuel (i + 1)).map fun rest => ⟨i, calls, some out⟩ :: rest

def GoesOn : Turn κ β → Prop
  | .step _ (some _) => True
  | _ => False

structure Reached (turn : Nat → Turn κ β) (i j : Nat) : Prop where
  after : i ≤ j
  before : ∀ m, i ≤ m → m < j → GoesOn (turn m)

theorem run_ends (turn : Nat → Turn κ β) (fuel i k : Nat) (after : i ≤ k) (before : k < i + fuel)
    (ends : ¬ GoesOn (turn k)) : ∃ trace, run turn fuel i = some trace := by
  induction fuel generalizing i with
  | zero => omega
  | succ fuel ih =>
      rw [run]
      cases here : turn i with
      | leave => exact ⟨[], rfl⟩
      | step calls out =>
          cases out with
          | none => exact ⟨[⟨i, calls, none⟩], rfl⟩
          | some out =>
              have later : i ≠ k := by
                rintro rfl
                rw [here] at ends
                exact ends trivial
              obtain ⟨rest, ran⟩ := ih (i + 1) (by omega) (by omega)
              exact ⟨⟨i, calls, some out⟩ :: rest, by simp only [ran, Option.map_some]⟩

theorem reached_self (turn : Nat → Turn κ β) (i : Nat) : Reached turn i i :=
  ⟨Nat.le_refl i, fun m after before => by omega⟩

theorem reached_next (turn : Nat → Turn κ β) (i j : Nat) (on : GoesOn (turn i)) (later : Reached turn (i + 1) j) :
    Reached turn i j := by
  refine ⟨by have := later.after; omega, ?_⟩
  intro m after before
  by_cases same : m = i
  · rw [same]
    exact on
  · exact later.before m (by omega) before

theorem reached_later (turn : Nat → Turn κ β) (i j : Nat) (reached : Reached turn i j) (different : j ≠ i) :
    GoesOn (turn i) ∧ Reached turn (i + 1) j := by
  have after := reached.after
  refine ⟨reached.before i (Nat.le_refl i) (by omega), by omega, ?_⟩
  intro m later before
  exact reached.before m (by omega) before

theorem made_here (turn : Nat → Turn κ β) (i : Nat) (calls : List κ) (out : Option β) (here : turn i = .step calls out)
    (made : Made κ β) (same : made.index = i) (stepped : turn made.index = .step made.calls made.out) :
    made = ⟨i, calls, out⟩ := by
  rw [same, here] at stepped
  obtain ⟨sameCalls, sameOut⟩ := Turn.step.inj stepped
  cases made
  simp only at same sameCalls sameOut
  rw [same, ← sameCalls, ← sameOut]

theorem run_mem (turn : Nat → Turn κ β) (fuel i : Nat) (trace : List (Made κ β)) (ran : run turn fuel i = some trace)
    (made : Made κ β) :
    made ∈ trace ↔ Reached turn i made.index ∧ turn made.index = .step made.calls made.out := by
  induction fuel generalizing i trace with
  | zero => cases ran
  | succ fuel ih =>
      rw [run] at ran
      cases here : turn i with
      | leave =>
          rw [here] at ran
          obtain rfl : [] = trace := Option.some.inj ran
          constructor
          · exact fun member => absurd member List.not_mem_nil
          · rintro ⟨reached, stepped⟩
            by_cases same : made.index = i
            · rw [same, here] at stepped
              cases stepped
            · have on := (reached_later turn i made.index reached same).1
              rw [here] at on
              exact on.elim
      | step calls out =>
          rw [here] at ran
          cases out with
          | none =>
              obtain rfl : [⟨i, calls, none⟩] = trace := Option.some.inj ran
              rw [List.mem_singleton]
              constructor
              · rintro rfl
                exact ⟨reached_self turn i, here⟩
              · rintro ⟨reached, stepped⟩
                by_cases same : made.index = i
                · exact made_here turn i calls none here made same stepped
                · have on := (reached_later turn i made.index reached same).1
                  rw [here] at on
                  exact on.elim
          | some out =>
              obtain ⟨rest, later, rfl⟩ := Option.map_eq_some_iff.mp ran
              have on : GoesOn (turn i) := by
                rw [here]
                trivial
              rw [List.mem_cons, ih (i + 1) rest later]
              constructor
              · rintro (rfl | ⟨reached, stepped⟩)
                · exact ⟨reached_self turn i, here⟩
                · exact ⟨reached_next turn i made.index on reached, stepped⟩
              · rintro ⟨reached, stepped⟩
                by_cases same : made.index = i
                · left
                  exact made_here turn i calls (some out) here made same stepped
                · right
                  exact ⟨(reached_later turn i made.index reached same).2, stepped⟩

theorem made_all_iff (turn : Nat → Turn κ β) (good : Nat → Prop) (ongoing : ∀ j, good j → GoesOn (turn j)) :
    (∀ j, Reached turn 0 j → turn j ≠ .leave → good j) ↔ ∀ j, (∀ m, m ≤ j → turn m ≠ .leave) → good j := by
  constructor
  · intro each j present
    induction j using Nat.strongRecOn with
    | _ j ih =>
        apply each j _ (present j (Nat.le_refl j))
        refine ⟨Nat.zero_le j, fun m _ before => ongoing m (ih m before ?_)⟩
        intro n within
        exact present n (by omega)
  · intro each j reached stays
    apply each j
    intro m within left
    by_cases same : m = j
    · rw [same] at left
      exact stays left
    · have on := reached.before m (Nat.zero_le m) (by omega)
      rw [left] at on
      exact on

end Lib.Counted
