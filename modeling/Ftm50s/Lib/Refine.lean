import Mathlib.Tactic.Common

set_option autoImplicit false

namespace Lib.Refine

variable {σ τ ε : Type}

def run (step : σ → ε → Option σ) (s : σ) (events : List ε) : Option σ := events.foldlM step s

theorem run_cons (step : σ → ε → Option σ) (s : σ) (e : ε) (rest : List ε) :
    run step s (e :: rest) = (step s e).bind fun next => run step next rest := rfl

-- A state that stands for an abstract one goes on doing so through every run
-- whose events are allowed, and no step of the run fails.
theorem run_refines (step : σ → ε → Option σ) (spec : τ → ε → τ) (holds : σ → τ → Prop) (allowed : ε → Prop)
    (one : ∀ s t e, holds s t → allowed e → ∃ next, step s e = some next ∧ holds next (spec t e))
    (s : σ) (t : τ) (events : List ε) (start : holds s t) (all : ∀ e ∈ events, allowed e) :
    ∃ next, run step s events = some next ∧ holds next (events.foldl spec t) := by
  induction events generalizing s t with
  | nil => exact ⟨s, rfl, start⟩
  | cons e rest ih =>
      rw [List.forall_mem_cons] at all
      obtain ⟨middle, stepped, kept⟩ := one s t e start all.1
      obtain ⟨next, ran, last⟩ := ih middle (spec t e) kept all.2
      refine ⟨next, ?_, last⟩
      rw [run_cons, stepped, Option.bind_some, ran]

end Lib.Refine
