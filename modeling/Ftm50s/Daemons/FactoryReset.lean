import Ftm50s.Lib.Streak

set_option autoImplicit false

namespace Ftm50s.Daemons.FactoryReset

open Lib.Streak

-- What cat /dev/factory_reset prints
abbrev Sample := Fin 2

-- [ $? -gt 0 ] after get_value
def pressed (sample : Sample) : Bool := decide (sample.val > 0)

-- Each turn of the loop reads one sample. The result has, for each time init.sh is
-- run, the number of samples read until then.
def loop (pressed_count read : Nat) : List Sample → List Nat
  | [] => []
  | sample :: rest =>
      if pressed sample then
        let pressed_count := pressed_count + 1
        if pressed_count = 5 then [read + 1] else loop pressed_count (read + 1) rest
      else loop 0 (read + 1) rest

def factoryResetDmon (samples : List Sample) : List Nat := loop 0 0 samples

-- Five consecutive pressed samples
def held : List Sample := List.replicate 5 1

theorem loop_fires (pressed_count read : Nat) (samples : List Sample) :
    loop pressed_count read samples = (fires pressed 5 pressed_count read samples).toList := by
  induction samples generalizing pressed_count read with
  | nil => rfl
  | cons sample rest ih =>
      rw [loop, fires]
      split
      · dsimp only
        split
        · rfl
        · exact ih (pressed_count + 1) (read + 1)
      · exact ih 0 (read + 1)

theorem pressed_iff (sample : Sample) : pressed sample = true ↔ sample = 1 := by
  revert sample
  decide

theorem held_suffix (samples : List Sample) : held <:+ samples ↔ EndsStreak pressed 5 samples := by
  rw [ends_streak_iff]
  constructor
  · intro within
    exact ⟨held, within, rfl, fun sample member => (pressed_iff sample).mpr (List.eq_of_mem_replicate member)⟩
  · rintro ⟨run, within, length, hits⟩
    have same : run = held := by
      rw [held, ← length]
      exact List.eq_replicate_of_mem fun sample member => (pressed_iff sample).mp (hits sample member)
    rwa [← same]

theorem held_within (samples : List Sample) : held <:+: samples ↔ ∃ n ≤ samples.length, held <:+ samples.take n := by
  rw [List.infix_iff_suffix_prefix]
  constructor
  · rintro ⟨front, last, within⟩
    refine ⟨front.length, within.length_le, ?_⟩
    rwa [← List.prefix_iff_eq_take.mp within]
  · rintro ⟨n, _, last⟩
    exact ⟨samples.take n, last, List.take_prefix n samples⟩

theorem factory_reset_once (samples : List Sample) :
    (held <:+: samples → ∃ n ≤ samples.length, factoryResetDmon samples = [n] ∧ held <:+ samples.take n ∧
        ∀ m < n, ¬ held <:+ samples.take m) ∧
      (¬ held <:+: samples → factoryResetDmon samples = []) := by
  rw [factoryResetDmon, loop_fires]
  simp only [held_within, held_suffix]
  cases fired : fires pressed 5 0 0 samples with
  | none =>
      have never := (fires_none pressed 5 samples (by decide)).mp fired
      refine ⟨fun window => ?_, fun _ => rfl⟩
      obtain ⟨n, within, streak⟩ := window
      exact absurd streak (never n within)
  | some n =>
      obtain ⟨within, streak, earlier⟩ := (fires_first pressed 5 samples n (by decide)).mp fired
      exact ⟨fun _ => ⟨n, within, rfl, streak, earlier⟩, fun never => absurd ⟨n, within, streak⟩ never⟩

-- A bounce after four presses starts the count again, and a sixth press is not read.
theorem factory_reset_bounce :
    (∃ n ≤ 11, factoryResetDmon [1, 1, 1, 1, 0, 1, 1, 1, 1, 1, 1] = [n] ∧
      held <:+ ([1, 1, 1, 1, 0, 1, 1, 1, 1, 1, 1] : List Sample).take n) ∧
    factoryResetDmon [1, 1, 1, 1, 0, 1, 1, 1, 1] = [] := by
  constructor
  · obtain ⟨n, within, once, window, _⟩ := (factory_reset_once [1, 1, 1, 1, 0, 1, 1, 1, 1, 1, 1]).1 (by decide)
    exact ⟨n, within, once, window⟩
  · exact (factory_reset_once [1, 1, 1, 1, 0, 1, 1, 1, 1]).2 (by decide)

end Ftm50s.Daemons.FactoryReset
