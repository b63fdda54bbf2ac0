import Mathlib.Data.List.DropRight
import Mathlib.Data.List.Infix
import Mathlib.Data.Nat.Find
import Mathlib.Tactic.Common

set_option autoImplicit false

namespace Lib.Streak

-- A counter of hits in a row that fires, once, when it gets to its limit
variable {α : Type} (hit : α → Bool) (limit : Nat)

-- The number of items read when it fires
def fires (count read : Nat) : List α → Option Nat
  | [] => none
  | item :: rest =>
      if hit item then
        if count + 1 = limit then some (read + 1) else fires (count + 1) (read + 1) rest
      else fires 0 (read + 1) rest

def EndsStreak (items : List α) : Prop := limit ≤ (items.rtakeWhile hit).length

theorem trailing_concat (items : List α) (item : α) :
    ((items ++ [item]).rtakeWhile hit).length = if hit item then (items.rtakeWhile hit).length + 1 else 0 := by
  rw [List.rtakeWhile_concat]
  split
  · rw [List.length_append, List.length_singleton]
  · rfl

theorem run_suffix_trailing (items run : List α) (within : run <:+ items) (hits : ∀ item ∈ run, hit item = true) :
    run <:+ items.rtakeWhile hit := by
  obtain ⟨front, rfl⟩ := within
  have back : ∀ item ∈ run.reverse, hit item = true := fun item member => hits item (List.mem_reverse.mp member)
  rw [List.rtakeWhile, List.reverse_append, List.takeWhile_append_of_pos back, List.reverse_append,
    List.reverse_reverse]
  exact List.suffix_append _ run

theorem ends_streak_iff (items : List α) :
    EndsStreak hit limit items ↔ ∃ run, run <:+ items ∧ run.length = limit ∧ ∀ item ∈ run, hit item = true := by
  constructor
  · intro enough
    have shorter := List.drop_suffix ((items.rtakeWhile hit).length - limit) (items.rtakeWhile hit)
    refine ⟨_, shorter.trans (List.rtakeWhile_suffix hit items), ?_, fun item member => ?_⟩
    · rw [EndsStreak] at enough
      rw [List.length_drop]
      omega
    · exact List.mem_rtakeWhile_imp (shorter.subset member)
  · rintro ⟨run, within, length, hits⟩
    have bound := (run_suffix_trailing hit items run within hits).length_le
    rw [EndsStreak]
    omega

theorem fires_from (seen rest : List α) (count n : Nat) (trailing : (seen.rtakeWhile hit).length = count)
    (below : count < limit) :
    fires hit limit count seen.length rest = some n ↔
      (seen.length < n ∧ n ≤ (seen ++ rest).length) ∧ EndsStreak hit limit ((seen ++ rest).take n) ∧
        ∀ m, seen.length < m → m < n → ¬ EndsStreak hit limit ((seen ++ rest).take m) := by
  induction rest generalizing seen count with
  | nil =>
      constructor
      · exact nofun
      · rintro ⟨⟨after, before⟩, _⟩
        rw [List.append_nil] at before
        omega
  | cons item rest ih =>
      have whole : seen ++ item :: rest = (seen ++ [item]) ++ rest := by simp
      have length : (seen ++ [item]).length = seen.length + 1 := by simp
      have next : (seen ++ item :: rest).take (seen.length + 1) = seen ++ [item] := by
        rw [whole, ← length, List.take_left]
      have ends := trailing_concat hit seen item
      by_cases now : EndsStreak hit limit (seen ++ [item])
      · have full : hit item = true ∧ count + 1 = limit := by
          rw [EndsStreak, ends] at now
          split at now
          · rename_i struck
            exact ⟨struck, by omega⟩
          · omega
        rw [fires, if_pos full.1, if_pos full.2, Option.some_inj]
        constructor
        · rintro rfl
          refine ⟨⟨by omega, by simp⟩, by rwa [next], fun m after before => by omega⟩
        · rintro ⟨⟨after, _⟩, _, earlier⟩
          by_contra other
          exact earlier (seen.length + 1) (by omega) (by omega) (by rwa [next])
      · have rest_fires : fires hit limit count seen.length (item :: rest) =
            fires hit limit ((seen ++ [item]).rtakeWhile hit).length (seen ++ [item]).length rest := by
          rw [EndsStreak, ends] at now
          rw [fires, ends, length]
          split
          · rename_i struck
            rw [if_pos struck] at now
            rw [if_neg (by omega), trailing]
          · rfl
        rw [rest_fires, ih (seen ++ [item]) _ rfl (by rw [EndsStreak] at now; omega), ← whole, length]
        constructor
        · rintro ⟨⟨after, within⟩, streak, earlier⟩
          refine ⟨⟨by omega, within⟩, streak, fun m behind before => ?_⟩
          by_cases here : m = seen.length + 1
          · rwa [here, next]
          · exact earlier m (by omega) before
        · rintro ⟨⟨after, within⟩, streak, earlier⟩
          have further : n ≠ seen.length + 1 := by
            rintro rfl
            rw [next] at streak
            exact now streak
          exact ⟨⟨by omega, within⟩, streak, fun m behind before => earlier m (by omega) before⟩

theorem fires_first (items : List α) (n : Nat) (positive : 0 < limit) :
    fires hit limit 0 0 items = some n ↔
      n ≤ items.length ∧ EndsStreak hit limit (items.take n) ∧ ∀ m < n, ¬ EndsStreak hit limit (items.take m) := by
  have start := fires_from hit limit [] items 0 n (by simp) positive
  have none : ¬ EndsStreak hit limit (items.take 0) := by simp [EndsStreak]; omega
  rw [List.length_nil, List.nil_append] at start
  rw [start]
  constructor
  · rintro ⟨⟨_, before⟩, streak, earlier⟩
    refine ⟨before, streak, fun m less => ?_⟩
    by_cases zero : m = 0
    · rwa [zero]
    · exact earlier m (by omega) less
  · rintro ⟨before, streak, earlier⟩
    have positive : n ≠ 0 := by
      rintro rfl
      exact none streak
    exact ⟨⟨by omega, before⟩, streak, fun m _ less => earlier m less⟩

theorem fires_none (items : List α) (positive : 0 < limit) :
    fires hit limit 0 0 items = none ↔ ∀ n ≤ items.length, ¬ EndsStreak hit limit (items.take n) := by
  constructor
  · intro quiet n within streak
    -- The least of them would fire.
    classical
    have some_streak : ∃ m, EndsStreak hit limit (items.take m) := ⟨n, streak⟩
    have least := (fires_first hit limit items (Nat.find some_streak) positive).mpr
      ⟨(Nat.find_min' some_streak streak).trans within, Nat.find_spec some_streak, fun m less =>
        Nat.find_min some_streak less⟩
    rw [quiet] at least
    cases least
  · intro never
    rw [Option.eq_none_iff_forall_ne_some]
    intro n fired
    obtain ⟨within, streak, _⟩ := (fires_first hit limit items n positive).mp fired
    exact never n within streak

end Lib.Streak
