import Ftm50s.Ssid.Sessions
import Mathlib.Algebra.Group.Nat.Defs

set_option autoImplicit false

namespace Ftm50s.Ssid

open Lib.Text Lib.SlotTable

-- The clock counts without bound; a call receives its low 32 bits.
def timeT (time : Nat) : Word := BitVec.ofNat 32 time

inductive Call where
  | save (creatable : Bool) (tag : Tag) (time : Nat)
  | delete (tag : Tag)
  | isValid (tag : Tag) (time : Nat)
  | touch (tag : Tag) (time : Nat)

def runCall (shm : Shm) : Call → Shm
  | .save creatable tag time => (saveSSID creatable shm tag (timeT time)).1
  | .delete tag => deleteSSID shm tag
  | .isValid tag time => (isValidSSID shm tag (timeT time)).1
  | .touch tag time => (touchSSID shm tag (timeT time)).1

def runCalls (shm : Shm) (calls : List Call) : Shm := calls.foldl runCall shm

def Reachable (shm : Shm) : Prop := ∃ calls, runCalls none calls = shm

def ShmOk (shm : Shm) : Prop := ∀ pool, shm = some pool → PoolOk pool

def liveDate (shm : Shm) (tag : Tag) : Option Word := shm.bind fun pool => sessions pool tag

def full (shm : Shm) : Bool := shm.any allValid

theorem get_pool_spec (creatable : Bool) (shm : Shm) (pool : Pool) (ok : ShmOk shm)
    (got : getPool creatable shm = some pool) :
    PoolOk pool ∧ (∀ tag, sessions pool tag = liveDate shm tag) ∧ (shm = none → allValid pool = false) ∧
      ∀ old, shm = some old → pool = old := by
  cases shm with
  | none =>
      obtain ⟨_, rfl⟩ : creatable = true ∧ emptyPool = pool := by simpa [getPool] using got
      exact ⟨empty_pool_ok, empty_pool_sessions, fun _ => by decide, nofun⟩
  | some old =>
      have oldOk := ok old rfl
      have same : { old with nValidTime := validTime } = old := by rw [← oldOk.window]
      obtain rfl : old = pool := by simpa [getPool, same] using got
      exact ⟨oldOk, fun _ => rfl, nofun, fun other eq => Option.some.inj eq⟩

theorem save_ssid_spec (creatable : Bool) (shm next : Shm) (tag : Tag) (time : Word) (ok : ShmOk shm)
    (saved : saveSSID creatable shm tag time = (next, 0)) :
    ShmOk next ∧ liveDate next tag = some (time + validTime) ∧
      (∀ other, other ≠ tag → liveDate next other = liveDate shm other ∨ liveDate next other = none) ∧
      (¬ (liveDate shm tag = none ∧ full shm = true) →
        ∀ other, other ≠ tag → liveDate next other = liveDate shm other) := by
  cases got : getPool creatable shm with
  | none => simp [saveSSID, got] at saved
  | some pool =>
      obtain ⟨poolOk, dates, fresh, present⟩ := get_pool_spec creatable shm pool ok got
      obtain rfl : some (savePool pool tag time) = next := by simpa [saveSSID, got] using saved
      obtain ⟨nextOk, own, others, room⟩ := save_pool_spec pool tag time poolOk
      refine ⟨?_, own, ?_, ?_⟩
      · intro saved eq
        rw [← Option.some.inj eq]
        exact nextOk
      · intro other different
        rw [← dates other]
        exact others other different
      · intro vacancy other different
        rw [← dates other]
        apply room _ other different
        rintro ⟨absent, taken⟩
        cases shm with
        | none =>
            rw [fresh rfl] at taken
            cases taken
        | some old =>
            apply vacancy
            obtain rfl := present old rfl
            exact ⟨absent, taken⟩

theorem save_ssid_outcome (creatable : Bool) (shm : Shm) (tag : Tag) (time : Word) :
    (∃ next, saveSSID creatable shm tag time = (next, 0)) ∨ saveSSID creatable shm tag time = (shm, -1) := by
  cases got : getPool creatable shm with
  | none => exact Or.inr (by simp [saveSSID, got])
  | some pool => exact Or.inl ⟨some (savePool pool tag time), by simp [saveSSID, got]⟩

-- Only the creation of the segment can fail, so a failed save had no session to lose.
theorem save_ssid_failed (creatable : Bool) (shm : Shm) (tag : Tag) (time : Word)
    (failed : saveSSID creatable shm tag time = (shm, -1)) : shm = none := by
  cases shm with
  | none => rfl
  | some pool => simp [saveSSID, getPool] at failed

theorem touch_ssid_spec (shm : Shm) (tag : Tag) (time : Word) (ok : ShmOk shm) :
    ShmOk (touchSSID shm tag time).1 ∧
      ∀ other, other ≠ tag → liveDate (touchSSID shm tag time).1 other = liveDate shm other := by
  cases shm with
  | none => exact ⟨nofun, fun _ _ => rfl⟩
  | some pool =>
      have poolOk := ok pool rfl
      cases scan : pool.xBuckets.findIdx? (holds tag) with
      | none =>
          simp only [touchSSID, touchPool, scan]
          exact ⟨ok, fun _ _ => trivial⟩
      | some i =>
          obtain ⟨bucket, read, hit⟩ := scan_hit pool tag i scan
          obtain ⟨nextOk, _, others⟩ := refresh_spec pool tag i time bucket poolOk read hit
          simp only [touchSSID, touchPool, scan]
          refine ⟨?_, others⟩
          intro next eq
          rw [← Option.some.inj eq]
          exact nextOk

theorem delete_ssid_spec (shm : Shm) (tag : Tag) (ok : ShmOk shm) :
    ShmOk (deleteSSID shm tag) ∧ liveDate (deleteSSID shm tag) tag = none ∧
      ∀ other, liveDate (deleteSSID shm tag) other = liveDate shm other ∨ liveDate (deleteSSID shm tag) other =
      none := by
  cases shm with
  | none => exact ⟨nofun, rfl, fun _ => Or.inl rfl⟩
  | some pool =>
      obtain ⟨nextOk, gone, others⟩ := delete_pool_spec pool tag (ok pool rfl)
      refine ⟨?_, gone, others⟩
      intro next eq
      rw [← Option.some.inj eq]
      exact nextOk

theorem is_valid_ssid_verdict (shm : Shm) (tag : Tag) (time : Word) (ok : ShmOk shm) :
    (isValidSSID shm tag time).2 = (liveDate shm tag).any fun expired => inWindow validTime expired time := by
  cases shm with
  | none => rfl
  | some pool => exact is_valid_verdict pool tag time (ok pool rfl)

theorem is_valid_ssid_spec (shm : Shm) (tag : Tag) (time : Word) (ok : ShmOk shm) :
    ShmOk (isValidSSID shm tag time).1 ∧
      ((isValidSSID shm tag time).2 = true → (isValidSSID shm tag time).1 = shm) ∧
      ∀ other, liveDate (isValidSSID shm tag time).1 other = liveDate shm other ∨
        liveDate (isValidSSID shm tag time).1 other =
          (liveDate shm other).filter fun expired => decide (expired - time ≤ validTime) := by
  cases shm with
  | none => exact ⟨nofun, fun _ => rfl, fun _ => Or.inl rfl⟩
  | some pool =>
      have next := is_valid_pool pool tag time
      obtain ⟨sweptOk, swept⟩ := sweep_spec pool time (ok pool rfl)
      cases verdict : (isValidPool pool tag time).2 with
      | true =>
          rw [verdict, if_pos rfl] at next
          simp only [isValidSSID, next]
          exact ⟨ok, fun _ => trivial, fun _ => Or.inl trivial⟩
      | false =>
          rw [verdict, if_neg (by decide)] at next
          simp only [isValidSSID, next, verdict]
          refine ⟨?_, nofun, fun other => Or.inr (swept other)⟩
          intro other eq
          rw [← Option.some.inj eq]
          exact sweptOk

def renews (tag : Tag) : Call → Bool
  | .save _ other _ => other == tag
  | .touch other _ => other == tag
  | .delete _ => false
  | .isValid _ _ => false

theorem run_call_step (shm : Shm) (call : Call) (ok : ShmOk shm) :
    ShmOk (runCall shm call) ∧
      ∀ tag, renews tag call = false → liveDate (runCall shm call) tag = liveDate shm tag ∨
        liveDate (runCall shm call) tag = none := by
  cases call with
  | save creatable other time =>
      rcases save_ssid_outcome creatable shm other (timeT time) with ⟨next, saved⟩ | failed
      · obtain ⟨nextOk, _, others, _⟩ := save_ssid_spec creatable shm next other (timeT time) ok saved
        simp only [runCall, saved]
        refine ⟨nextOk, fun tag idle => others tag ?_⟩
        rintro rfl
        simp [renews] at idle
      · simp only [runCall, failed]
        exact ⟨ok, fun _ _ => Or.inl trivial⟩
  | delete other =>
      obtain ⟨nextOk, _, others⟩ := delete_ssid_spec shm other ok
      exact ⟨nextOk, fun tag _ => others tag⟩
  | isValid other time =>
      obtain ⟨nextOk, _, others⟩ := is_valid_ssid_spec shm other (timeT time) ok
      refine ⟨nextOk, fun tag _ => ?_⟩
      rcases others tag with same | swept
      · exact Or.inl same
      · rw [runCall, swept]
        cases liveDate shm tag with
        | none => exact Or.inl rfl
        | some expired =>
            cases inside : decide (expired - timeT time ≤ validTime) <;> simp [Option.filter, inside]
  | touch other time =>
      obtain ⟨nextOk, others⟩ := touch_ssid_spec shm other (timeT time) ok
      refine ⟨nextOk, fun tag idle => Or.inl (others tag ?_)⟩
      rintro rfl
      simp [renews] at idle

theorem run_calls_ok (shm : Shm) (calls : List Call) (ok : ShmOk shm) : ShmOk (runCalls shm calls) := by
  induction calls generalizing shm with
  | nil => exact ok
  | cons call rest ih => exact ih (runCall shm call) (run_call_step shm call ok).1

theorem reachable_ok (shm : Shm) (reachable : Reachable shm) : ShmOk shm := by
  obtain ⟨calls, rfl⟩ := reachable
  exact run_calls_ok none calls nofun

-- The signed test of the lookup and the unsigned test of the sweep are the
-- same test, for every pair of words.
theorem in_window_unsigned (expired time : Word) :
    inWindow validTime expired time = decide (expired - time ≤ validTime) := by
  have width := (expired - time).isLt
  have limit : validTime.toInt = 600 := by decide
  have limitNat : validTime.toNat = 600 := by decide
  rw [inWindow, decide_eq_decide, BitVec.le_def, limit, limitNat, BitVec.toInt_eq_toNat_cond]
  split <;> omega

theorem date_minus_time (start time : Nat) (before : time ≤ start + 600) :
    timeT start + validTime - timeT time = BitVec.ofNat 32 (start + 600 - time) := by
  simp only [timeT, validTime]
  bv_omega

theorem window_open (start time : Nat) (after : start ≤ time) (before : time ≤ start + 600) :
    timeT start + validTime - timeT time ≤ validTime := by
  rw [date_minus_time start time before]
  simp only [validTime]
  bv_omega

theorem window_closed (start time : Nat) (after : start + 600 < time) (before : time < start + 2 ^ 31) :
    ¬ timeT start + validTime - timeT time ≤ validTime := by
  simp only [timeT, validTime]
  bv_omega

-- Other clients' traffic during the validity time: checks of any tag, and
-- saves of other tags that find their tag or a free bucket.
def Peaceful (tag : Tag) (start : Nat) : Shm → List Call → Prop
  | _, [] => True
  | shm, call :: rest =>
      (match call with
        | .isValid _ time => start ≤ time ∧ time ≤ start + 600
        | .save _ other time => other ≠ tag ∧ start ≤ time ∧ time ≤ start + 600 ∧
            ¬ (liveDate shm other = none ∧ full shm = true)
        | .delete _ => False
        | .touch _ _ => False) ∧
      Peaceful tag start (runCall shm call) rest

theorem peaceful_call_keeps (shm : Shm) (call : Call) (rest : List Call) (tag : Tag) (start : Nat) (ok : ShmOk shm)
    (live : liveDate shm tag = some (timeT start + validTime)) (peaceful : Peaceful tag start shm (call :: rest)) :
    liveDate (runCall shm call) tag = some (timeT start + validTime) := by
  cases call with
  | save creatable other time =>
      obtain ⟨⟨different, _, _, room⟩, _⟩ := peaceful
      rcases save_ssid_outcome creatable shm other (timeT time) with ⟨next, saved⟩ | failed
      · obtain ⟨_, _, _, kept⟩ := save_ssid_spec creatable shm next other (timeT time) ok saved
        rw [runCall, saved, kept room tag (Ne.symm different), live]
      · rw [runCall, failed, live]
  | isValid other time =>
      obtain ⟨⟨after, before⟩, _⟩ := peaceful
      obtain ⟨_, _, others⟩ := is_valid_ssid_spec shm other (timeT time) ok
      rcases others tag with same | swept
      · rw [runCall, same, live]
      · rw [runCall, swept, live, Option.filter, decide_eq_true (window_open start time after before)]
        rfl
  | delete other => exact peaceful.1.elim
  | touch other time => exact peaceful.1.elim

theorem peaceful_run_keeps (shm : Shm) (calls : List Call) (tag : Tag) (start : Nat) (ok : ShmOk shm)
    (live : liveDate shm tag = some (timeT start + validTime)) (peaceful : Peaceful tag start shm calls) :
    liveDate (runCalls shm calls) tag = some (timeT start + validTime) := by
  induction calls generalizing shm with
  | nil => exact live
  | cons call rest ih =>
      exact ih (runCall shm call) (run_call_step shm call ok).1
        (peaceful_call_keeps shm call rest tag start ok live peaceful) peaceful.2

theorem unrenewed_run_date (shm : Shm) (calls : List Call) (tag : Tag) (expired : Word) (ok : ShmOk shm)
    (live : liveDate shm tag = some expired ∨ liveDate shm tag = none)
    (unrenewed : ∀ call ∈ calls, renews tag call = false) :
    liveDate (runCalls shm calls) tag = some expired ∨ liveDate (runCalls shm calls) tag = none := by
  induction calls generalizing shm with
  | nil => exact live
  | cons call rest ih =>
      obtain ⟨nextOk, dates⟩ := run_call_step shm call ok
      apply ih (runCall shm call) nextOk
      · rcases dates tag (unrenewed call (by simp)) with same | lost
        · rwa [same]
        · exact Or.inr lost
      · exact fun other member => unrenewed other (by simp [member])

theorem live_session_kept (shm next : Shm) (creatable : Bool) (tag : Tag) (start : Nat) (reachable : Reachable shm)
    (saved : saveSSID creatable shm tag (timeT start) = (next, 0)) :
    (∀ calls, Peaceful tag start next calls → ∀ time, start ≤ time → time ≤ start + 600 →
      (isValidSSID (runCalls next calls) tag (timeT time)).2 = true) ∧
    (∀ calls, (∀ call ∈ calls, renews tag call = false) → ∀ time, start + 600 < time → time < start + 2 ^ 31 →
      (isValidSSID (runCalls next calls) tag (timeT time)).2 = false) := by
  obtain ⟨nextOk, live, _, _⟩ := save_ssid_spec creatable shm next tag (timeT start) (reachable_ok shm reachable) saved
  constructor
  · intro calls peaceful time after before
    have kept := peaceful_run_keeps next calls tag start nextOk live peaceful
    rw [is_valid_ssid_verdict _ tag (timeT time) (run_calls_ok next calls nextOk), kept, Option.any_some,
      in_window_unsigned, decide_eq_true (window_open start time after before)]
  · intro calls unrenewed time after before
    rw [is_valid_ssid_verdict _ tag (timeT time) (run_calls_ok next calls nextOk)]
    rcases unrenewed_run_date next calls tag (timeT start + validTime) nextOk (Or.inl live) unrenewed with kept | lost
    · rw [kept, Option.any_some, in_window_unsigned, decide_eq_false (window_closed start time after before)]
    · rw [lost, Option.any_none]

def sampleTag (letter : UInt8) : Tag := ⟨List.replicate 32 letter, List.length_replicate⟩

-- The date wraps around 2^32 here, and a failing check sweeps in between.
theorem live_session_kept_wrap :
    (isValidSSID (runCalls (saveSSID true none (sampleTag 97) (timeT 4294967000)).1
      [.isValid (sampleTag 98) 4294967100]) (sampleTag 97) (timeT 4294967600)).2 = true ∧
    (isValidSSID (runCalls (saveSSID true none (sampleTag 97) (timeT 4294967000)).1
      [.isValid (sampleTag 98) 4294967100]) (sampleTag 97) (timeT 4294967601)).2 = false := by
  have both := live_session_kept none (saveSSID true none (sampleTag 97) (timeT 4294967000)).1 true (sampleTag 97)
    4294967000 ⟨[], rfl⟩ rfl
  exact ⟨both.1 [.isValid (sampleTag 98) 4294967100] ⟨by decide, trivial⟩ 4294967600 (by decide) (by decide),
    both.2 [.isValid (sampleTag 98) 4294967100] (by simp [renews]) 4294967601 (by decide) (by decide)⟩

end Ftm50s.Ssid
