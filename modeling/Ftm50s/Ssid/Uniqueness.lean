import Ftm50s.Ssid.Lifetime

set_option autoImplicit false

namespace Ftm50s.Ssid

open Lib.SlotTable

-- The segment before its creation, or just after it
def freshShm (created : Bool) : Shm := if created then some emptyPool else none

def TagsDistinct (pool : Pool) : Prop :=
  ∀ (i j : Nat) (a b : Bucket), pool.xBuckets[i]? = some a → pool.xBuckets[j]? = some b → a.bValid = 1#32 →
    b.bValid = 1#32 →
    a.szTag = b.szTag → i = j

def saves (tag : Tag) : Call → Bool
  | .save _ other _ => other == tag
  | .delete _ => false
  | .isValid _ _ => false
  | .touch _ _ => false

theorem fresh_ok (created : Bool) : ShmOk (freshShm created) := by
  cases created with
  | false => exact nofun
  | true =>
      intro pool same
      rw [← Option.some.inj same]
      exact empty_pool_ok

theorem unique_tags_distinct (pool : Pool) (ok : PoolOk pool) : TagsDistinct pool := by
  intro i j a b readA readB validA validB same
  have keyA : bucketKey a = some a.szTag := if_pos validA
  have keyB : bucketKey b = some a.szTag := by rw [bucketKey, if_pos validB, same]
  exact ok.unique i j a b a.szTag readA readB keyA keyB

theorem touch_ssid_absent (shm : Shm) (tag : Tag) (time : Word) (absent : liveDate shm tag = none) :
    (touchSSID shm tag time).1 = shm := by
  cases shm with
  | none => rfl
  | some pool =>
      cases scan : pool.xBuckets.findIdx? (holds tag) with
      | none => simp only [touchSSID, touchPool, scan]
      | some i =>
          obtain ⟨bucket, read, hit⟩ := scan_hit pool tag i scan
          have gone : lookup bucketKey tag pool.xBuckets = none := Option.map_eq_none_iff.mp absent
          exact absurd hit (lookup_none_slot bucketKey tag pool.xBuckets gone bucket (List.mem_of_getElem? read))

theorem absent_call (shm : Shm) (call : Call) (tag : Tag) (ok : ShmOk shm) (absent : liveDate shm tag = none)
    (unsaved : saves tag call = false) : liveDate (runCall shm call) tag = none := by
  cases idle : renews tag call with
  | false =>
      rcases (run_call_step shm call ok).2 tag idle with same | lost
      · rw [same, absent]
      · exact lost
  | true =>
      cases call with
      | touch other time =>
          obtain rfl : other = tag := by simpa [renews] using idle
          rw [runCall, touch_ssid_absent shm other (timeT time) absent, absent]
      | save creatable other time => exact absurd idle (by rw [renews, ← saves, unsaved]; decide)
      | delete other => cases idle
      | isValid other time => cases idle

theorem absent_run (shm : Shm) (calls : List Call) (tag : Tag) (ok : ShmOk shm) (absent : liveDate shm tag = none)
    (unsaved : ∀ call ∈ calls, saves tag call = false) : liveDate (runCalls shm calls) tag = none := by
  induction calls generalizing shm with
  | nil => exact absent
  | cons call rest ih =>
      have next := absent_call shm call tag ok absent (unsaved call (by simp))
      exact ih (runCall shm call) (run_call_step shm call ok).1 next fun other member =>
        unsaved other (by simp [member])

theorem pool_tags_distinct (created : Bool) (calls : List Call) :
    (∀ pool, runCalls (freshShm created) calls = some pool → TagsDistinct pool) ∧
      ∀ tag later, (∀ call ∈ later, saves tag call = false) → ∀ time,
        (isValidSSID (runCalls (deleteSSID (runCalls (freshShm created) calls) tag) later) tag time).2 = false := by
  have ok := run_calls_ok (freshShm created) calls (fresh_ok created)
  constructor
  · intro pool reached
    exact unique_tags_distinct pool (ok pool reached)
  · intro tag later unsaved time
    obtain ⟨deletedOk, gone, _⟩ := delete_ssid_spec _ tag ok
    have absent := absent_run _ later tag deletedOk gone unsaved
    rw [is_valid_ssid_verdict _ tag time (run_calls_ok _ later deletedOk), absent, Option.any_none]

-- The first tag is saved twice, and a touch after its deletion does not bring it back.
theorem pool_tags_distinct_saved_twice :
    TagsDistinct ((runCalls (freshShm true)
      [.save true (sampleTag 97) 5, .save true (sampleTag 98) 6, .save true (sampleTag 97) 7]).getD emptyPool) ∧
    (isValidSSID (runCalls (deleteSSID (runCalls (freshShm true)
      [.save true (sampleTag 97) 5, .save true (sampleTag 98) 6, .save true (sampleTag 97) 7]) (sampleTag 97))
      [.touch (sampleTag 97) 8, .save true (sampleTag 98) 8]) (sampleTag 97) (timeT 9)).2 = false := by
  have both := pool_tags_distinct true
    [.save true (sampleTag 97) 5, .save true (sampleTag 98) 6, .save true (sampleTag 97) 7]
  constructor
  · cases reached : runCalls (freshShm true)
      [.save true (sampleTag 97) 5, .save true (sampleTag 98) 6, .save true (sampleTag 97) 7] with
    | none => cases reached
    | some pool => exact both.1 pool reached
  · exact both.2 (sampleTag 97) _ (by simp [saves, sampleTag]) (timeT 9)

end Ftm50s.Ssid
