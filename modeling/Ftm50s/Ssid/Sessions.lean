import Ftm50s.Ssid.Pool

set_option autoImplicit false

namespace Ftm50s.Ssid

open Lib.Text Lib.SlotTable

-- What the buckets stand for: a finite map from live tags to expiry dates.
def bucketKey (bucket : Bucket) : Option Tag := if bucket.bValid = 1#32 then some bucket.szTag else none

def sessions (pool : Pool) (tag : Tag) : Option Word :=
  (lookup bucketKey tag pool.xBuckets).map Bucket.xExpiredDate

def allValid (pool : Pool) : Bool := pool.xBuckets.all fun bucket => bucket.bValid == 1#32

structure PoolOk (pool : Pool) : Prop where
  window : pool.nValidTime = validTime
  flags : ∀ bucket ∈ pool.xBuckets, bucket.bValid = 0#32 ∨ bucket.bValid = 1#32
  unique : Unique bucketKey pool.xBuckets

theorem holds_iff_key (tag : Tag) (bucket : Bucket) : holds tag bucket = decide (bucketKey bucket = some tag) := by
  by_cases valid : bucket.bValid = 1#32 <;> simp [holds, bucketKey, valid]

theorem holds_eq_key (tag : Tag) : holds tag = fun bucket => decide (bucketKey bucket = some tag) :=
  funext (holds_iff_key tag)

@[simp] theorem zero_bucket_key : bucketKey zeroBucket = none := by decide

theorem find_holds (pool : Pool) (tag : Tag) :
    pool.xBuckets.find? (holds tag) = lookup bucketKey tag pool.xBuckets := by
  rw [holds_eq_key, lookup]

theorem scan_hit (pool : Pool) (tag : Tag) (i : Nat) (found : pool.xBuckets.findIdx? (holds tag) = some i) :
    ∃ bucket, pool.xBuckets[i]? = some bucket ∧ bucketKey bucket = some tag := by
  rw [holds_eq_key] at found
  exact scan_some_slot bucketKey tag pool.xBuckets i found

theorem scan_miss (pool : Pool) (tag : Tag) (absent : pool.xBuckets.findIdx? (holds tag) = none) :
    lookup bucketKey tag pool.xBuckets = none := by
  rw [holds_eq_key] at absent
  exact scan_none_lookup bucketKey tag pool.xBuckets absent

theorem empty_pool_ok : PoolOk emptyPool where
  window := rfl
  flags := by
    intro bucket member
    rw [List.eq_of_mem_replicate member]
    exact Or.inl rfl
  unique := by
    intro i j a b k readA _ hitA _
    have free : a = zeroBucket := List.eq_of_mem_replicate (List.mem_of_getElem? readA)
    rw [free, zero_bucket_key] at hitA
    cases hitA

theorem empty_pool_sessions (tag : Tag) : sessions emptyPool tag = none := by
  have free : lookup bucketKey tag emptyPool.xBuckets = none := by
    apply lookup_none_of_free
    intro bucket member
    rw [List.eq_of_mem_replicate member, zero_bucket_key]
    exact nofun
  rw [sessions, free]
  rfl

theorem refresh_buckets (pool : Pool) (i : Nat) (time : Word) (bucket : Bucket)
    (read : pool.xBuckets[i]? = some bucket) :
    (refresh pool i time).xBuckets = pool.xBuckets.set i { bucket with xExpiredDate := time + pool.nValidTime } := by
  apply List.ext_getElem?
  intro j
  rw [refresh, List.getElem?_modify, List.getElem?_set]
  by_cases same : i = j
  · subst same
    obtain ⟨bound, value⟩ := List.getElem?_eq_some_iff.mp read
    simp [bound, value]
  · simp [same]

theorem refresh_spec (pool : Pool) (tag : Tag) (i : Nat) (time : Word) (bucket : Bucket) (ok : PoolOk pool)
    (read : pool.xBuckets[i]? = some bucket) (hit : bucketKey bucket = some tag) :
    PoolOk (refresh pool i time) ∧ sessions (refresh pool i time) tag = some (time + validTime) ∧
      ∀ other, other ≠ tag → sessions (refresh pool i time) other = sessions pool other := by
  have bound := (List.getElem?_eq_some_iff.mp read).1
  have buckets := refresh_buckets pool i time bucket read
  have keyed : bucketKey { bucket with xExpiredDate := time + pool.nValidTime } = some tag := hit
  have unique : Unique bucketKey (refresh pool i time).xBuckets := by
    rw [buckets]
    apply unique_set bucketKey pool.xBuckets i _ ok.unique
    intro k hitK j other readJ hitJ
    have sameKey : k = tag := Option.some.inj (hitK.symm.trans keyed)
    subst sameKey
    exact ok.unique j i other bucket k readJ read hitJ hit
  refine ⟨⟨ok.window, ?_, unique⟩, ?_, ?_⟩
  · intro other member
    rw [buckets] at member
    rcases List.mem_or_eq_of_mem_set member with old | rfl
    · exact ok.flags other old
    · exact ok.flags bucket (List.mem_of_getElem? read)
  · rw [buckets] at unique
    rw [sessions, buckets, lookup_set_self bucketKey pool.xBuckets i _ tag unique bound keyed, ← ok.window]
    rfl
  · intro other different
    have missed : bucketKey bucket ≠ some other := fun same =>
      different (Option.some.inj (same.symm.trans hit))
    have kept : lookup bucketKey other (refresh pool i time).xBuckets = lookup bucketKey other pool.xBuckets := by
      rw [buckets]
      refine lookup_set_frame bucketKey pool.xBuckets i _ other (fun old readOld => ?_) missed
      rwa [Option.some.inj (readOld.symm.trans read)]
    rw [sessions, kept, sessions]

-- The accumulator starts at zero and is compared unsigned, so no bucket is ever
-- older: with every bucket taken the loop always gives back index zero.
theorem claim_index_oldest (buckets : List Bucket) (i n : Nat) (taken : ∀ bucket ∈ buckets, bucket.bValid ≠ 0#32) :
    claimIndex buckets i n 0#32 = n := by
  induction buckets generalizing i with
  | nil => rfl
  | cons bucket rest ih =>
      have busy := taken bucket (by simp)
      have notOlder : ¬ bucket.xExpiredDate < 0#32 := BitVec.not_lt_zero
      rw [claimIndex, if_neg busy, if_neg notOlder]
      exact ih (i + 1) fun other member => taken other (by simp [member])

theorem claim_index_free (buckets : List Bucket) (i n : Nat) (free : ∃ bucket ∈ buckets, bucket.bValid = 0#32) :
    ∃ j bucket, claimIndex buckets i n 0#32 = i + j ∧ buckets[j]? = some bucket ∧ bucket.bValid = 0#32 := by
  induction buckets generalizing i with
  | nil => simp at free
  | cons bucket rest ih =>
      by_cases idle : bucket.bValid = 0#32
      · exact ⟨0, bucket, by rw [claimIndex, if_pos idle, Nat.add_zero], rfl, idle⟩
      · have notOlder : ¬ bucket.xExpiredDate < 0#32 := BitVec.not_lt_zero
        have later : ∃ other ∈ rest, other.bValid = 0#32 := by
          obtain ⟨other, member, otherIdle⟩ := free
          rcases List.mem_cons.mp member with rfl | inRest
          · exact absurd otherIdle idle
          · exact ⟨other, inRest, otherIdle⟩
        obtain ⟨j, found, index, read, idleFound⟩ := ih (i + 1) later
        refine ⟨j + 1, found, ?_, read, idleFound⟩
        rw [claimIndex, if_neg idle, if_neg notOlder, index]
        omega

theorem claim_index_bound (pool : Pool) : claimIndex pool.xBuckets 0 0 0#32 < pool.xBuckets.length := by
  by_cases free : ∃ bucket ∈ pool.xBuckets, bucket.bValid = 0#32
  · obtain ⟨j, bucket, index, read, _⟩ := claim_index_free pool.xBuckets 0 0 free
    rw [index, Nat.zero_add]
    exact (List.getElem?_eq_some_iff.mp read).1
  · rw [claim_index_oldest pool.xBuckets 0 0 fun bucket member idle => free ⟨bucket, member, idle⟩, pool.sized]
    decide

theorem occupy_spec (pool : Pool) (tag : Tag) (i : Nat) (time : Word) (ok : PoolOk pool)
    (bound : i < pool.xBuckets.length) (absent : lookup bucketKey tag pool.xBuckets = none) :
    PoolOk (occupy pool i tag time) ∧ sessions (occupy pool i tag time) tag = some (time + validTime) ∧
      (∀ other, other ≠ tag → sessions (occupy pool i tag time) other = sessions pool other ∨
        sessions (occupy pool i tag time) other = none) ∧
      ((∃ bucket, pool.xBuckets[i]? = some bucket ∧ bucket.bValid = 0#32) →
        ∀ other, other ≠ tag → sessions (occupy pool i tag time) other = sessions pool other) := by
  have keyed : bucketKey ⟨1#32, tag, time + pool.nValidTime⟩ = some tag := by simp [bucketKey]
  have other_key : ∀ other, other ≠ tag → bucketKey ⟨1#32, tag, time + pool.nValidTime⟩ ≠ some other := by
    intro other different same
    exact different (Option.some.inj (same.symm.trans keyed))
  have unique : Unique bucketKey (occupy pool i tag time).xBuckets := by
    apply unique_set bucketKey pool.xBuckets i _ ok.unique
    intro k hitK j other readJ hitJ
    have sameKey : k = tag := Option.some.inj (hitK.symm.trans keyed)
    subst sameKey
    exact absurd hitJ (lookup_none_slot bucketKey k pool.xBuckets absent other (List.mem_of_getElem? readJ))
  refine ⟨⟨ok.window, ?_, unique⟩, ?_, ?_, ?_⟩
  · intro other member
    rcases List.mem_or_eq_of_mem_set member with old | rfl
    · exact ok.flags other old
    · exact Or.inr rfl
  · have found : lookup bucketKey tag (occupy pool i tag time).xBuckets = some ⟨1#32, tag, time + pool.nValidTime⟩ :=
      lookup_set_self bucketKey pool.xBuckets i _ tag unique bound keyed
    rw [sessions, found, ← ok.window]
    rfl
  · intro other different
    have kept : lookup bucketKey other (occupy pool i tag time).xBuckets = lookup bucketKey other pool.xBuckets ∨
        lookup bucketKey other (occupy pool i tag time).xBuckets = none :=
      lookup_set_lost bucketKey pool.xBuckets i _ other ok.unique (other_key other different)
    rcases kept with same | lost
    · exact Or.inl (by rw [sessions, same, sessions])
    · exact Or.inr (by rw [sessions, lost]; rfl)
  · rintro ⟨bucket, read, idle⟩ other different
    have kept : lookup bucketKey other (occupy pool i tag time).xBuckets = lookup bucketKey other pool.xBuckets := by
      apply lookup_set_frame bucketKey pool.xBuckets i _ other _ (other_key other different)
      intro old readOld
      rw [Option.some.inj (readOld.symm.trans read), bucketKey, idle]
      simp
    rw [sessions, kept, sessions]

theorem save_pool_spec (pool : Pool) (tag : Tag) (time : Word) (ok : PoolOk pool) :
    PoolOk (savePool pool tag time) ∧ sessions (savePool pool tag time) tag = some (time + validTime) ∧
      (∀ other, other ≠ tag → sessions (savePool pool tag time) other = sessions pool other ∨
        sessions (savePool pool tag time) other = none) ∧
      (¬ (sessions pool tag = none ∧ allValid pool = true) →
        ∀ other, other ≠ tag → sessions (savePool pool tag time) other = sessions pool other) := by
  cases scan : pool.xBuckets.findIdx? (holds tag) with
  | some i =>
      obtain ⟨bucket, read, hit⟩ := scan_hit pool tag i scan
      obtain ⟨nextOk, own, others⟩ := refresh_spec pool tag i time bucket ok read hit
      simp only [savePool, scan]
      exact ⟨nextOk, own, fun other different => Or.inl (others other different), fun _ => others⟩
  | none =>
      have absent := scan_miss pool tag scan
      obtain ⟨nextOk, own, others, idle⟩ :=
        occupy_spec pool tag (claimIndex pool.xBuckets 0 0 0#32) time ok (claim_index_bound pool) absent
      simp only [savePool, scan]
      refine ⟨nextOk, own, others, ?_⟩
      intro room
      apply idle
      have free : ∃ bucket ∈ pool.xBuckets, bucket.bValid = 0#32 := by
        by_contra busy
        refine room ⟨by rw [sessions, absent]; rfl, ?_⟩
        rw [allValid, List.all_eq_true]
        intro bucket member
        rcases ok.flags bucket member with idleFlag | validFlag
        · exact absurd ⟨bucket, member, idleFlag⟩ busy
        · simp [validFlag]
      obtain ⟨j, bucket, index, read, idleFlag⟩ := claim_index_free pool.xBuckets 0 0 free
      exact ⟨bucket, by rw [index, Nat.zero_add]; exact read, idleFlag⟩

def sweeps (nValidTime time : Word) (bucket : Bucket) : Bool :=
  decide (bucket.bValid = 1#32 ∧ bucket.xExpiredDate - time > nValidTime)

theorem sweep_bucket_eq (nValidTime time : Word) (bucket : Bucket) :
    sweepBucket nValidTime time bucket = if sweeps nValidTime time bucket then zeroBucket else bucket := by
  by_cases valid : bucket.bValid = 1#32
  · by_cases late : bucket.xExpiredDate - time > nValidTime <;> simp [sweepBucket, sweeps, valid, late]
  · simp [sweepBucket, sweeps, valid]

theorem sweep_bucket_keeps (nValidTime time : Word) (bucket : Bucket) (tag : Tag)
    (hit : bucketKey (sweepBucket nValidTime time bucket) = some tag) : sweepBucket nValidTime time bucket =
    bucket := by
  rw [sweep_bucket_eq] at hit ⊢
  cases verdict : sweeps nValidTime time bucket with
  | true => simp [verdict] at hit
  | false => rfl

theorem sweep_lookup (pool : Pool) (time : Word) (tag : Tag) (ok : PoolOk pool) :
    lookup bucketKey tag (sweepPool pool time).xBuckets =
      (lookup bucketKey tag pool.xBuckets).filter fun bucket => !sweeps pool.nValidTime time bucket := by
  apply lookup_map bucketKey pool.xBuckets _ _ tag ok.unique
  · intro bucket kept
    simp only [Bool.not_eq_true'] at kept
    rw [sweep_bucket_eq, kept]
    rfl
  · intro bucket other freed
    simp only [Bool.not_eq_false'] at freed
    rw [sweep_bucket_eq, freed, if_pos rfl, zero_bucket_key]
    exact nofun

theorem key_valid (bucket : Bucket) (tag : Tag) (hit : bucketKey bucket = some tag) : bucket.bValid = 1#32 := by
  by_contra invalid
  rw [bucketKey, if_neg invalid] at hit
  cases hit

theorem sweep_spec (pool : Pool) (time : Word) (ok : PoolOk pool) :
    PoolOk (sweepPool pool time) ∧
      ∀ tag, sessions (sweepPool pool time) tag =
        (sessions pool tag).filter fun expired => decide (expired - time ≤ validTime) := by
  refine ⟨⟨ok.window, ?_, ?_⟩, ?_⟩
  · intro bucket member
    obtain ⟨old, oldMember, rfl⟩ := List.mem_map.mp member
    rw [sweep_bucket_eq]
    cases sweeps pool.nValidTime time old with
    | true => exact Or.inl rfl
    | false => exact ok.flags old oldMember
  · exact unique_thinned bucketKey pool.xBuckets _ ok.unique
      (thinned_map bucketKey pool.xBuckets _ (sweep_bucket_keeps pool.nValidTime time))
  · intro tag
    rw [sessions, sweep_lookup pool time tag ok, sessions]
    cases found : lookup bucketKey tag pool.xBuckets with
    | none => rfl
    | some bucket =>
        obtain ⟨_, _, hit⟩ := lookup_some_slot bucketKey tag pool.xBuckets bucket found
        have valid := key_valid bucket tag hit
        by_cases late : bucket.xExpiredDate - time > validTime
        · have beyond : ¬ bucket.xExpiredDate - time ≤ validTime := BitVec.not_le.mpr late
          simp [Option.filter, sweeps, valid, ok.window, late, beyond]
        · have within : bucket.xExpiredDate - time ≤ validTime := BitVec.not_lt.mp late
          simp [Option.filter, sweeps, valid, ok.window, late, within]

theorem is_valid_verdict (pool : Pool) (tag : Tag) (time : Word) (ok : PoolOk pool) :
    (isValidPool pool tag time).2 = (sessions pool tag).any fun expired => inWindow validTime expired time := by
  rw [isValidPool, find_holds, sessions]
  cases lookup bucketKey tag pool.xBuckets with
  | none => rfl
  | some bucket =>
      rw [ok.window]
      cases verdict : inWindow validTime bucket.xExpiredDate time <;> simp [verdict]

theorem is_valid_pool (pool : Pool) (tag : Tag) (time : Word) :
    (isValidPool pool tag time).1 = if (isValidPool pool tag time).2 then pool else sweepPool pool time := by
  rw [isValidPool]
  cases pool.xBuckets.find? (holds tag) with
  | none => rfl
  | some bucket => cases verdict : inWindow pool.nValidTime bucket.xExpiredDate time <;> simp [verdict]

theorem clear_from_spec (pool : Pool) (i : Nat) (ok : PoolOk pool) :
    PoolOk (clearFrom pool i) ∧
      ∀ tag, sessions (clearFrom pool i) tag = sessions pool tag ∨ sessions (clearFrom pool i) tag = none := by
  have thinned : Thinned bucketKey pool.xBuckets (clearFrom pool i).xBuckets :=
    thinned_truncate bucketKey pool.xBuckets i (maxBuckets - i) zeroBucket zero_bucket_key
  refine ⟨⟨ok.window, ?_, unique_thinned bucketKey pool.xBuckets _ ok.unique thinned⟩, ?_⟩
  · intro bucket member
    rcases List.mem_append.mp member with kept | cleared
    · exact ok.flags bucket (List.mem_of_mem_take kept)
    · rw [List.eq_of_mem_replicate cleared]
      exact Or.inl rfl
  · intro tag
    rcases lookup_thinned bucketKey pool.xBuckets _ tag ok.unique thinned with same | lost
    · exact Or.inl (by rw [sessions, same, sessions])
    · exact Or.inr (by rw [sessions, lost]; rfl)

theorem delete_pool_spec (pool : Pool) (tag : Tag) (ok : PoolOk pool) :
    PoolOk (deletePool pool tag) ∧ sessions (deletePool pool tag) tag = none ∧
      ∀ other, sessions (deletePool pool tag) other = sessions pool other ∨ sessions (deletePool pool tag) other =
      none := by
  cases scan : pool.xBuckets.findIdx? (holds tag) with
  | none =>
      simp only [deletePool, scan]
      refine ⟨ok, ?_, fun _ => by simp⟩
      rw [sessions, scan_miss pool tag scan]
      rfl
  | some i =>
      obtain ⟨nextOk, others⟩ := clear_from_spec pool i ok
      simp only [deletePool, scan]
      refine ⟨nextOk, ?_, others⟩
      obtain ⟨bucket, read, hit⟩ := scan_hit pool tag i scan
      -- every bucket that still has a key lies before the matched one
      have gone : lookup bucketKey tag (clearFrom pool i).xBuckets = none := by
        apply lookup_none_of_free
        intro kept member hitKept
        rcases List.mem_append.mp member with front | cleared
        · obtain ⟨j, readJ⟩ := List.getElem?_of_mem front
          rw [List.getElem?_take] at readJ
          split at readJ
          · have same := ok.unique j i kept bucket tag readJ read hitKept hit
            omega
          · cases readJ
        · rw [List.eq_of_mem_replicate cleared, zero_bucket_key] at hitKept
          cases hitKept
      rw [sessions, gone]
      rfl

end Ftm50s.Ssid
