import Ftm50s.Ssid.Sessions

set_option autoImplicit false

namespace Ftm50s.Ssid

open Lib.Text Lib.SlotTable

-- The save overwrites one bucket whose date no other is earlier than. `date`
-- reads the machine word: toInt as the signed time_t, toNat as the cast of the
-- source does.
def EvictsOldest (date : Word → Int) (pool : Pool) (tag : Tag) (time : Word) : Prop :=
  ∃ (next : Pool) (i : Nat) (oldest : Bucket), saveSSID true (some pool) tag time = (some next, 0) ∧
    pool.xBuckets[i]? = some oldest ∧
    (∀ bucket ∈ pool.xBuckets, date oldest.xExpiredDate ≤ date bucket.xExpiredDate) ∧
    next.xBuckets = pool.xBuckets.set i ⟨1#32, tag, time + validTime⟩

theorem save_full (pool : Pool) (tag : Tag) (time : Word) (full : ∀ bucket ∈ pool.xBuckets, bucket.bValid = 1#32)
    (fresh : ∀ bucket ∈ pool.xBuckets, bucket.szTag ≠ tag) :
    ∃ next : Pool, saveSSID true (some pool) tag time = (some next, 0) ∧
      next.xBuckets = pool.xBuckets.set 0 ⟨1#32, tag, time + validTime⟩ := by
  have miss : pool.xBuckets.findIdx? (holds tag) = none := by
    rw [List.findIdx?_eq_none_iff]
    intro bucket member
    simp [holds, fresh bucket member]
  have taken : ∀ bucket ∈ pool.xBuckets, bucket.bValid ≠ 0#32 := by
    intro bucket member
    rw [full bucket member]
    decide
  have index := claim_index_oldest pool.xBuckets 0 0 taken
  refine ⟨savePool { pool with nValidTime := validTime } tag time, rfl, ?_⟩
  simp only [savePool, miss, index, occupy]

-- A bucket that the save did not take is as before, and none of those holds
-- the new tag: the bucket taken is the first.
theorem evicts_first (date : Word → Int) (pool : Pool) (tag : Tag) (time : Word) (first : Bucket)
    (full : ∀ bucket ∈ pool.xBuckets, bucket.bValid = 1#32) (fresh : ∀ bucket ∈ pool.xBuckets, bucket.szTag ≠ tag)
    (evicts : EvictsOldest date pool tag time) (found : pool.xBuckets[0]? = some first) :
    ∀ bucket ∈ pool.xBuckets, date first.xExpiredDate ≤ date bucket.xExpiredDate := by
  obtain ⟨saved, run, buckets⟩ := save_full pool tag time full fresh
  obtain ⟨next, i, oldest, again, read, least, changed⟩ := evicts
  obtain rfl : saved = next := Option.some.inj (Prod.mk.inj (run.symm.trans again)).1
  have place : i = 0 := by
    by_contra other
    have now : saved.xBuckets[i]? = some oldest := by
      rw [buckets, List.getElem?_set_ne (Ne.symm other), read]
    rw [changed, List.getElem?_set_self (List.getElem?_eq_some_iff.mp read).1] at now
    have same := Option.some.inj now
    exact fresh oldest (List.mem_of_getElem? read) (by rw [← same])
  subst place
  obtain rfl := Option.some.inj (read.symm.trans found)
  exact least

-- The running minimum starts at zero and never moves.
theorem eviction_exact (date : Word → Int) (pool : Pool) (tag : Tag) (time : Word)
    (full : ∀ bucket ∈ pool.xBuckets, bucket.bValid = 1#32) (fresh : ∀ bucket ∈ pool.xBuckets, bucket.szTag ≠ tag) :
    EvictsOldest date pool tag time ↔
      ∀ first, pool.xBuckets[0]? = some first →
        ∀ bucket ∈ pool.xBuckets, date first.xExpiredDate ≤ date bucket.xExpiredDate := by
  constructor
  · intro evicts first found
    exact evicts_first date pool tag time first full fresh evicts found
  · intro least
    obtain ⟨saved, run, buckets⟩ := save_full pool tag time full fresh
    have inside : 0 < pool.xBuckets.length := by
      rw [pool.sized]
      decide
    have read := List.getElem?_eq_getElem inside
    exact ⟨saved, 0, _, run, read, least _ read, buckets⟩

def agedTag (i : Nat) : Tag := ⟨List.replicate 31 97 ++ [UInt8.ofNat i], rfl⟩

def agedPool (dates : Nat → Word) : Pool :=
  ⟨validTime, (List.range maxBuckets).map fun i => ⟨1#32, agedTag i, dates i⟩, by simp⟩

theorem aged_pool_full (dates : Nat → Word) :
    (∀ bucket ∈ (agedPool dates).xBuckets, bucket.bValid = 1#32) ∧
      ∀ bucket ∈ (agedPool dates).xBuckets, bucket.szTag ≠ agedTag 200 := by
  constructor
  · intro bucket member
    obtain ⟨i, _, rfl⟩ := List.mem_map.mp member
    rfl
  · intro bucket member
    obtain ⟨i, inRange, rfl⟩ := List.mem_map.mp member
    have below : i < 100 := List.mem_range.mp inRange
    intro same
    have last : UInt8.ofNat i = UInt8.ofNat 200 := by
      have bytes := congrArg (fun tag : Tag => tag.bytes.getLast?) same
      simpa [agedTag] using bytes
    have number : i % 256 = 200 := by simpa using congrArg UInt8.toNat last
    omega

theorem eviction_exact_in_order :
    EvictsOldest (fun date => date.toNat) (agedPool fun i => BitVec.ofNat 32 (1000 + i)) (agedTag 200) 5000#32 := by
  obtain ⟨full, fresh⟩ := aged_pool_full fun i => BitVec.ofNat 32 (1000 + i)
  apply (eviction_exact (fun date => date.toNat) _ (agedTag 200) 5000#32 full fresh).mpr
  intro first found bucket member
  obtain ⟨i, inRange, rfl⟩ := List.mem_map.mp member
  have below : i < 100 := List.mem_range.mp inRange
  obtain rfl : (⟨1#32, agedTag 0, 1000#32⟩ : Bucket) = first := Option.some.inj found
  simp
  omega

-- The last session ends first, and the one that ends last is thrown out.
theorem eviction_takes_latest : ¬ ∀ (pool : Pool) (tag : Tag) (time : Word),
    (∀ bucket ∈ pool.xBuckets, bucket.bValid = 1#32) → (∀ bucket ∈ pool.xBuckets, bucket.szTag ≠ tag) →
      EvictsOldest (fun date => date.toNat) pool tag time := by
  intro always
  obtain ⟨full, fresh⟩ := aged_pool_full fun i => BitVec.ofNat 32 (2000 - i)
  have least := evicts_first _ _ (agedTag 200) 5000#32 ⟨1#32, agedTag 0, 2000#32⟩ full fresh
    (always _ (agedTag 200) 5000#32 full fresh) rfl
  have last : (⟨1#32, agedTag 99, 1901#32⟩ : Bucket) ∈ (agedPool fun i => BitVec.ofNat 32 (2000 - i)).xBuckets :=
    List.mem_map.mpr ⟨99, by decide, rfl⟩
  exact absurd (least _ last) (by decide)

end Ftm50s.Ssid
