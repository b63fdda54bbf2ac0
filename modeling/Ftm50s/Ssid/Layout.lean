import Ftm50s.Lib.Memory
import Ftm50s.Ssid.Lifetime

set_option autoImplicit false

namespace Ftm50s.Ssid

open Lib.Text Lib.SlotTable Lib.Mem

-- SSID: int bValid, char szTag[32], time_t xExpiredDate. No padding: every
-- member is a multiple of four bytes long.
def sizeofBucket : Nat := 4 + 32 + 4

def sizeofPool : Nat := 4 + maxBuckets * sizeofBucket

def bucketOffset (i : Nat) : Nat := 4 + i * sizeofBucket

def readBucket (mem : Memory) (offset : Nat) : Bucket where
  bValid := readWord mem offset
  szTag := ⟨readBytes mem (offset + 4) 32, by simp [readBytes]⟩
  xExpiredDate := readWord mem (offset + 36)

def readPool (mem : Memory) : Pool where
  nValidTime := readWord mem 0
  xBuckets := (List.range maxBuckets).map fun i => readBucket mem (bucketOffset i)
  sized := by simp

def bucketByte (bucket : Bucket) (offset : Nat) : UInt8 :=
  if offset < 4 then wordByte bucket.bValid offset
  else if offset < 36 then bucket.szTag.bytes.getD (offset - 4) 0
  else wordByte bucket.xExpiredDate (offset - 36)

def writePool (pool : Pool) (beyond : Memory) : Memory := fun address =>
  if address < 4 then wordByte pool.nValidTime address
  else match pool.xBuckets[(address - 4) / sizeofBucket]? with
    | some bucket => bucketByte bucket ((address - 4) % sizeofBucket)
    | none => beyond address

theorem write_pool_bucket (pool : Pool) (beyond : Memory) (i : Nat) (bucket : Bucket)
    (read : pool.xBuckets[i]? = some bucket) (offset : Nat) (bound : offset < sizeofBucket) :
    writePool pool beyond (bucketOffset i + offset) = bucketByte bucket offset := by
  have index : (bucketOffset i + offset - 4) / sizeofBucket = i := by
    simp only [bucketOffset, sizeofBucket] at bound ⊢
    omega
  have rest : (bucketOffset i + offset - 4) % sizeofBucket = offset := by
    simp only [bucketOffset, sizeofBucket] at bound ⊢
    omega
  have past : ¬ bucketOffset i + offset < 4 := by
    simp only [bucketOffset]
    omega
  simp only [writePool, if_neg past, index, rest, read]

theorem read_write_bucket (pool : Pool) (beyond : Memory) (i : Nat) (bucket : Bucket)
    (read : pool.xBuckets[i]? = some bucket) : readBucket (writePool pool beyond) (bucketOffset i) = bucket := by
  have stored := write_pool_bucket pool beyond i bucket read
  have flag : readWord (writePool pool beyond) (bucketOffset i) = bucket.bValid := by
    apply read_word_bytes
    intro k bound
    rw [stored k (by simp only [sizeofBucket]; omega), bucketByte, if_pos bound]
  have tag : readBytes (writePool pool beyond) (bucketOffset i + 4) 32 = bucket.szTag.bytes := by
    have whole := read_bytes_list (writePool pool beyond) (bucketOffset i + 4) bucket.szTag.bytes
    rw [bucket.szTag.sized] at whole
    apply whole
    intro k bound
    rw [Nat.add_assoc, stored (4 + k) (by simp only [sizeofBucket]; omega), bucketByte, if_neg (by omega),
      if_pos (by omega), Nat.add_sub_cancel_left]
  have date : readWord (writePool pool beyond) (bucketOffset i + 36) = bucket.xExpiredDate := by
    apply read_word_bytes
    intro k bound
    rw [Nat.add_assoc, stored (36 + k) (by simp only [sizeofBucket]; omega), bucketByte, if_neg (by omega),
      if_neg (by omega), Nat.add_sub_cancel_left]
  simp only [readBucket, flag, tag, date]

theorem read_write_pool (pool : Pool) (beyond : Memory) : readPool (writePool pool beyond) = pool := by
  have window : readWord (writePool pool beyond) 0 = pool.nValidTime := by
    apply read_word_bytes
    intro k bound
    rw [Nat.zero_add, writePool, if_pos bound]
  have buckets : (List.range maxBuckets).map (fun i => readBucket (writePool pool beyond) (bucketOffset i)) =
      pool.xBuckets := by
    apply List.ext_getElem
    · simp [pool.sized]
    · intro i _ bound
      rw [List.getElem_map, List.getElem_range]
      exact read_write_bucket pool beyond i pool.xBuckets[i] (List.getElem?_eq_getElem bound)
  cases pool
  simp only [readPool, window, buckets]

-- memset(&pxPool->xBuckets[i], 0, sizeof(pxPool[i])): the size is that of the
-- pool, not of the bucket.
def deleteExtent (pool : Pool) (tag : Tag) : Option Extent :=
  (pool.xBuckets.findIdx? (holds tag)).map fun i => ⟨bucketOffset i, sizeofPool⟩

def deleteMemory (mem : Memory) (tag : Tag) : Memory :=
  match deleteExtent (readPool mem) tag with
  | some extent => memset mem extent 0
  | none => mem

theorem read_bucket_congr (a b : Memory) (offset : Nat)
    (same : ∀ k, k < sizeofBucket → a (offset + k) = b (offset + k)) : readBucket a offset = readBucket b offset := by
  have flag := read_word_congr a b offset offset fun k bound => same k (by simp only [sizeofBucket]; omega)
  have tag := read_bytes_congr a b (offset + 4) (offset + 4) 32 fun k bound => by
    rw [Nat.add_assoc]
    exact same (4 + k) (by simp only [sizeofBucket]; omega)
  have date := read_word_congr a b (offset + 36) (offset + 36) fun k bound => by
    rw [Nat.add_assoc]
    exact same (36 + k) (by simp only [sizeofBucket]; omega)
  simp only [readBucket, flag, tag, date]

theorem zero_memory_bucket (offset : Nat) : readBucket (fun _ => 0) offset = zeroBucket := by
  have word : ∀ address, readWord (fun _ => 0) address = 0#32 := fun address => by
    change (0#8 ++ 0#8 ++ 0#8 ++ 0#8 : BitVec 32) = 0#32
    decide
  have bytes : readBytes (fun _ => 0) (offset + 4) 32 = List.replicate 32 0 := by simp [readBytes]
  simp only [readBucket, zeroBucket, zeroTag, word, bytes]

theorem memset_bucket (mem : Memory) (i j : Nat) (bound : j < maxBuckets) :
    readBucket (memset mem ⟨bucketOffset i, sizeofPool⟩ 0) (bucketOffset j) =
      if j < i then readBucket mem (bucketOffset j) else zeroBucket := by
  by_cases before : j < i
  · rw [if_pos before]
    apply read_bucket_congr
    intro k inside
    apply memset_outside
    simp only [bucketOffset, sizeofBucket] at inside ⊢
    omega
  · rw [if_neg before, ← zero_memory_bucket (bucketOffset j)]
    apply read_bucket_congr
    intro k inside
    apply memset_inside
    · simp only [bucketOffset, sizeofBucket] at inside ⊢
      omega
    · simp only [bucketOffset, sizeofBucket, sizeofPool, maxBuckets] at bound inside ⊢
      omega

-- Clearing from the matched bucket to the end is what the over-long memset
-- does to the part of the segment that the pool occupies.
theorem memset_pool (mem : Memory) (i : Nat) :
    readPool (memset mem ⟨bucketOffset i, sizeofPool⟩ 0) = clearFrom (readPool mem) i := by
  have window : readWord (memset mem ⟨bucketOffset i, sizeofPool⟩ 0) 0 = readWord mem 0 := by
    apply read_word_congr
    intro k bound
    apply memset_outside
    simp only [bucketOffset]
    omega
  have buckets : (readPool (memset mem ⟨bucketOffset i, sizeofPool⟩ 0)).xBuckets =
    (clearFrom (readPool mem) i).xBuckets := by
    apply List.ext_getElem?
    intro j
    by_cases bound : j < maxBuckets
    · rw [readPool, clearFrom, List.getElem?_map, List.getElem?_range bound, Option.map_some,
        memset_bucket mem i j bound,
        List.getElem?_append]
      have size : ((readPool mem).xBuckets.take i).length = min i maxBuckets := by
        rw [List.length_take, (readPool mem).sized]
      by_cases before : j < i
      · rw [if_pos before, if_pos (by rw [size]; omega), List.getElem?_take, if_pos before, readPool, List.getElem?_map,
          List.getElem?_range bound, Option.map_some]
      · rw [if_neg before, if_neg (by rw [size]; omega), size, List.getElem?_replicate, if_pos (by omega)]
    · have left := (readPool (memset mem ⟨bucketOffset i, sizeofPool⟩ 0)).sized
      have right := (clearFrom (readPool mem) i).sized
      rw [List.getElem?_eq_none (by omega), List.getElem?_eq_none (by omega)]
  have pools : ∀ a b : Pool, a.nValidTime = b.nValidTime → a.xBuckets = b.xBuckets → a = b := by
    rintro ⟨⟩ ⟨⟩ rfl rfl
    rfl
  exact pools _ _ window buckets

theorem delete_memory_pool (mem : Memory) (tag : Tag) :
    readPool (deleteMemory mem tag) = deletePool (readPool mem) tag := by
  cases scan : (readPool mem).xBuckets.findIdx? (holds tag) with
  | none => simp only [deleteMemory, deleteExtent, deletePool, scan, Option.map_none]
  | some i => simp only [deleteMemory, deleteExtent, deletePool, scan, Option.map_some, memset_pool]

structure LogoutIsolated (mem : Memory) (tag : Tag) : Prop where
  invalidated : ∀ (i : Nat) (bucket : Bucket), (readPool mem).xBuckets[i]? = some bucket → holds tag bucket = true →
    ∃ next, (readPool (deleteMemory mem tag)).xBuckets[i]? = some next ∧ next.bValid = 0#32
  others : ∀ (i : Nat) (bucket : Bucket), (readPool mem).xBuckets[i]? = some bucket → holds tag bucket = false →
    (readPool (deleteMemory mem tag)).xBuckets[i]? = some bucket
  window : (readPool (deleteMemory mem tag)).nValidTime = (readPool mem).nValidTime
  inside : ∀ extent, deleteExtent (readPool mem) tag = some extent → extent.start + extent.length ≤ sizeofPool
  answers : ∀ other time, other ≠ tag →
    (isValidPool (readPool (deleteMemory mem tag)) other time).2 = (isValidPool (readPool mem) other time).2

-- The memset is as long as the pool and starts behind its first member, so it
-- leaves the object whichever bucket it starts at.
theorem delete_extent_leaves_pool (pool : Pool) (tag : Tag) (extent : Extent)
    (deleted : deleteExtent pool tag = some extent) : sizeofPool < extent.start + extent.length := by
  obtain ⟨i, _, rfl⟩ := Option.map_eq_some_iff.mp deleted
  simp only [bucketOffset]
  omega

theorem logout_isolated_iff (mem : Memory) (tag : Tag) :
    LogoutIsolated mem tag ↔ ∀ bucket ∈ (readPool mem).xBuckets, holds tag bucket = false := by
  constructor
  · intro isolated
    cases scan : (readPool mem).xBuckets.findIdx? (holds tag) with
    | none =>
        intro bucket member
        simpa using List.findIdx?_eq_none_iff.mp scan bucket member
    | some i =>
        have deleted : deleteExtent (readPool mem) tag = some ⟨bucketOffset i, sizeofPool⟩ := by
          rw [deleteExtent, scan, Option.map_some]
        have within := isolated.inside _ deleted
        have beyond := delete_extent_leaves_pool (readPool mem) tag _ deleted
        omega
  · intro absent
    have scan : (readPool mem).xBuckets.findIdx? (holds tag) = none := List.findIdx?_eq_none_iff.mpr absent
    have nothing : deleteExtent (readPool mem) tag = none := by rw [deleteExtent, scan, Option.map_none]
    have same : deleteMemory mem tag = mem := by rw [deleteMemory, nothing]
    refine ⟨?_, ?_, by rw [same], ?_, fun other time _ => by rw [same]⟩
    · intro i bucket read held
      rw [absent bucket (List.mem_of_getElem? read)] at held
      cases held
    · intro i bucket read _
      rwa [same]
    · intro extent deleted
      rw [nothing] at deleted
      cases deleted

theorem delete_spares_others_iff (pool : Pool) (tag : Tag) (i : Nat) (ok : PoolOk pool)
    (scan : pool.xBuckets.findIdx? (holds tag) = some i) :
    (∀ (j : Nat) (bucket : Bucket), pool.xBuckets[j]? = some bucket → holds tag bucket = false →
      (deletePool pool tag).xBuckets[j]? = some bucket) ↔
    ∀ (j : Nat) (bucket : Bucket), i < j → pool.xBuckets[j]? = some bucket → bucket = zeroBucket := by
  obtain ⟨matched, read, hit⟩ := scan_hit pool tag i scan
  have size : (pool.xBuckets.take i).length = min i maxBuckets := by rw [List.length_take, pool.sized]
  simp only [deletePool, scan, clearFrom]
  constructor
  · intro spared j bucket later readJ
    have bound : j < maxBuckets := by
      rw [← pool.sized]
      exact (List.getElem?_eq_some_iff.mp readJ).1
    have missed : holds tag bucket = false := by
      rw [holds_iff_key, decide_eq_false_iff_not]
      intro hitJ
      have same := ok.unique j i bucket matched tag readJ read hitJ hit
      omega
    have kept := spared j bucket readJ missed
    rw [List.getElem?_append, if_neg (by omega), List.getElem?_replicate, if_pos (by omega)] at kept
    exact (Option.some.inj kept).symm
  · intro blank j bucket readJ missed
    have bound : j < maxBuckets := by
      rw [← pool.sized]
      exact (List.getElem?_eq_some_iff.mp readJ).1
    have different : j ≠ i := by
      rintro rfl
      rw [Option.some.inj (readJ.symm.trans read), holds_iff_key, hit] at missed
      simp at missed
    rw [List.getElem?_append, List.getElem?_take, List.getElem?_replicate]
    by_cases before : j < i
    · rw [if_pos (by omega), if_pos before, readJ]
    · rw [if_neg (by omega), if_pos (by omega), blank j bucket (by omega) readJ]

def twoSessions : Pool := savePool (savePool emptyPool (sampleTag 97) (timeT 1000)) (sampleTag 98) (timeT 1000)

-- Two users log in, the first one logs out, and the second one is out as well.
theorem logout_ends_other_session :
    Reachable (some (readPool (writePool twoSessions fun _ => 0))) ∧
    (isValidPool (readPool (writePool twoSessions fun _ => 0)) (sampleTag 98) (timeT 1001)).2 = true ∧
    (isValidPool (readPool (deleteMemory (writePool twoSessions fun _ => 0) (sampleTag 97))) (sampleTag 98)
      (timeT 1001)).2 = false ∧
    ¬ LogoutIsolated (writePool twoSessions fun _ => 0) (sampleTag 97) := by
  have before : (isValidPool (readPool (writePool twoSessions fun _ => 0)) (sampleTag 98) (timeT 1001)).2 = true := by
    rw [read_write_pool]
    decide
  have after : (isValidPool (readPool (deleteMemory (writePool twoSessions fun _ => 0) (sampleTag 97)))
      (sampleTag 98) (timeT 1001)).2 = false := by
    rw [delete_memory_pool, read_write_pool]
    decide
  refine ⟨⟨[.save true (sampleTag 97) 1000, .save true (sampleTag 98) 1000], ?_⟩, before, after, ?_⟩
  · rw [read_write_pool]
    rfl
  · intro isolated
    have same := isolated.answers (sampleTag 98) (timeT 1001) (by decide)
    rw [before, after] at same
    cases same

end Ftm50s.Ssid
