import Ftm50s.Lib.SlotTable
import Ftm50s.Lib.Text

set_option autoImplicit false

namespace Ftm50s.Ssid

open Lib.Text Lib.SlotTable

def maxBuckets : Nat := 100

-- time_t and int are 32 bits wide on the target, so both are machine words;
-- BitVec's order is the unsigned one and toInt the signed reading.
abbrev Word := BitVec 32

def validTime : Word := 600#32

structure Tag where
  bytes : Bytes
  sized : bytes.length = 32
deriving DecidableEq, Repr

def zeroTag : Tag := ⟨List.replicate 32 0, rfl⟩

structure Bucket where
  bValid : Word
  szTag : Tag
  xExpiredDate : Word
deriving DecidableEq, Repr

def zeroBucket : Bucket := ⟨0#32, zeroTag, 0#32⟩

structure Pool where
  nValidTime : Word
  xBuckets : List Bucket
  sized : xBuckets.length = maxBuckets
deriving DecidableEq

-- The shared segment: absent until some FTMC_GetPool creates it.
abbrev Shm := Option Pool

def holds (tag : Tag) (bucket : Bucket) : Bool := decide (bucket.bValid = 1#32 ∧ bucket.szTag = tag)

def emptyPool : Pool := ⟨validTime, List.replicate maxBuckets zeroBucket, List.length_replicate⟩

-- IPC_CREAT can fail; the validity time is written again on every call.
def getPool (creatable : Bool) : Shm → Option Pool
  | some pool => some { pool with nValidTime := validTime }
  | none => if creatable then some emptyPool else none

-- The second loop of FTMC_SaveSSID with its two accumulators: a free bucket
-- ends it at once, otherwise it ends with the bucket remembered as oldest.
def claimIndex : List Bucket → Nat → Nat → Word → Nat
  | [], _, nOldest, _ => nOldest
  | bucket :: rest, i, nOldest, uOldest =>
      if bucket.bValid = 0#32 then i
      else if bucket.xExpiredDate < uOldest then claimIndex rest (i + 1) i bucket.xExpiredDate
      else claimIndex rest (i + 1) nOldest uOldest

def refresh (pool : Pool) (i : Nat) (time : Word) : Pool :=
  { pool with
    xBuckets := pool.xBuckets.modify i fun bucket => { bucket with xExpiredDate := time + pool.nValidTime }
    sized := by rw [List.length_modify, pool.sized] }

def occupy (pool : Pool) (i : Nat) (tag : Tag) (time : Word) : Pool :=
  { pool with
    xBuckets := pool.xBuckets.set i ⟨1#32, tag, time + pool.nValidTime⟩
    sized := by rw [List.length_set, pool.sized] }

def savePool (pool : Pool) (tag : Tag) (time : Word) : Pool :=
  match pool.xBuckets.findIdx? (holds tag) with
  | some i => refresh pool i time
  | none => occupy pool (claimIndex pool.xBuckets 0 0 0#32) tag time

def saveSSID (creatable : Bool) (shm : Shm) (tag : Tag) (time : Word) : Shm × Int :=
  match getPool creatable shm with
  | none => (shm, -1)
  | some pool => (some (savePool pool tag time), 0)

-- The memset of FTMC_DeleteSSID starts at the matched bucket and is as long as
-- the whole pool, so it clears every bucket from there on.
def clearFrom (pool : Pool) (i : Nat) : Pool :=
  { pool with
    xBuckets := pool.xBuckets.take i ++ List.replicate (maxBuckets - i) zeroBucket
    sized := by
      have full := pool.sized
      simp only [maxBuckets] at full ⊢
      simp only [List.length_append, List.length_take, List.length_replicate]
      omega }

def deletePool (pool : Pool) (tag : Tag) : Pool :=
  match pool.xBuckets.findIdx? (holds tag) with
  | some i => clearFrom pool i
  | none => pool

def deleteSSID (shm : Shm) (tag : Tag) : Shm := shm.map (deletePool · tag)

def sweepBucket (nValidTime time : Word) (bucket : Bucket) : Bucket :=
  if bucket.bValid = 1#32 then
    if bucket.xExpiredDate - time > nValidTime then zeroBucket else bucket
  else bucket

def sweepPool (pool : Pool) (time : Word) : Pool :=
  { pool with
    xBuckets := pool.xBuckets.map (sweepBucket pool.nValidTime time)
    sized := by rw [List.length_map, pool.sized] }

-- The lookup's own test: a signed difference within the validity time.
def inWindow (nValidTime expired time : Word) : Bool :=
  decide (0 ≤ (expired - time).toInt ∧ (expired - time).toInt ≤ nValidTime.toInt)

def isValidPool (pool : Pool) (tag : Tag) (time : Word) : Pool × Bool :=
  match pool.xBuckets.find? (holds tag) with
  | some bucket =>
      if inWindow pool.nValidTime bucket.xExpiredDate time then (pool, true) else (sweepPool pool time, false)
  | none => (sweepPool pool time, false)

def isValidSSID (shm : Shm) (tag : Tag) (time : Word) : Shm × Bool :=
  match shm with
  | none => (none, false)
  | some pool => let (next, verdict) := isValidPool pool tag time; (some next, verdict)

def touchPool (pool : Pool) (tag : Tag) (time : Word) : Pool × Bool :=
  match pool.xBuckets.findIdx? (holds tag) with
  | some i => (refresh pool i time, true)
  | none => (pool, false)

def touchSSID (shm : Shm) (tag : Tag) (time : Word) : Shm × Bool :=
  match shm with
  | none => (none, false)
  | some pool => let (next, verdict) := touchPool pool tag time; (some next, verdict)

end Ftm50s.Ssid
