import Ftm50s.Lib.Text

set_option autoImplicit false

namespace Lib.Mem

open Lib.Text

-- Bytes by offset from the start of an object. Offsets past the object's size
-- are ordinary addresses here, so that a stray write stays visible.
abbrev Memory := Nat → UInt8

structure Extent where
  start : Nat
  length : Nat
deriving DecidableEq, Repr

def memset (mem : Memory) (extent : Extent) (value : UInt8) : Memory := fun address =>
  if extent.start ≤ address ∧ address < extent.start + extent.length then value else mem address

def readBytes (mem : Memory) (address count : Nat) : Bytes := (List.range count).map fun i => mem (address + i)

-- The target is little-endian.
def readWord (mem : Memory) (address : Nat) : BitVec 32 :=
  (mem (address + 3)).toBitVec ++ (mem (address + 2)).toBitVec ++ (mem (address + 1)).toBitVec ++ (mem address).toBitVec

def wordByte (word : BitVec 32) (i : Nat) : UInt8 := ⟨word.extractLsb' (8 * i) 8⟩

theorem memset_outside (mem : Memory) (extent : Extent) (value : UInt8) (address : Nat)
    (outside : address < extent.start ∨ extent.start + extent.length ≤ address) :
    memset mem extent value address = mem address := by
  rw [memset, if_neg (by omega)]

theorem memset_inside (mem : Memory) (extent : Extent) (value : UInt8) (address : Nat)
    (after : extent.start ≤ address) (before : address < extent.start + extent.length) :
    memset mem extent value address = value := by
  rw [memset, if_pos ⟨after, before⟩]

theorem read_bytes_congr (a b : Memory) (addressA addressB count : Nat)
    (same : ∀ i, i < count → a (addressA + i) = b (addressB + i)) :
    readBytes a addressA count = readBytes b addressB count := by
  apply List.map_congr_left
  intro i member
  exact same i (List.mem_range.mp member)

theorem read_word_congr (a b : Memory) (addressA addressB : Nat)
    (same : ∀ i, i < 4 → a (addressA + i) = b (addressB + i)) : readWord a addressA = readWord b addressB := by
  have first := same 0 (by decide)
  simp only [Nat.add_zero] at first
  simp only [readWord, first, same 1 (by decide), same 2 (by decide), same 3 (by decide)]

theorem read_word_bytes (mem : Memory) (address : Nat) (word : BitVec 32)
    (stored : ∀ i, i < 4 → mem (address + i) = wordByte word i) : readWord mem address = word := by
  have first := stored 0 (by decide)
  simp only [Nat.add_zero] at first
  simp only [readWord, first, stored 1 (by decide), stored 2 (by decide), stored 3 (by decide), wordByte]
  apply BitVec.eq_of_getLsbD_eq
  intro i bound
  simp only [BitVec.getLsbD_append, BitVec.getLsbD_extractLsb']
  by_cases byte0 : i < 8
  · simp [byte0]
  · by_cases byte1 : i - 8 < 8
    · rw [if_neg byte0, if_pos byte1, show 8 * 1 + (i - 8) = i by omega]
      simp [byte1]
    · by_cases byte2 : i - 8 - 8 < 8
      · rw [if_neg byte0, if_neg byte1, if_pos byte2, show 8 * 2 + (i - 8 - 8) = i by omega]
        simp [byte2]
      · rw [if_neg byte0, if_neg byte1, if_neg byte2, show 8 * 3 + (i - 8 - 8 - 8) = i by omega]
        simp [show i - 8 - 8 - 8 < 8 by omega]

theorem word_byte_read (mem : Memory) (address i : Nat) (bound : i < 4) :
    wordByte (readWord mem address) i = mem (address + i) := by
  apply UInt8.toBitVec_inj.mp
  apply BitVec.eq_of_getLsbD_eq
  intro j inside
  simp only [wordByte, readWord, BitVec.getLsbD_extractLsb', BitVec.getLsbD_append, inside]
  rcases (show i = 0 ∨ i = 1 ∨ i = 2 ∨ i = 3 by omega) with rfl | rfl | rfl | rfl
  · simp [inside]
  · simp [inside, show ¬ 8 + j < 8 by omega]
  · simp [inside, show ¬ 16 + j < 8 by omega, show ¬ 16 + j - 8 < 8 by omega, show 16 + j - 8 - 8 = j by omega]
  · simp [inside, show ¬ 24 + j < 8 by omega, show ¬ 24 + j - 8 < 8 by omega, show ¬ 24 + j - 8 - 8 < 8 by omega,
      show 24 + j - 8 - 8 - 8 = j by omega]

theorem read_bytes_list (mem : Memory) (address : Nat) (bytes : Bytes)
    (stored : ∀ i, i < bytes.length → mem (address + i) = bytes.getD i 0) :
    readBytes mem address bytes.length = bytes := by
  apply List.ext_getElem
  · simp [readBytes]
  · intro i _ bound
    simp [readBytes, stored i bound, bound]

end Lib.Mem
