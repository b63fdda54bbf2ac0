import Ftm50s.Lib.Text
import Mathlib.Data.List.GetD
import Mathlib.Data.Nat.Digits.Lemmas

set_option autoImplicit false

namespace Lib.Hex

open Lib.Text

-- Unsigned numbers in lower-case hexadecimal, as printf writes them
def digit (n : Nat) : UInt8 := UInt8.ofNat (if n < 10 then 48 + n else 87 + n)

def digitValue (c : UInt8) : Nat := if c ≤ 57 then c.toNat - 48 else c.toNat - 87

def isLowerHex (c : UInt8) : Bool := (48 ≤ c && c ≤ 57) || (97 ≤ c && c ≤ 102)

-- "%x"
def hex (n : Nat) : Bytes := if n = 0 then [48] else (Nat.digits 16 n).reverse.map digit

-- "%0*x": the width is a least one.
def paddedHex (width n : Nat) : Bytes := List.replicate (width - (hex n).length) 48 ++ hex n

def value (text : Bytes) : Nat := Nat.ofDigits 16 (text.reverse.map digitValue)

theorem digit_lower : ∀ n < 16, isLowerHex (digit n) = true := by decide

theorem digit_value : ∀ n < 16, digitValue (digit n) = n := by decide

theorem padded_digits (width n : Nat) (positive : 0 < width) :
    paddedHex width n = ((Nat.digitsAppend 16 width n).map digit).reverse := by
  by_cases zero : n = 0
  · obtain ⟨rest, rfl⟩ := Nat.exists_eq_succ_of_ne_zero (Nat.ne_of_gt positive)
    rw [paddedHex, hex, if_pos zero, zero, Nat.digitsAppend]
    have front : List.replicate (rest + 1) (48 : UInt8) = List.replicate rest 48 ++ [48] := List.replicate_succ'
    simp [digit, ← front, List.replicate_succ]
  · rw [paddedHex, hex, if_neg zero, Nat.digitsAppend]
    simp [digit]

theorem padded_length (width n : Nat) (positive : 0 < width) (fits : n < 16 ^ width) :
    (paddedHex width n).length = width := by
  rw [padded_digits width n positive, List.length_reverse, List.length_map, Nat.length_digitsAppend (by decide) _ fits]

theorem padded_lower (width n : Nat) (positive : 0 < width) : ∀ c ∈ paddedHex width n, isLowerHex c = true := by
  intro c member
  rw [padded_digits width n positive, List.mem_reverse, List.mem_map] at member
  obtain ⟨d, inside, rfl⟩ := member
  exact digit_lower d (Nat.lt_of_mem_digitsAppend (by decide) _ _ inside)

theorem value_padded (width n : Nat) (positive : 0 < width) : value (paddedHex width n) = n := by
  have small : ∀ d ∈ Nat.digitsAppend 16 width n, (digitValue ∘ digit) d = id d := fun d inside =>
    digit_value d (Nat.lt_of_mem_digitsAppend (by decide) _ _ inside)
  rw [value, padded_digits width n positive, List.reverse_reverse, List.map_map, List.map_congr_left small, List.map_id,
    Nat.digitsAppend, Nat.ofDigits_append_replicate_zero, Nat.ofDigits_digits]

theorem padded_injective (width a b : Nat) (positive : 0 < width) (same : paddedHex width a = paddedHex width b) :
    a = b := by
  rw [← value_padded width a positive, same, value_padded width b positive]

theorem padded_fixed (width n : Nat) (positive : 0 < width) (fits : n < 16 ^ width) :
    paddedHex width n = (List.range width).map fun i => digit (n / 16 ^ (width - 1 - i) % 16) := by
  have length := Nat.length_digitsAppend (b := 16) (by decide) width fits
  rw [padded_digits width n positive]
  apply List.ext_getElem (by simp [length])
  intro i left right
  have bound : i < width := by simpa using right
  have read : ∀ j (inside : j < (Nat.digitsAppend 16 width n).length), (Nat.digitsAppend 16 width n)[j] =
    n / 16 ^ j % 16 := by
    intro j inside
    rw [← Nat.getD_digits n j (by decide), ← List.getD_eq_getElem _ 0 inside, Nat.digitsAppend]
    by_cases within : j < (Nat.digits 16 n).length
    · rw [List.getD_append _ _ _ _ within]
    · rw [List.getD_append_right _ _ _ _ (Nat.le_of_not_lt within), List.getD_eq_default _ _ (Nat.le_of_not_lt within)]
      simp
  simp only [List.getElem_reverse, List.getElem_map, List.getElem_range, List.length_map, read, length]

end Lib.Hex
