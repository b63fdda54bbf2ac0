import Ftm50s.Lib.Text
import Mathlib.Order.Basic
import Mathlib.Algebra.Order.Ring.Int

set_option autoImplicit false

namespace Lib.Decimal

open Lib.Text

def isDigit (c : UInt8) : Bool := 48 ≤ c && c ≤ 57

def decimal (n : Nat) : Bytes := (Nat.toDigits 10 n).map fun c => c.toUInt8

def decimalInt (n : Int) : Bytes := if n < 0 then 45 :: decimal n.natAbs else decimal n.natAbs

def digitsValue (digits : Bytes) : Nat := digits.foldl (fun acc c => 10 * acc + (c.toNat - 48)) 0

def scanNat (text : Bytes) : Option Nat :=
  if text.takeWhile isDigit = [] then none else some (digitsValue (text.takeWhile isDigit))

def clampInt (n : Int) : Int := max (-2147483648) (min 2147483647 n)

-- "%d": white space, one sign at most, then digits; long is 32 bits, so the
-- conversion saturates at the ends of int.
def scanInt (text : Bytes) : Option Int :=
  match text.dropWhile isSpace with
  | [] => none
  | c :: rest =>
      if c = 45 then (scanNat rest).map fun (n : Nat) => clampInt (-(n : Int))
      else if c = 43 then (scanNat rest).map fun (n : Nat) => clampInt (n : Int)
      else (scanNat (c :: rest)).map fun (n : Nat) => clampInt (n : Int)

theorem digit_char_byte (c : Char) (digit : c.isDigit = true) :
    isDigit c.toUInt8 = true ∧ c.toUInt8.toNat = c.toNat := by
  have range : 48 ≤ c.toNat ∧ c.toNat ≤ 57 := by
    simp [Char.isDigit] at digit
    exact digit
  have value : c.toUInt8.toNat = c.toNat := by
    change c.val.toUInt8.toNat = c.val.toNat
    rw [UInt32.toNat_toUInt8]
    exact Nat.mod_eq_of_lt (by change c.toNat < 256; omega)
  refine ⟨?_, value⟩
  simp only [isDigit, Bool.and_eq_true, decide_eq_true_eq, UInt8.le_iff_toNat_le, value]
  exact range

theorem decimal_digits (n : Nat) : ∀ c ∈ decimal n, isDigit c = true := by
  intro c member
  obtain ⟨char, charMember, rfl⟩ := List.mem_map.mp member
  exact (digit_char_byte char (Nat.isDigit_of_mem_toDigits (by decide) (by decide) charMember)).1

theorem decimal_ne_nil (n : Nat) : decimal n ≠ [] := by
  simp [decimal, Nat.toDigits_ne_nil]

theorem digits_value_chars (chars : List Char) (acc : Nat) (digits : ∀ c ∈ chars, c.isDigit = true) :
    (chars.map fun c => c.toUInt8).foldl (fun acc c => 10 * acc + (c.toNat - 48)) acc =
    Nat.ofDigitChars 10 chars acc := by
  induction chars generalizing acc with
  | nil => rfl
  | cons c rest ih =>
      have value := (digit_char_byte c (digits c (by simp))).2
      rw [List.map_cons, List.foldl_cons, value, Nat.ofDigitChars_cons]
      exact ih _ fun other member => digits other (by simp [member])

theorem decimal_value (n : Nat) : digitsValue (decimal n) = n := by
  have digits : ∀ c ∈ Nat.toDigits 10 n, c.isDigit = true := fun c member =>
    Nat.isDigit_of_mem_toDigits (by decide) (by decide) member
  rw [digitsValue, decimal, digits_value_chars (Nat.toDigits 10 n) 0 digits, Nat.ofDigitChars_ten_toDigits]

theorem decimal_injective (a b : Nat) (same : decimal a = decimal b) : a = b := by
  rw [← decimal_value a, same, decimal_value]

theorem digit_not_space (c : UInt8) (digit : isDigit c = true) : isSpace c = false := by
  simp only [isDigit, Bool.and_eq_true, decide_eq_true_eq, UInt8.le_iff_toNat_le] at digit
  have above : ¬ c ≤ 13 := by
    rw [UInt8.le_iff_toNat_le]
    change ¬ c.toNat ≤ 13
    change 48 ≤ c.toNat ∧ _ at digit
    omega
  have other : c ≠ 32 := by
    rintro rfl
    exact absurd digit.1 (by decide)
  simp [isSpace, above, other]

theorem scan_nat_decimal (n : Nat) (rest : Bytes) (stop : ∀ c, rest.head? = some c → isDigit c = false) :
    scanNat (decimal n ++ rest) = some n := by
  have taken : (decimal n ++ rest).takeWhile isDigit = decimal n := by
    rw [List.takeWhile_append_of_pos (decimal_digits n)]
    cases rest with
    | nil => simp
    | cons c tail => simp [stop c rfl]
  rw [scanNat, taken, if_neg (decimal_ne_nil n), decimal_value]

theorem clamp_int_fixed (n : Int) (low : -2147483648 ≤ n) (high : n ≤ 2147483647) : clampInt n = n := by
  rw [clampInt, min_eq_right high, max_eq_right low]

theorem clamp_int_range (n : Int) : -2147483648 ≤ clampInt n ∧ clampInt n ≤ 2147483647 := by
  simp only [clampInt]
  omega

theorem scan_int_range (text : Bytes) (n : Int) (scanned : scanInt text = some n) :
    -2147483648 ≤ n ∧ n ≤ 2147483647 := by
  unfold scanInt at scanned
  repeat' split at scanned
  · cases scanned
  all_goals
    obtain ⟨value, _, rfl⟩ := Option.map_eq_some_iff.mp scanned
    exact clamp_int_range _

theorem decimal_int_length (n : Int) (low : -2147483648 ≤ n) (high : n ≤ 2147483647) : (decimalInt n).length ≤ 11 := by
  have digits : (decimal n.natAbs).length ≤ 10 := by
    rw [decimal, List.length_map, Nat.length_toDigits_le_iff (by decide) (by decide)]
    omega
  unfold decimalInt
  split
  · simp only [List.length_cons]
    omega
  · omega

theorem decimal_int_bytes (n : Int) (c : UInt8) (member : c ∈ decimalInt n) : c = 45 ∨ isDigit c = true := by
  unfold decimalInt at member
  split at member
  · rcases List.mem_cons.mp member with rfl | digit
    · exact Or.inl rfl
    · exact Or.inr (decimal_digits n.natAbs c digit)
  · exact Or.inr (decimal_digits n.natAbs c member)

theorem decimal_int_plain (n : Int) : (10 : UInt8) ∉ decimalInt n ∧ (0 : UInt8) ∉ decimalInt n := by
  constructor
  · intro newline
    rcases decimal_int_bytes n 10 newline with minus | digit
    · cases minus
    · cases digit
  · intro nul
    rcases decimal_int_bytes n 0 nul with minus | digit
    · cases minus
    · cases digit

theorem scan_int_decimal (n : Int) (lead rest : Bytes) (spaces : ∀ c ∈ lead, isSpace c = true)
    (low : -2147483648 ≤ n) (high : n ≤ 2147483647) (stop : ∀ c, rest.head? = some c → isDigit c = false) :
    scanInt (lead ++ (decimalInt n ++ rest)) = some n := by
  have scanned := scan_nat_decimal n.natAbs rest stop
  have skipped : (lead ++ (decimalInt n ++ rest)).dropWhile isSpace = (decimalInt n ++ rest).dropWhile isSpace :=
    List.dropWhile_append_of_pos spaces
  by_cases negative : n < 0
  · have minus : (decimalInt n ++ rest).dropWhile isSpace = 45 :: (decimal n.natAbs ++ rest) := by
      rw [decimalInt, if_pos negative]
      rfl
    have value : -(n.natAbs : Int) = n := by omega
    rw [scanInt, skipped, minus]
    simp only [if_pos, scanned, Option.map_some, value, clamp_int_fixed n low high]
  · obtain ⟨c, tail, digits⟩ := List.exists_cons_of_ne_nil (decimal_ne_nil n.natAbs)
    have digit : isDigit c = true := decimal_digits n.natAbs c (by simp [digits])
    have positive : (decimalInt n ++ rest).dropWhile isSpace = c :: (tail ++ rest) := by
      rw [decimalInt, if_neg negative, digits]
      simp [digit_not_space c digit]
    have value : (n.natAbs : Int) = n := by omega
    have notMinus : c ≠ 45 := by
      rintro rfl
      exact absurd digit (by decide)
    have notPlus : c ≠ 43 := by
      rintro rfl
      exact absurd digit (by decide)
    rw [digits, List.cons_append] at scanned
    rw [scanInt, skipped, positive]
    simp only [if_neg notMinus, if_neg notPlus, scanned, Option.map_some, value, clamp_int_fixed n low high]

end Lib.Decimal
