import Ftm50s.Lib.Text
import Mathlib.Algebra.Order.Ring.Nat

set_option autoImplicit false

namespace Lib.BigEndian

open Lib.Text

-- The low bytes of a number, the most significant of them first
def encode : Nat → Nat → Bytes
  | 0, _ => []
  | width + 1, n => encode width (n / 256) ++ [UInt8.ofNat n]

def decode (bytes : Bytes) : Nat := bytes.foldl (fun value b => value * 256 + b.toNat) 0

theorem encode_length (width n : Nat) : (encode width n).length = width := by
  induction width generalizing n with
  | zero => rfl
  | succ width ih => rw [encode, List.length_append, ih, List.length_singleton]

theorem decode_snoc (front : Bytes) (b : UInt8) : decode (front ++ [b]) = decode front * 256 + b.toNat := by
  rw [decode, List.foldl_append]
  rfl

theorem decode_encode (width n : Nat) (fits : n < 256 ^ width) : decode (encode width n) = n := by
  induction width generalizing n with
  | zero =>
      rw [pow_zero] at fits
      obtain rfl : n = 0 := by omega
      rfl
  | succ width ih =>
      have front : n / 256 < 256 ^ width := by
        rw [pow_succ] at fits
        exact Nat.div_lt_of_lt_mul (by rwa [Nat.mul_comm])
      rw [encode, decode_snoc, ih _ front, UInt8.toNat_ofNat']
      omega

end Lib.BigEndian
