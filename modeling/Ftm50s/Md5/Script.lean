import Ftm50s.Forms.Validation
import Ftm50s.Lib.Hex
import Ftm50s.Md5.Context

set_option autoImplicit false

namespace Ftm50s.Md5.Script

open Ftm50s.Forms

-- A number of the script, an integer below 2^53 in size throughout; none is an
-- element that an array does not have. The operators on bits take it to zero.
abbrev Value := Option Int

def toInt32 : Value → BitVec 32
  | some n => BitVec.ofInt 32 n
  | none => 0

def signed (word : BitVec 32) : Value := some word.toInt

def bitAnd (x y : Value) : Value := signed (toInt32 x &&& toInt32 y)
def bitOr (x y : Value) : Value := signed (toInt32 x ||| toInt32 y)
def bitXor (x y : Value) : Value := signed (toInt32 x ^^^ toInt32 y)
def bitNot (x : Value) : Value := signed (~~~toInt32 x)

-- <<, and >>> with its unsigned result; both take the low five bits of the count.
def shiftLeft (x : Value) (count : Nat) : Value := signed (toInt32 x <<< (count % 32))
def shiftRight (x : Value) (count : Nat) : Value := some (toInt32 x >>> (count % 32)).toNat

def plus (x y : Value) : Value := x.bind fun a => y.map fun b => a + b

def truthy (x : Value) : Bool := x.any (· != 0)

def rotateLeft (lValue : Value) (iShiftBits : Nat) : Value :=
  bitOr (shiftLeft lValue iShiftBits) (shiftRight lValue (32 - iShiftBits))

def addUnsigned (lX lY : Value) : Value :=
  let lX8 := bitAnd lX (some 0x80000000)
  let lY8 := bitAnd lY (some 0x80000000)
  let lX4 := bitAnd lX (some 0x40000000)
  let lY4 := bitAnd lY (some 0x40000000)
  let lResult := plus (bitAnd lX (some 0x3FFFFFFF)) (bitAnd lY (some 0x3FFFFFFF))
  if truthy (bitAnd lX4 lY4) then bitXor (bitXor (bitXor lResult (some 0x80000000)) lX8) lY8
  else if truthy (bitOr lX4 lY4) then
    if truthy (bitAnd lResult (some 0x40000000)) then bitXor (bitXor (bitXor lResult (some 0xC0000000)) lX8) lY8
    else bitXor (bitXor (bitXor lResult (some 0x40000000)) lX8) lY8
  else bitXor (bitXor lResult lX8) lY8

def F (x y z : Value) : Value := bitOr (bitAnd x y) (bitAnd (bitNot x) z)
def G (x y z : Value) : Value := bitOr (bitAnd x z) (bitAnd y (bitNot z))
def H (x y z : Value) : Value := bitXor (bitXor x y) z
def I (x y z : Value) : Value := bitXor y (bitOr x (bitNot z))

def roundFunction : Round → Value → Value → Value → Value
  | .F => F
  | .G => G
  | .H => H
  | .I => I

-- The functions FF, GG, HH and II
def scriptLine : Line Value Value := fun round r x s ac =>
  let a := addUnsigned r.a (addUnsigned (addUnsigned (roundFunction round r.b r.c r.d) x) (some ac))
  addUnsigned (rotateLeft a s) r.b

def operations : List Operation :=
  [ff .a 0 S11 0xD76AA478, ff .d 1 S12 0xE8C7B756, ff .c 2 S13 0x242070DB, ff .b 3 S14 0xC1BDCEEE,
    ff .a 4 S11 0xF57C0FAF, ff .d 5 S12 0x4787C62A, ff .c 6 S13 0xA8304613, ff .b 7 S14 0xFD469501,
    ff .a 8 S11 0x698098D8, ff .d 9 S12 0x8B44F7AF, ff .c 10 S13 0xFFFF5BB1, ff .b 11 S14 0x895CD7BE,
    ff .a 12 S11 0x6B901122, ff .d 13 S12 0xFD987193, ff .c 14 S13 0xA679438E, ff .b 15 S14 0x49B40821,
    gg .a 1 S21 0xF61E2562, gg .d 6 S22 0xC040B340, gg .c 11 S23 0x265E5A51, gg .b 0 S24 0xE9B6C7AA,
    gg .a 5 S21 0xD62F105D, gg .d 10 S22 0x2441453, gg .c 15 S23 0xD8A1E681, gg .b 4 S24 0xE7D3FBC8,
    gg .a 9 S21 0x21E1CDE6, gg .d 14 S22 0xC33707D6, gg .c 3 S23 0xF4D50D87, gg .b 8 S24 0x455A14ED,
    gg .a 13 S21 0xA9E3E905, gg .d 2 S22 0xFCEFA3F8, gg .c 7 S23 0x676F02D9, gg .b 12 S24 0x8D2A4C8A,
    hh .a 5 S31 0xFFFA3942, hh .d 8 S32 0x8771F681, hh .c 11 S33 0x6D9D6122, hh .b 14 S34 0xFDE5380C,
    hh .a 1 S31 0xA4BEEA44, hh .d 4 S32 0x4BDECFA9, hh .c 7 S33 0xF6BB4B60, hh .b 10 S34 0xBEBFBC70,
    hh .a 13 S31 0x289B7EC6, hh .d 0 S32 0xEAA127FA, hh .c 3 S33 0xD4EF3085, hh .b 6 S34 0x4881D05,
    hh .a 9 S31 0xD9D4D039, hh .d 12 S32 0xE6DB99E5, hh .c 15 S33 0x1FA27CF8, hh .b 2 S34 0xC4AC5665,
    ii .a 0 S41 0xF4292244, ii .d 7 S42 0x432AFF97, ii .c 14 S43 0xAB9423A7, ii .b 5 S44 0xFC93A039,
    ii .a 12 S41 0x655B59C3, ii .d 3 S42 0x8F0CCC92, ii .c 10 S43 0xFFEFF47D, ii .b 1 S44 0x85845DD1,
    ii .a 8 S41 0x6FA87E4F, ii .d 15 S42 0xFE2CE6E0, ii .c 6 S43 0xA3014314, ii .b 13 S44 0x4E0811A1,
    ii .a 4 S41 0xF7537E82, ii .d 11 S42 0xBD3AF235, ii .c 2 S43 0x2AD7D2BB, ii .b 9 S44 0xEB86D391]

-- An array and a store into it; a store past the end leaves a gap of holes.
def element (array : List Value) (i : Nat) : Value := (array[i]?).getD none

def store (array : List Value) (i : Nat) (value : Value) : List Value :=
  if i < array.length then array.set i value else array ++ List.replicate (i - array.length) none ++ [value]

-- lWordArray[lWordCount] | (code << lBytePosition), stored back
def orByte (lWordArray : List Value) (lByteCount : Nat) (code : Int) : List Value :=
  let lWordCount := (lByteCount - lByteCount % 4) / 4
  let lBytePosition := lByteCount % 4 * 8
  store lWordArray lWordCount (bitOr (element lWordArray lWordCount) (shiftLeft (some code) lBytePosition))

-- string.charCodeAt(n)
def charCodeAt (string : JsString) (n : Nat) : Int := (string.getD n 0).toNat

def numberOfWords (lMessageLength : Nat) : Nat :=
  let temp1 := lMessageLength + 8
  let temp2 := (temp1 - temp1 % 64) / 64
  (temp2 + 1) * 16

def convertToWordArray (string : JsString) : List Value :=
  let lMessageLength := string.length
  let lNumberOfWords := numberOfWords lMessageLength
  let empty : List Value := List.replicate (lNumberOfWords - 1) none
  let filled := (List.range lMessageLength).foldl (fun words n => orByte words n (charCodeAt string n)) empty
  let marked := orByte filled lMessageLength 0x80
  let low := store marked (lNumberOfWords - 2) (shiftLeft (some lMessageLength) 3)
  store low (lNumberOfWords - 1) (shiftRight (some lMessageLength) 29)

-- ("0" + lByte.toString(16)).substr(length - 2, 2)
def byteToHex (lByte : Nat) : JsString :=
  let temp := js "0" ++ (Lib.Hex.hex lByte).map UInt8.toUInt16
  (temp.drop (temp.length - 2)).take 2

def wordToHex (lValue : Value) : JsString :=
  (List.range 4).foldl
    (fun text lCount => text ++ byteToHex (toInt32 (bitAnd (shiftRight lValue (lCount * 8)) (some 255))).toNat) []

-- string.replace(/\r\n/g, "\n")
def dropReturns : JsString → JsString
  | 13 :: 10 :: rest => 10 :: dropReturns rest
  | c :: rest => c :: dropReturns rest
  | [] => []

def utf8Unit (c : UInt16) : JsString :=
  if c < 128 then [c]
  else if 127 < c && c < 2048 then [(c >>> 6) ||| 192, (c &&& 63) ||| 128]
  else [(c >>> 12) ||| 224, ((c >>> 6) &&& 63) ||| 128, (c &&& 63) ||| 128]

def utf8Encode (string : JsString) : JsString := (dropReturns string).flatMap utf8Unit

def toLowerCase (text : JsString) : JsString := text.map fun c => if 65 ≤ c && c ≤ 90 then c + 32 else c

def initial : Registers Value := ⟨some 0x67452301, some 0xEFCDAB89, some 0x98BADCFE, some 0x10325476⟩

-- One turn of the loop over x, sixteen words from k on
def turn (x : List Value) (r : Registers Value) (k : Nat) : Registers Value :=
  let after := operations.foldl (perform scriptLine fun i => element x (k + i)) r
  ⟨addUnsigned after.a r.a, addUnsigned after.b r.b, addUnsigned after.c r.c, addUnsigned after.d r.d⟩

-- for (k = 0; k < x.length; k += 16)
def turns (x : List Value) (r : Registers Value) : Registers Value :=
  (List.range ((x.length + 15) / 16)).foldl (fun r n => turn x r (16 * n)) r

def MD5 (string : JsString) : JsString :=
  let r := turns (convertToWordArray (utf8Encode string)) initial
  toLowerCase (wordToHex r.a ++ wordToHex r.b ++ wordToHex r.c ++ wordToHex r.d)

theorem xor_disjoint {w : Nat} (x y : BitVec w) (disjoint : x &&& y = 0) : x ^^^ y = x + y := by
  rw [BitVec.add_eq_or_of_and_eq_zero x y disjoint]
  apply BitVec.eq_of_getLsbD_eq
  intro i bound
  have apart := congrArg (BitVec.getLsbD · i) disjoint
  simp only [BitVec.getLsbD_and, BitVec.ofNat_eq_ofNat, BitVec.getLsbD_zero] at apart
  rw [BitVec.getLsbD_xor, BitVec.getLsbD_or]
  cases left : x.getLsbD i <;> cases right : y.getLsbD i <;> simp_all

theorem xor_covered {w : Nat} (x y : BitVec w) (covered : x &&& y = y) : (x ^^^ y) + y = x := by
  have apart : (x ^^^ y) &&& y = 0 := by
    apply BitVec.eq_of_getLsbD_eq
    intro i bound
    have inside := congrArg (BitVec.getLsbD · i) covered
    simp only [BitVec.getLsbD_and] at inside
    simp only [BitVec.getLsbD_and, BitVec.getLsbD_xor, BitVec.ofNat_eq_ofNat, BitVec.getLsbD_zero]
    cases left : x.getLsbD i <;> cases right : y.getLsbD i <;> simp_all
  rw [← xor_disjoint _ _ apart, BitVec.xor_assoc, BitVec.xor_self, BitVec.xor_zero]

theorem and_top (x : BitVec 32) : x &&& 0x80000000#32 = 0#32 ∨ x &&& 0x80000000#32 = 0x80000000#32 := by
  have bit := BitVec.and_twoPow x 31
  change x &&& 0x80000000#32 = if x.getLsbD 31 then 0x80000000#32 else 0#32 at bit
  rw [bit]
  split
  · exact Or.inr rfl
  · exact Or.inl rfl

theorem and_second (x : BitVec 32) : x &&& 0x40000000#32 = 0#32 ∨ x &&& 0x40000000#32 = 0x40000000#32 := by
  have bit := BitVec.and_twoPow x 30
  change x &&& 0x40000000#32 = if x.getLsbD 30 then 0x40000000#32 else 0#32 at bit
  rw [bit]
  split
  · exact Or.inr rfl
  · exact Or.inl rfl

-- At the top bit there is nowhere to carry to.
theorem xor_top (x : BitVec 32) : x ^^^ 0x80000000#32 = x + 0x80000000#32 := by
  rcases and_top x with clear | set
  · exact xor_disjoint x _ clear
  · have back := xor_covered x 0x80000000#32 set
    generalize x ^^^ 0x80000000#32 = y at back ⊢
    rw [← back]
    bv_omega

theorem xor_top_part (x y : BitVec 32) : x ^^^ (y &&& 0x80000000#32) = x + (y &&& 0x80000000#32) := by
  rcases and_top y with clear | set
  · rw [clear]
    simp
  · rw [set, xor_top]

theorem xor_second_set (x : BitVec 32) (set : x &&& 0x40000000#32 = 0x40000000#32) :
    x ^^^ 0xC0000000#32 = x + 0x40000000#32 := by
  have back := xor_covered x 0x40000000#32 set
  have both : x ^^^ 0xC0000000#32 = (x ^^^ 0x40000000#32) ^^^ 0x80000000#32 := by
    rw [BitVec.xor_assoc]
    rfl
  rw [both, xor_top]
  generalize x ^^^ 0x40000000#32 = y at back ⊢
  rw [← back]
  bv_omega

theorem second_carried (r x8 y8 : BitVec 32) :
    (if r &&& 0x40000000#32 ≠ 0 then (r ^^^ 0xC0000000#32) + x8 + y8 else (r ^^^ 0x40000000#32) + x8 + y8) =
      r + 0x40000000#32 + x8 + y8 := by
  rcases and_second r with clear | set
  · rw [if_neg (by rw [clear]; decide), xor_disjoint r _ clear]
  · rw [if_pos (by rw [set]; decide), xor_second_set r set]

theorem masked_disjoint {w : Nat} (x a b : BitVec w) (disjoint : a &&& b = 0) : (x &&& a) &&& (x &&& b) = 0 := by
  rw [BitVec.and_assoc, BitVec.and_comm x b, ← BitVec.and_assoc a, disjoint]
  simp

theorem word_parts (x : BitVec 32) : x = (x &&& 0xC0000000#32) + (x &&& 0x3FFFFFFF#32) ∧
    x &&& 0xC0000000#32 = (x &&& 0x80000000#32) + (x &&& 0x40000000#32) := by
  have join : ∀ a b : BitVec 32, a &&& b = 0 → x &&& (a ||| b) = (x &&& a) + (x &&& b) := by
    intro a b disjoint
    rw [BitVec.add_eq_or_of_and_eq_zero _ _ (masked_disjoint x a b disjoint)]
    apply BitVec.eq_of_getLsbD_eq
    intro i bound
    simp only [BitVec.getLsbD_and, BitVec.getLsbD_or, Bool.and_or_distrib_left]
  constructor
  · rw [← join _ _ (by decide)]
    exact (BitVec.and_allOnes (x := x)).symm
  · exact join 0x80000000#32 0x40000000#32 (by decide)

theorem int32_signed (word : BitVec 32) : toInt32 (signed word) = word := BitVec.ofInt_toInt

theorem truthy_signed (word : BitVec 32) : truthy (signed word) = true ↔ word ≠ 0 := by
  have zero : word.toInt = 0 ↔ word = 0 := by
    rw [← BitVec.toInt_inj]
    rfl
  simp [truthy, signed, zero]

theorem int32_plus (x y : BitVec 32) : toInt32 (plus (signed x) (signed y)) = x + y := by
  change BitVec.ofInt 32 (x.toInt + y.toInt) = x + y
  rw [BitVec.ofInt_add, BitVec.ofInt_toInt, BitVec.ofInt_toInt]

theorem add_by_parts (x y : BitVec 32) :
    (if x &&& 0x40000000#32 &&& (y &&& 0x40000000#32) ≠ 0 then
      (x &&& 0x3FFFFFFF#32) + (y &&& 0x3FFFFFFF#32) ^^^ 0x80000000#32 ^^^ x &&& 0x80000000#32 ^^^ y &&& 0x80000000#32
    else if x &&& 0x40000000#32 ||| y &&& 0x40000000#32 ≠ 0 then
      if (x &&& 0x3FFFFFFF#32) + (y &&& 0x3FFFFFFF#32) &&& 0x40000000#32 ≠ 0 then
        (x &&& 0x3FFFFFFF#32) + (y &&& 0x3FFFFFFF#32) ^^^ 0xC0000000#32 ^^^ x &&& 0x80000000#32 ^^^ y &&& 0x80000000#32
      else (x &&& 0x3FFFFFFF#32) + (y &&& 0x3FFFFFFF#32) ^^^ 0x40000000#32 ^^^ x &&& 0x80000000#32 ^^^ y &&&
      0x80000000#32
    else (x &&& 0x3FFFFFFF#32) + (y &&& 0x3FFFFFFF#32) ^^^ x &&& 0x80000000#32 ^^^ y &&& 0x80000000#32) = x + y := by
  obtain ⟨xWhole, xTop⟩ := word_parts x
  obtain ⟨yWhole, yTop⟩ := word_parts y
  rw [xTop] at xWhole
  rw [yTop] at yWhole
  simp only [xor_top_part]
  generalize x &&& 0x80000000#32 = x8 at *
  generalize y &&& 0x80000000#32 = y8 at *
  generalize x &&& 0x3FFFFFFF#32 = low at *
  generalize y &&& 0x3FFFFFFF#32 = other at *
  rcases and_second x with x4 | x4 <;> rcases and_second y with y4 | y4 <;> rw [x4] at xWhole ⊢ <;> rw [y4] at yWhole ⊢
  · rw [if_neg (by decide), if_neg (by decide), xWhole, yWhole]
    bv_omega
  · rw [if_neg (by decide), if_pos (by decide), second_carried, xWhole, yWhole]
    bv_omega
  · rw [if_neg (by decide), if_pos (by decide), second_carried, xWhole, yWhole]
    bv_omega
  · rw [if_pos (by decide), xor_top, xWhole, yWhole]
    bv_omega

theorem int32_add_unsigned (x y : Value) : toInt32 (addUnsigned x y) = toInt32 x + toInt32 y := by
  have constant : ∀ n : Int, toInt32 (some n) = BitVec.ofInt 32 n := fun n => rfl
  rw [← add_by_parts]
  simp only [addUnsigned, bitAnd, bitOr, bitXor, int32_signed, int32_plus, apply_ite toInt32, truthy_signed, constant,
    BitVec.reduceOfInt]

theorem int32_unsigned (word : BitVec 32) : toInt32 (some (word.toNat : Int)) = word := by
  change BitVec.ofInt 32 (word.toNat : Int) = word
  rw [BitVec.ofInt_natCast, BitVec.ofNat_toNat, BitVec.setWidth_eq]

theorem int32_rotate_left (x : Value) (s : Nat) (positive : 0 < s) (small : s < 32) :
    toInt32 (rotateLeft x s) = ROTATE_LEFT (toInt32 x) s := by
  rw [rotateLeft, bitOr, int32_signed, shiftLeft, int32_signed, shiftRight, int32_unsigned, Nat.mod_eq_of_lt small,
    Nat.mod_eq_of_lt (by omega)]
  rfl

theorem int32_round_function (round : Round) (x y z : Value) :
    toInt32 (roundFunction round x y z) = Md5.roundFunction round (toInt32 x) (toInt32 y) (toInt32 z) := by
  cases round <;>
    simp only [roundFunction, Md5.roundFunction, F, G, H, I, Md5.F, Md5.G, Md5.H, Md5.I, bitAnd, bitOr, bitXor, bitNot,
      int32_signed]

theorem int32_line (round : Round) (r : Registers Value) (x : Value) (s ac : Nat) (positive : 0 < s) (small : s < 32) :
    toInt32 (scriptLine round r x s ac) = cLine round (r.map toInt32) (toInt32 x) s ac := by
  have constant : toInt32 (some (ac : Int)) = BitVec.ofNat 32 ac := BitVec.ofInt_natCast 32 ac
  simp only [scriptLine, cLine, int32_add_unsigned, int32_rotate_left _ s positive small, int32_round_function,
    constant,
    Registers.map]

theorem same_operations : operations = Md5.operations := by decide

theorem int32_turn (x : List Value) (r : Registers Value) (k : Nat) :
    (turn x r k).map toInt32 = transform (r.map toInt32) fun i => toInt32 (element x (k + i)) := by
  have lines := perform_simulates toInt32 toInt32 scriptLine cLine int32_line (fun i => element x (k + i)) r operations
    (by rw [same_operations]; exact operations_shift)
  rw [same_operations] at lines
  rw [turn, transform, ← lines, same_operations]
  simp only [Registers.map, int32_add_unsigned, BitVec.add_comm]

end Ftm50s.Md5.Script
