import Ftm50s.Lib.Pattern
import Mathlib.Algebra.Group.Nat.Defs
import Mathlib.Data.List.Induction
import Mathlib.Tactic.Common

set_option autoImplicit false

namespace Ftm50s.Forms

open Lib.Pattern

-- The value of a field: the script sees code units of 16 bits.
abbrev JsString := List UInt16

def js (text : String) : JsString := text.toList.map fun c => c.toNat.toUInt16

-- \s: the white space and the line ends of the language
def isJsSpace (c : UInt16) : Bool :=
  (9 ≤ c && c ≤ 13) || c == 32 || c == 0xA0 || c == 0x1680 || (0x2000 ≤ c && c ≤ 0x200A) || c == 0x2028 ||
    c == 0x2029 ||
    c == 0x202F || c == 0x205F || c == 0x3000 || c == 0xFEFF

-- \d
def isDigit (c : UInt16) : Bool := 48 ≤ c && c ≤ 57

def isHexDigit (c : UInt16) : Bool := isDigit c || (97 ≤ c && c ≤ 102) || (65 ≤ c && c ≤ 70)

def getValue (value : JsString) : JsString := value.filter (!isJsSpace ·)

-- /^[0-9a-fA-F]{1,2}(:[0-9a-fA-F]{1,2}){5}$/
def macPattern : List (Piece UInt16) :=
  ⟨isHexDigit, 1, 2⟩ :: (List.replicate 5 [letter (· == 58), ⟨isHexDigit, 1, 2⟩]).flatten

-- /^(\d{1,3})\.(\d{1,3})\.(\d{1,3})\.(\d{1,3})$/
def ipPattern : List (Piece UInt16) :=
  [⟨isDigit, 1, 3⟩, letter (· == 46), ⟨isDigit, 1, 3⟩, letter (· == 46), ⟨isDigit, 1, 3⟩, letter (· == 46),
    ⟨isDigit, 1, 3⟩]

-- /^(\d{1,5})$/
def portPattern : List (Piece UInt16) := [⟨isDigit, 1, 5⟩]

-- A string of digits as a number
def toNumber (digits : JsString) : Nat := digits.foldl (fun acc c => 10 * acc + (c.toNat - 48)) 0

-- The operator | takes its operands to 32 bits and gives a signed number.
def bitOr (a b : Int) : Int := (BitVec.ofInt 32 a ||| BitVec.ofInt 32 b).toInt

def isValidMAC (value : JsString) (empty : Bool) : Bool :=
  let str := getValue value
  if empty && str.isEmpty then true else (fullMatch macPattern str).isSome

def isValidIP (value : JsString) (empty : Bool) : Bool :=
  let str := getValue value
  if empty && str.isEmpty then true
  else
    match fullMatch ipPattern str with
    | some [a, _, b, _, c, _, d] =>
        let tmp := bitOr (bitOr (bitOr (toNumber a) (toNumber b)) (toNumber c)) (toNumber d)
        decide (tmp < 256) && (empty || decide (tmp > 0))
    | _ => false

def isValidPort (value : JsString) (empty : Bool) : Bool :=
  let str := getValue value
  if empty && str.isEmpty then true
  else
    match fullMatch portPattern str with
    | some [digits] => decide (toNumber digits > 0)
    | _ => false

-- One to three decimal digits
def isDecimalField (field : JsString) : Bool := (⟨isDigit, 1, 3⟩ : Piece UInt16).takes field

structure DottedQuad (text a b c d : JsString) : Prop where
  whole : text = a ++ 46 :: (b ++ 46 :: (c ++ 46 :: d))
  fields : ∀ field ∈ [a, b, c, d], isDecimalField field = true

theorem bit_or_small (a b : Nat) (left : a < 2 ^ 10) (right : b < 2 ^ 10) : bitOr a b = (a ||| b : Nat) := by
  have joined : a ||| b < 2 ^ 10 := Nat.or_lt_two_pow left right
  have exact_value : (BitVec.ofInt 32 (a : Int) ||| BitVec.ofInt 32 (b : Int)).toNat = a ||| b := by
    rw [BitVec.toNat_or, BitVec.ofInt_natCast, BitVec.ofInt_natCast, BitVec.toNat_ofNat, BitVec.toNat_ofNat,
      Nat.mod_eq_of_lt (by omega), Nat.mod_eq_of_lt (by omega)]
  rw [bitOr, BitVec.toInt_eq_toNat_of_lt (by omega), exact_value]

theorem or_lt_iff (a b n : Nat) : a ||| b < 2 ^ n ↔ a < 2 ^ n ∧ b < 2 ^ n := by
  constructor
  · intro joined
    exact ⟨Nat.lt_of_le_of_lt Nat.left_le_or joined, Nat.lt_of_le_of_lt Nat.right_le_or joined⟩
  · exact fun both => Nat.or_lt_two_pow both.1 both.2

theorem digit_range (c : UInt16) (digit : isDigit c = true) : 48 ≤ c.toNat ∧ c.toNat ≤ 57 := by
  simpa [isDigit, UInt16.le_iff_toNat_le] using digit

theorem to_number_bound (digits : JsString) (all : digits.all isDigit = true) :
    toNumber digits < 10 ^ digits.length := by
  induction digits using List.reverseRecOn with
  | nil => decide
  | append_singleton front c ih =>
      rw [List.all_append, Bool.and_eq_true, List.all_cons, Bool.and_eq_true] at all
      have range := digit_range c all.2.1
      have before := ih all.1
      have step : toNumber (front ++ [c]) = 10 * toNumber front + (c.toNat - 48) := by
        rw [toNumber, List.foldl_concat, toNumber]
      rw [step, List.length_append, List.length_singleton, Nat.pow_succ]
      omega

theorem decimal_field (field : JsString) (valid : isDecimalField field = true) :
    (1 ≤ field.length ∧ field.length ≤ 3) ∧ field.all isDigit = true := (takes_iff _ field).mp valid

theorem decimal_field_bound (field : JsString) (valid : isDecimalField field = true) : toNumber field < 2 ^ 10 := by
  obtain ⟨⟨_, short⟩, digits⟩ := decimal_field field valid
  have bound := to_number_bound field digits
  have power : 10 ^ field.length ≤ 10 ^ 3 := Nat.pow_le_pow_right (by decide) short
  omega

theorem decimal_field_plain (field : JsString) (valid : isDecimalField field = true) : (46 : UInt16) ∉ field := by
  intro member
  exact absurd (List.all_eq_true.mp (decimal_field field valid).2 46 member) (by decide)

theorem ip_fits (fields : List JsString) :
    Fits ipPattern fields ↔ ∃ a b c d, fields = [a, [46], b, [46], c, [46], d] ∧ ∀ field ∈ [a, b, c, d],
    isDecimalField field = true := by
  constructor
  · intro fits
    obtain _ | ⟨takenA, _ | ⟨dot1, _ | ⟨takenB, _ | ⟨dot2, _ | ⟨takenC, _ | ⟨dot3, _ | ⟨takenD, _ | _⟩⟩⟩⟩⟩⟩⟩ := fits
    rw [letter_takes] at dot1 dot2 dot3
    subst dot1 dot2 dot3
    exact ⟨_, _, _, _, rfl, by simp [isDecimalField, takenA, takenB, takenC, takenD]⟩
  · rintro ⟨a, b, c, d, rfl, each⟩
    have dot := (letter_takes 46 [46]).mpr rfl
    exact .cons (each a (by simp)) (.cons dot (.cons (each b (by simp)) (.cons dot (.cons (each c (by simp)) (.cons dot
      (.cons (each d (by simp)) .nil))))))

theorem dotted_unique (text a b c d a' b' c' d' : JsString) (left : DottedQuad text a b c d)
    (right : DottedQuad text a' b' c' d') :
    a = a' ∧ b = b' ∧ c = c' ∧ d = d' := by
  have plain : ∀ field ∈ [a, b, c, d], (46 : UInt16) ∉ field :=
    fun field member => decimal_field_plain field (left.fields field member)
  have plain' : ∀ field ∈ [a', b', c', d'], (46 : UInt16) ∉ field := fun field member =>
    decimal_field_plain field (right.fields field member)
  have same := left.whole.symm.trans right.whole
  obtain ⟨first, same⟩ := separated_inj 46 _ _ _ _ (plain a (by simp)) (plain' a' (by simp)) same
  obtain ⟨second, same⟩ := separated_inj 46 _ _ _ _ (plain b (by simp)) (plain' b' (by simp)) same
  obtain ⟨third, fourth⟩ := separated_inj 46 _ _ _ _ (plain c (by simp)) (plain' c' (by simp)) same
  exact ⟨first, second, third, fourth⟩

-- The one bitwise or stands for the four range checks and for the zero test.
theorem quad_or (a b c d : JsString) (fields : ∀ field ∈ [a, b, c, d], isDecimalField field = true) :
    let tmp := bitOr (bitOr (bitOr (toNumber a) (toNumber b)) (toNumber c)) (toNumber d)
    (tmp < 256 ↔ ∀ field ∈ [a, b, c, d], toNumber field ≤ 255) ∧
    (tmp > 0 ↔ ∃ field ∈ [a, b, c, d], toNumber field ≠ 0) := by
  have boundA := decimal_field_bound a (fields a (by simp))
  have boundB := decimal_field_bound b (fields b (by simp))
  have boundC := decimal_field_bound c (fields c (by simp))
  have boundD := decimal_field_bound d (fields d (by simp))
  have boundAB := Nat.or_lt_two_pow boundA boundB
  have boundABC := Nat.or_lt_two_pow boundAB boundC
  rw [bit_or_small _ _ boundA boundB, bit_or_small _ _ boundAB boundC, bit_or_small _ _ boundABC boundD]
  dsimp only
  constructor
  · have range := or_lt_iff (toNumber a ||| toNumber b ||| toNumber c) (toNumber d) 8
    have rangeC := or_lt_iff (toNumber a ||| toNumber b) (toNumber c) 8
    have rangeB := or_lt_iff (toNumber a) (toNumber b) 8
    simp only [List.mem_cons, List.not_mem_nil, or_false, forall_eq_or_imp, forall_eq]
    omega
  · have zero : toNumber a ||| toNumber b ||| toNumber c ||| toNumber d = 0 ↔
        ((toNumber a = 0 ∧ toNumber b = 0) ∧ toNumber c = 0) ∧ toNumber d = 0 := by
      rw [Nat.or_eq_zero_iff, Nat.or_eq_zero_iff, Nat.or_eq_zero_iff]
    simp only [List.mem_cons, List.not_mem_nil, or_false, exists_eq_or_imp, exists_eq_left]
    omega

theorem dotted_match (text a b c d : JsString) :
    fullMatch ipPattern text = some [a, [46], b, [46], c, [46], d] ↔ DottedQuad text a b c d := by
  have sound : ∀ a b c d, fullMatch ipPattern text = some [a, [46], b, [46], c, [46], d] → DottedQuad text a b c d := by
    intro a b c d found
    obtain ⟨fits, flat⟩ := full_match_sound ipPattern text _ found
    obtain ⟨a', b', c', d', same, fields⟩ := (ip_fits _).mp fits
    obtain ⟨rfl, rfl, rfl, rfl⟩ : a = a' ∧ b = b' ∧ c = c' ∧ d = d' := by simpa using same
    exact ⟨by simpa using flat, fields⟩
  constructor
  · exact sound a b c d
  · intro quad
    have fits := (ip_fits _).mpr ⟨a, b, c, d, rfl, quad.fields⟩
    have flat : [a, [46], b, [46], c, [46], d].flatten = text := by
      rw [quad.whole]
      simp
    have found := full_match_complete ipPattern _ fits
    rw [flat] at found
    obtain ⟨fields, given⟩ := Option.isSome_iff_exists.mp found
    obtain ⟨a', b', c', d', rfl, _⟩ := (ip_fits fields).mp (full_match_sound ipPattern text fields given).1
    obtain ⟨rfl, rfl, rfl, rfl⟩ := dotted_unique text a b c d a' b' c' d' quad (sound a' b' c' d' given)
    exact given

theorem is_valid_ip (value : JsString) (empty : Bool) :
    isValidIP value empty = true ↔ (empty = true ∧ getValue value = []) ∨ ∃ a b c d,
    DottedQuad (getValue value) a b c d ∧
      (∀ field ∈ [a, b, c, d], toNumber field ≤ 255) ∧ (empty = true ∨ ∃ field ∈ [a, b, c, d], toNumber field ≠ 0) := by
  rw [isValidIP]
  dsimp only
  by_cases blank : empty = true ∧ getValue value = []
  · rw [if_pos (by simp [blank])]
    exact iff_of_true rfl (Or.inl blank)
  · rw [if_neg (by simpa using blank), or_iff_right blank]
    cases found : fullMatch ipPattern (getValue value) with
    | none =>
        refine iff_of_false nofun ?_
        rintro ⟨a, b, c, d, quad, _⟩
        rw [(dotted_match (getValue value) a b c d).mpr quad] at found
        cases found
    | some fields =>
        obtain ⟨a, b, c, d, rfl, valid⟩ := (ip_fits fields).mp (full_match_sound ipPattern _ fields found).1
        obtain ⟨range, positive⟩ := quad_or a b c d valid
        have quad := (dotted_match (getValue value) a b c d).mp found
        simp only [Bool.and_eq_true, Bool.or_eq_true, decide_eq_true_iff, range, positive]
        constructor
        · exact fun accepted => ⟨a, b, c, d, quad, accepted⟩
        · rintro ⟨a', b', c', d', other, accepted⟩
          obtain ⟨rfl, rfl, rfl, rfl⟩ := dotted_unique _ a b c d a' b' c' d' quad other
          exact accepted

theorem ip_validation (value : JsString) :
    (isValidIP value false = true ↔ ∃ a b c d, DottedQuad (getValue value) a b c d ∧
      (∀ field ∈ [a, b, c, d], toNumber field ≤ 255) ∧ ∃ field ∈ [a, b, c, d], toNumber field ≠ 0) ∧
    (isValidIP value true = true ↔ getValue value = [] ∨ ∃ a b c d, DottedQuad (getValue value) a b c d ∧
      ∀ field ∈ [a, b, c, d], toNumber field ≤ 255) := by
  constructor
  · rw [is_valid_ip]
    simp only [Bool.false_eq_true, false_and, false_or]
  · rw [is_valid_ip]
    simp only [true_and, true_or, and_true]

end Ftm50s.Forms
