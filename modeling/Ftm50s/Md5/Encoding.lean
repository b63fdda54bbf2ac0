import Ftm50s.Md5.Script

set_option autoImplicit false

namespace Ftm50s.Md5.Script

open Ftm50s.Forms

theorem mark_or (mark width value : Nat) (small : value < 2 ^ width) :
    value ||| (2 ^ width * mark) = value + 2 ^ width * mark := by
  rw [Nat.or_comm, ← Nat.two_pow_add_eq_or_of_lt small, Nat.add_comm]

theorem follow_value (c : UInt16) : ((c &&& 63) ||| 128).toNat = c.toNat % 64 + 128 := by
  have low : c.toNat &&& 63 = c.toNat % 64 := Nat.and_two_pow_sub_one_eq_mod c.toNat 6
  rw [UInt16.toNat_or, UInt16.toNat_and]
  change (c.toNat &&& 63) ||| 128 = c.toNat % 64 + 128
  rw [low]
  exact mark_or 2 6 _ (Nat.mod_lt _ (by decide))

theorem shift_value (c : UInt16) : (c >>> 6).toNat = c.toNat / 64 ∧ (c >>> 12).toNat = c.toNat / 4096 := by
  rw [UInt16.toNat_shiftRight, UInt16.toNat_shiftRight, Nat.shiftRight_eq_div_pow, Nat.shiftRight_eq_div_pow]
  exact ⟨rfl, rfl⟩

theorem lead_two_value (c : UInt16) (short : c.toNat < 2048) : ((c >>> 6) ||| 192).toNat = c.toNat / 64 + 192 := by
  rw [UInt16.toNat_or, (shift_value c).1]
  exact mark_or 3 6 _ (by omega)

theorem lead_three_value (c : UInt16) : ((c >>> 12) ||| 224).toNat = c.toNat / 4096 + 224 := by
  have bound := c.toNat_lt
  rw [UInt16.toNat_or, (shift_value c).2]
  exact mark_or 14 4 _ (by omega)

inductive UnitCodes (c : UInt16) : Prop where
  | one (small : c.toNat < 128) (codes : (utf8Unit c).map UInt16.toNat = [c.toNat])
  | two (large : 128 ≤ c.toNat) (small : c.toNat < 2048)
      (codes : (utf8Unit c).map UInt16.toNat = [c.toNat / 64 + 192, c.toNat % 64 + 128])
  | three (large : 2048 ≤ c.toNat)
      (codes : (utf8Unit c).map UInt16.toNat = [c.toNat / 4096 + 224, c.toNat / 64 % 64 + 128, c.toNat % 64 + 128])

theorem unit_codes (c : UInt16) : UnitCodes c := by
  have first : c < 128 ↔ c.toNat < 128 := UInt16.lt_iff_toNat_lt
  have second : c < 2048 ↔ c.toNat < 2048 := UInt16.lt_iff_toNat_lt
  have above : 127 < c ↔ 127 < c.toNat := UInt16.lt_iff_toNat_lt
  by_cases small : c.toNat < 128
  · refine .one small ?_
    rw [utf8Unit, if_pos (first.mpr small)]
    rfl
  · by_cases middle : c.toNat < 2048
    · refine .two (by omega) middle ?_
      rw [utf8Unit, if_neg (mt first.mp small), if_pos (by simp [above, second]; omega)]
      simp only [List.map_cons, List.map_nil, lead_two_value c middle, follow_value]
    · refine .three (by omega) ?_
      rw [utf8Unit, if_neg (mt first.mp small), if_neg (by simp [above, second]; omega)]
      simp only [List.map_cons, List.map_nil, lead_three_value, follow_value, (shift_value c).1]

theorem unit_narrow (c : UInt16) : ∀ n ∈ (utf8Unit c).map UInt16.toNat, n < 256 := by
  have bound := c.toNat_lt
  rcases unit_codes c with ⟨small, codes⟩ | ⟨_, small, codes⟩ | ⟨_, codes⟩ <;> rw [codes] <;> simp <;> omega

theorem utf8_narrow (string : JsString) : ∀ c ∈ utf8Encode string, c < 256 := by
  intro unit member
  obtain ⟨c, _, inside⟩ := List.mem_flatMap.mp member
  exact UInt16.lt_iff_toNat_lt.mpr (unit_narrow c unit.toNat (List.mem_map_of_mem inside))

theorem unit_front (c d : UInt16) (x y : List Nat)
    (same : (utf8Unit c).map UInt16.toNat ++ x = (utf8Unit d).map UInt16.toNat ++ y) : c = d ∧ x = y := by
  have cBound := c.toNat_lt
  have dBound := d.toNat_lt
  rw [← UInt16.toNat_inj]
  rcases unit_codes c with ⟨cSmall, cCodes⟩ | ⟨cLarge, cSmall, cCodes⟩ | ⟨cLarge, cCodes⟩ <;>
    rcases unit_codes d with ⟨dSmall, dCodes⟩ | ⟨dLarge, dSmall, dCodes⟩ | ⟨dLarge, dCodes⟩ <;>
    rw [cCodes, dCodes] at same <;>
    simp only [List.cons_append, List.nil_append, List.cons.injEq] at same
  · exact same
  · omega
  · omega
  · omega
  · exact ⟨by omega, same.2.2⟩
  · omega
  · omega
  · omega
  · exact ⟨by omega, same.2.2.2⟩

theorem unit_nonempty (c : UInt16) (x : List Nat) : (utf8Unit c).map UInt16.toNat ++ x ≠ [] := by
  rcases unit_codes c with ⟨_, codes⟩ | ⟨_, _, codes⟩ | ⟨_, codes⟩ <;> rw [codes] <;> simp

theorem units_injective (a b : JsString) (same : a.flatMap (fun c => (utf8Unit c).map UInt16.toNat) = b.flatMap fun c =>
    (utf8Unit c).map UInt16.toNat) : a = b := by
  induction a generalizing b with
  | nil =>
      cases b with
      | nil => rfl
      | cons d rest => exact absurd same.symm (unit_nonempty d _)
  | cons c front ih =>
      cases b with
      | nil => exact absurd same (unit_nonempty c _)
      | cons d rest =>
          rw [List.flatMap_cons, List.flatMap_cons] at same
          obtain ⟨first, others⟩ := unit_front c d _ _ same
          rw [first, ih rest others]

-- Utf8Encode forgets the carriage returns before line feeds and nothing else.
theorem utf8_encode_exact (a b : JsString) : utf8Encode a = utf8Encode b ↔ dropReturns a = dropReturns b := by
  constructor
  · intro same
    apply units_injective
    have numbers := congrArg (List.map UInt16.toNat) same
    rwa [utf8Encode, utf8Encode, List.map_flatMap, List.map_flatMap] at numbers
  · intro same
    rw [utf8Encode, utf8Encode, same]

end Ftm50s.Md5.Script
