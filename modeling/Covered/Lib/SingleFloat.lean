import Mathlib.Algebra.Order.Field.Rat

/-!
# Single-precision numbers as bit patterns

A finite single-precision number is a sign and a magnitude, and its magnitude is a whole number of
units of `2 ^ -149`. The low 31 bits of the pattern give the magnitude: 23 bits of fraction and,
above them, 8 bits of exponent. `ofBits_toBits` is that a single-precision number is read back from
its pattern. The two zeros are one number here.
-/

set_option autoImplicit false

namespace Covered.Lib.SingleFloat

/-- The number of units of a magnitude. -/
def unitsOfBits (magnitude : Nat) : Nat :=
  if magnitude / 2 ^ 23 = 0 then magnitude % 2 ^ 23
  else (2 ^ 23 + magnitude % 2 ^ 23) * 2 ^ (magnitude / 2 ^ 23 - 1)

/-- The magnitude with the given number of units. -/
def bitsOfUnits (units : Nat) : Nat :=
  if units < 2 ^ 23 then units
  else (units.log2 - 23) * 2 ^ 23 + units / 2 ^ (units.log2 - 23)

theorem bitsOfUnits_unitsOfBits (magnitude : Nat) :
    bitsOfUnits (unitsOfBits magnitude) = magnitude := by
  have hsplit := Nat.div_add_mod magnitude (2 ^ 23)
  have hfraction := Nat.mod_lt magnitude (show 2 ^ 23 > 0 by decide)
  rw [unitsOfBits]
  split
  · next hsubnormal =>
    rw [bitsOfUnits, if_pos hfraction]
    omega
  · next hnormal =>
    generalize hexponent : magnitude / 2 ^ 23 - 1 = e
    generalize magnitude % 2 ^ 23 = fraction at hsplit hfraction
    have hpos : 0 < 2 ^ e := Nat.two_pow_pos e
    have hlow : 2 ^ 23 ≤ (2 ^ 23 + fraction) * 2 ^ e :=
      Nat.le_trans (Nat.le_add_right ..) (Nat.le_mul_of_pos_right _ hpos)
    -- the significand has 24 bits, so the exponent is that of the number of units
    have hlog : ((2 ^ 23 + fraction) * 2 ^ e).log2 = 23 + e := by
      rw [Nat.log2_eq_iff (by omega), Nat.pow_add, Nat.add_right_comm, Nat.pow_add]
      constructor
      · exact Nat.mul_le_mul_right _ (Nat.le_add_right ..)
      · exact Nat.mul_lt_mul_of_pos_right (by omega) hpos
    rw [bitsOfUnits, if_neg (by omega), hlog, Nat.add_sub_cancel_left,
      Nat.mul_div_cancel _ hpos]
    omega

/-- The number with the given bit pattern. -/
def ofBits (bits : Nat) : ℚ :=
  let value : ℚ := unitsOfBits (bits % 2 ^ 31) / 2 ^ 149
  if bits / 2 ^ 31 = 0 then value else -value

/-- The bit pattern of a single-precision number. -/
def toBits (x : ℚ) : Nat :=
  (if x < 0 then 2 ^ 31 else 0) + bitsOfUnits (|x| * 2 ^ 149).num.toNat

/-- The number is a finite single-precision number: the exponent is not that of the infinities. -/
def IsFloat (x : ℚ) : Prop :=
  ∃ magnitude < 255 * 2 ^ 23, |x| = unitsOfBits magnitude / 2 ^ 149

theorem bitsOfUnits_abs {x : ℚ} {magnitude : Nat} (h : |x| = unitsOfBits magnitude / 2 ^ 149) :
    bitsOfUnits (|x| * 2 ^ 149).num.toNat = magnitude := by
  have hunits : |x| * 2 ^ 149 = ((unitsOfBits magnitude : ℤ) : ℚ) := by
    have hne : (2 : ℚ) ^ 149 ≠ 0 := pow_ne_zero _ (by decide)
    rw [h, div_mul_cancel₀ _ hne, Int.cast_natCast]
  rw [hunits, Rat.num_intCast, Int.toNat_natCast, bitsOfUnits_unitsOfBits]

theorem toBits_lt {x : ℚ} (h : IsFloat x) : toBits x < 256 ^ 4 := by
  obtain ⟨magnitude, hlt, habs⟩ := h
  rw [toBits, bitsOfUnits_abs habs]
  split <;> omega

theorem ofBits_toBits {x : ℚ} (h : IsFloat x) : ofBits (toBits x) = x := by
  obtain ⟨magnitude, hlt, habs⟩ := h
  rw [toBits, bitsOfUnits_abs habs, ofBits]
  by_cases hneg : x < 0
  · have hdiv : (2 ^ 31 + magnitude) / 2 ^ 31 ≠ 0 := by omega
    have hmod : (2 ^ 31 + magnitude) % 2 ^ 31 = magnitude := by omega
    rw [if_pos hneg, if_neg hdiv, hmod, ← habs, abs_of_neg hneg, neg_neg]
  · have hdiv : (0 + magnitude) / 2 ^ 31 = 0 := by omega
    have hmod : (0 + magnitude) % 2 ^ 31 = magnitude := by omega
    rw [if_neg hneg, if_pos hdiv, hmod, ← habs, abs_of_nonneg (not_lt.1 hneg)]

/-- Zero is a single-precision number. -/
theorem isFloat_zero : IsFloat 0 := ⟨0, by decide, by simp [unitsOfBits]⟩

example : toBits (3 / 2) = 0x3fc00000 := by decide +kernel

end Covered.Lib.SingleFloat
