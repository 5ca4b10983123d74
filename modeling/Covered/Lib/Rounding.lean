import Mathlib.Algebra.BigOperators.Group.List.Defs
import Mathlib.Algebra.Order.Field.Rat

/-!
# Rounded arithmetic

The numbers of a floating-point format as the rational numbers that a rounding yields, in the range
of the format. A rounding is monotone, it keeps zero, one and what is rounded, and the difference of
distinct numbers of the format is not rounded to zero, since small differences are subnormal
numbers. Which rounding it is does not matter; `exact` is the one that changes nothing.
-/

set_option autoImplicit false

namespace Covered.Lib

structure Rounding where
  round : ℚ → ℚ
  monotone : Monotone round
  round_zero : round 0 = 0
  round_one : round 1 = 1
  round_round : ∀ x, round (round x) = round x
  sub_neg : ∀ x y, round x < round y → round (round x - round y) < 0

namespace Rounding

instance : CoeFun Rounding fun _ => ℚ → ℚ := ⟨round⟩

/-- Exact arithmetic. -/
def exact : Rounding where
  round x := x
  monotone := monotone_id
  round_zero := rfl
  round_one := rfl
  round_round _ := rfl
  sub_neg _ _ h := sub_neg_of_lt h

@[simp] theorem exact_apply (x : ℚ) : exact x = x := rfl

variable (r : Rounding) {x y : ℚ}

/-- The sum of a loop that adds one number after the other. -/
def sum (l : List ℚ) : ℚ := l.foldl (fun s x => r (s + x)) 0

@[simp] theorem exact_sum (l : List ℚ) : exact.sum l = l.sum := List.sum_eq_foldl.symm

theorem nonneg (h : 0 ≤ x) : 0 ≤ r x := by
  rw [← r.round_zero]
  exact r.monotone h

theorem le_one (h : x ≤ 1) : r x ≤ 1 := by
  rw [← r.round_one]
  exact r.monotone h

/-- What is not negative does not make a number of the format smaller. -/
theorem le_add (h : 0 ≤ y) : r x ≤ r (r x + y) :=
  (r.round_round x).symm.trans_le (r.monotone (le_add_of_nonneg_right h))

theorem one_le (h : 1 ≤ x) : 1 ≤ r x := by
  rw [← r.round_one]
  exact r.monotone h

/-- A rounded difference of numbers of the format has the sign of the difference. -/
theorem sub_nonneg_iff : 0 ≤ r (r x - r y) ↔ r y ≤ r x := by
  constructor
  · intro h
    by_contra hlt
    exact absurd (r.sub_neg x y (not_le.1 hlt)) (not_lt.2 h)
  · intro h
    exact r.nonneg (sub_nonneg.2 h)

/-- What is at most minus one stays negative. -/
theorem neg_of_le (h : x ≤ -1) : r x < 0 := by
  have hone : r (r 0 - r 1) < 0 := r.sub_neg 0 1 (by
    rw [r.round_zero, r.round_one]
    exact zero_lt_one)
  rw [r.round_zero, r.round_one, zero_sub] at hone
  exact (r.monotone h).trans_lt hone

end Rounding

end Covered.Lib
