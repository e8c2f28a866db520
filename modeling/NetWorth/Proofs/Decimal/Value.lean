import Mathlib
import NetWorth.Decimal.Arithmetic

/-!
# The number that a decimal stands for

Sign, magnitude and scale say how a decimal is written.  `value` is the number
that is meant.  Order, sign and the smaller of two decimals depend on the
number alone, and no decimal is larger than the largest magnitude.
-/

namespace NetWorth.Decimal

/-- The number that a decimal stands for. -/
def value
    (a : Decimal) :
    ℚ :=
  a.coefficient / 10 ^ a.scale

/-- Crossing two decimals puts their numbers over one denominator. -/
private theorem cast_crossed
    (a b : Decimal) :
    (a.crossed b : ℚ) =
      a.value * (10 ^ a.scale * 10 ^ b.scale) := by
  have positive : (10 : ℚ) ^ a.scale ≠ 0 := by positivity
  simp only [crossed, value, Nat.pow_eq]
  push_cast
  field_simp

/-- Decimals are ordered by their numbers. -/
theorem lt_iff_value_lt
    {a b : Decimal} :
    a < b ↔ a.value < b.value := by
  change a.crossed b < b.crossed a ↔ _
  rw [← Int.cast_lt (R := ℚ), cast_crossed, cast_crossed,
    mul_comm (10 ^ b.scale : ℚ)]
  exact mul_lt_mul_iff_left₀ (by positivity)

theorem le_iff_value_le
    {a b : Decimal} :
    a ≤ b ↔ a.value ≤ b.value := by
  change a.crossed b ≤ b.crossed a ↔ _
  rw [← Int.cast_le (R := ℚ), cast_crossed, cast_crossed,
    mul_comm (10 ^ b.scale : ℚ)]
  exact mul_le_mul_iff_left₀ (by positivity)

theorem isPositive_iff
    {a : Decimal} :
    a.IsPositive ↔ 0 < a.value := by
  have unit : (0 : ℚ) < 10 ^ a.scale := by positivity
  rw [value, div_pos_iff_of_pos_right unit]
  exact Int.cast_pos.symm

theorem isNegative_iff
    {a : Decimal} :
    a.IsNegative ↔ a.value < 0 := by
  have unit : (0 : ℚ) < 10 ^ a.scale := by positivity
  rw [value, div_lt_iff₀ unit, zero_mul]
  exact Int.cast_lt_zero.symm

/-- The magnitude is the number without its sign, over the same denominator. -/
theorem abs_value
    (a : Decimal) :
    |a.value| = a.magnitude / 10 ^ a.scale := by
  have unit : |(10 : ℚ) ^ a.scale| = 10 ^ a.scale :=
    abs_of_pos (by positivity)
  rw [value, abs_div, unit]
  congr 1
  by_cases negative : a.negative
  · simp [coefficient, negative]
  · simp [coefficient, negative]

theorem isZero_iff
    {a : Decimal} :
    a.IsZero ↔ a.value = 0 := by
  have unit : (10 : ℚ) ^ a.scale ≠ 0 := by positivity
  rw [← abs_eq_zero, abs_value, div_eq_zero_iff]
  simp [IsZero, unit]

@[simp] theorem value_zero :
    zero.value = 0 :=
  isZero_iff.mp rfl

theorem not_isPositive_zero :
    ¬ zero.IsPositive := by
  decide

@[simp] theorem value_neg
    (a : Decimal) :
    (-a).value = -a.value := by
  change (neg a).value = -a.value
  by_cases negative : a.negative
  · simp [neg, value, coefficient, negative, neg_div]
  · simp [neg, value, coefficient, negative, neg_div]

/-- Dropping the sign of a zero keeps the number. -/
@[simp] theorem value_unsignedZero
    (a : Decimal) :
    a.unsignedZero.value = a.value := by
  unfold unsignedZero
  split
  · next isZero =>
      have magnitudeZero : a.magnitude = 0 := isZero
      simp [value, coefficient, magnitudeZero]
  · rfl

@[simp] theorem scale_unsignedZero
    (a : Decimal) :
    a.unsignedZero.scale = a.scale := by
  unfold unsignedZero
  split <;> rfl

/-- Zeros at the end of the places mean nothing. -/
@[simp] theorem value_trimZeros
    (a : Decimal) :
    a.trimZeros.value = a.value := by
  fun_induction trimZeros a with
  | case1 a isZero => rw [value_zero, isZero_iff.mp isZero]
  | case2 => rfl
  | case3 a isNumber fewer hasPlaces endsInZero inductionHypothesis =>
      have tenfold : (a.magnitude : ℚ) = (a.magnitude / 10 : Nat) * 10 := by
        exact_mod_cast show a.magnitude = a.magnitude / 10 * 10 by omega
      rw [inductionHypothesis]
      unfold value coefficient
      rw [hasPlaces, pow_succ]
      split
      · rw [Int.cast_neg, Int.cast_neg, Int.cast_natCast, Int.cast_natCast,
          tenfold, neg_div, neg_div, mul_div_mul_right _ _ (by norm_num)]
      · rw [Int.cast_natCast, Int.cast_natCast, tenfold,
          mul_div_mul_right _ _ (by norm_num)]
  | case4 => rfl

theorem value_least
    (a b : Decimal) :
    (a.least b).value = min a.value b.value := by
  unfold least
  split
  · next smaller =>
      exact (min_eq_left (le_iff_value_le.mp smaller)).symm
  · next larger =>
      have reversed : b.value ≤ a.value :=
        le_of_not_ge fun below => larger (le_iff_value_le.mpr below)
      exact (min_eq_right reversed).symm

/-- No decimal stands for a number beyond the largest magnitude. -/
theorem abs_value_le
    (a : Decimal) :
    |a.value| ≤ maxCoefficient := by
  have magnitudeLe : (a.magnitude : ℚ) ≤ maxCoefficient := by
    exact_mod_cast a.magnitude_le
  have unit : (1 : ℚ) ≤ 10 ^ a.scale := one_le_pow₀ (by norm_num)
  rw [abs_value]
  exact (div_le_self (by positivity) unit).trans magnitudeLe

end NetWorth.Decimal
