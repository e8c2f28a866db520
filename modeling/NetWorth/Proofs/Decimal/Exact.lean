import Mathlib
import NetWorth.Proofs.Decimal.Value

/-!
# Sums and products that are not rounded

A sum, a difference or a product is exact as soon as the number itself fits
96 bits at the scale at which the operation first takes it.  The statements
carry a bound on the places along, so that a chain of operations stays exact
at one scale that is fixed beforehand.
-/

namespace NetWorth.Decimal

/-- The number `x`, written with at most `places` places. -/
structure Represents
    (a : Decimal)
    (x : ℚ)
    (places : Nat) :
    Prop where
  value_eq : a.value = x
  scale_le : a.scale ≤ places

/-- The sign of a zero is no part of the number. -/
theorem Represents.unsignedZero
    {a : Decimal}
    {x : ℚ}
    {places : Nat}
    (exact : a.Represents x places) :
    a.unsignedZero.Represents x places where
  value_eq := (value_unsignedZero a).trans exact.value_eq
  scale_le := (scale_unsignedZero a).trans_le exact.scale_le

theorem Represents.least
    {a b : Decimal}
    {x y : ℚ}
    {places : Nat}
    (left : a.Represents x places)
    (right : b.Represents y places) :
    (a.least b).Represents (min x y) places where
  value_eq := by rw [value_least, left.value_eq, right.value_eq]
  scale_le := by
    unfold Decimal.least
    split
    · exact left.scale_le
    · exact right.scale_le

/-- At `places` places the number `x` has a magnitude within 96 bits. -/
def InRange
    (x : ℚ)
    (places : Nat) :
    Prop :=
  |x| * 10 ^ places ≤ maxCoefficient

namespace InRange

/-- Fewer places take a smaller magnitude. -/
theorem of_places_le
    {x : ℚ}
    {fewer places : Nat}
    (inRange : InRange x places)
    (fewerLe : fewer ≤ places) :
    InRange x fewer := by
  have units : (10 : ℚ) ^ fewer ≤ 10 ^ places :=
    pow_le_pow_right₀ (by norm_num) fewerLe
  exact (mul_le_mul_of_nonneg_left units (abs_nonneg x)).trans inRange

/-- A number closer to zero is in range too. -/
theorem of_abs_le
    {x y : ℚ}
    {places : Nat}
    (inRange : InRange x places)
    (smaller : |y| ≤ |x|) :
    InRange y places :=
  (mul_le_mul_of_nonneg_right smaller (by positivity)).trans inRange

/-- Between zero and a number in range every number is in range. -/
theorem of_nonneg_of_le
    {x y : ℚ}
    {places : Nat}
    (inRange : InRange x places)
    (nonneg : 0 ≤ y)
    (smaller : y ≤ x) :
    InRange y places := by
  apply inRange.of_abs_le
  rw [abs_of_nonneg nonneg, abs_of_nonneg (nonneg.trans smaller)]
  exact smaller

end InRange

@[simp] theorem roundedQuotient_one
    (n : Nat) :
    roundedQuotient n 1 = n := by
  simp [roundedQuotient, Nat.mod_one]

/-- What has few enough places and digits is not rounded. -/
theorem fit?_eq_some
    (negative : Bool)
    {n scale : Nat}
    (magnitudeLe : n ≤ maxCoefficient)
    (scaleLe : scale ≤ maxScale) :
    fit? negative n scale =
      some ⟨negative, n, scale, magnitudeLe, scaleLe⟩ := by
  have exact :
      roundTo? negative n scale scale =
        some ⟨negative, n, scale, magnitudeLe, scaleLe⟩ := by
    simp [roundTo?, ofParts?, magnitudeLe, scaleLe]
  rw [fit?, Nat.min_eq_left scaleLe]
  cases scale with
  | zero =>
      exact exact
  | succ fewer =>
      rw [fitAt?, exact, Option.some_or]

/-- The number over `10 ^ places` has the coefficient at that many places. -/
theorem cast_coefficientAt
    {a : Decimal}
    {places : Nat}
    (scaleLe : a.scale ≤ places) :
    (a.coefficientAt places : ℚ) = a.value * 10 ^ places := by
  have unit : (10 : ℚ) ^ a.scale ≠ 0 := by positivity
  have split :
      (10 : ℚ) ^ places = 10 ^ a.scale * 10 ^ (places - a.scale) := by
    rw [← pow_add, Nat.add_sub_cancel' scaleLe]
  rw [coefficientAt, value, split]
  simp only [Nat.pow_eq]
  push_cast
  field_simp

/-- Sign and magnitude of an integer give its number over `10 ^ scale`. -/
private theorem value_ofInt
    (n : Int)
    {scale : Nat}
    (magnitudeLe : n.natAbs ≤ maxCoefficient)
    (scaleLe : scale ≤ maxScale) :
    (⟨decide (n < 0), n.natAbs, scale, magnitudeLe, scaleLe⟩ :
      Decimal).value = n / 10 ^ scale := by
  have signed :
      (if n < 0 then -(n.natAbs : Int) else n.natAbs) = n := by
    split <;> omega
  simp only [value, coefficient, decide_eq_true_eq, signed]

/-- A sum that is in range at `places` places is exact. -/
theorem add?_exact
    {a b : Decimal}
    {x y : ℚ}
    {places : Nat}
    (left : a.Represents x places)
    (right : b.Represents y places)
    (placesLe : places ≤ maxScale)
    (inRange : InRange (x + y) places) :
    ∃ sum, a.add? b = some sum ∧ sum.Represents (x + y) places := by
  obtain ⟨rfl, leftLe⟩ := left
  obtain ⟨rfl, rightLe⟩ := right
  by_cases leftZero : a.IsZero
  · refine ⟨b, by simp [add?, leftZero], ?_, rightLe⟩
    rw [isZero_iff.mp leftZero, zero_add]
  by_cases rightZero : b.IsZero
  · refine ⟨a, by simp [add?, leftZero, rightZero], ?_, leftLe⟩
    rw [isZero_iff.mp rightZero, add_zero]
  have commonLe : max a.scale b.scale ≤ places := max_le leftLe rightLe
  let total :=
    a.coefficientAt (max a.scale b.scale) +
      b.coefficientAt (max a.scale b.scale)
  have totalEq :
      (total : ℚ) =
        (a.value + b.value) * 10 ^ max a.scale b.scale := by
    rw [Int.cast_add, cast_coefficientAt (le_max_left _ _),
      cast_coefficientAt (le_max_right _ _), add_mul]
  have totalLe : total.natAbs ≤ maxCoefficient := by
    have bounded := inRange.of_places_le commonLe
    have unit : |(10 : ℚ) ^ max a.scale b.scale| = 10 ^ max a.scale b.scale :=
      abs_of_pos (by positivity)
    rw [InRange, ← unit, ← abs_mul, ← totalEq, ← Int.cast_abs,
      Int.abs_eq_natAbs] at bounded
    exact_mod_cast bounded
  refine ⟨⟨decide (total < 0), total.natAbs, _, totalLe,
    commonLe.trans placesLe⟩, ?_, ?_, commonLe⟩
  · rw [add?, if_neg leftZero, if_neg rightZero]
    exact fit?_eq_some _ totalLe _
  · rw [value_ofInt, totalEq]
    field_simp

/-- A difference that is in range at `places` places is exact. -/
theorem sub?_exact
    {a b : Decimal}
    {x y : ℚ}
    {places : Nat}
    (left : a.Represents x places)
    (right : b.Represents y places)
    (placesLe : places ≤ maxScale)
    (inRange : InRange (x - y) places) :
    ∃ difference,
      a.sub? b = some difference ∧
        difference.Represents (x - y) places := by
  have opposite :
      (if b.IsZero then b else -b).Represents (-y) places := by
    split
    · next isZero =>
        have zeroValue := isZero_iff.mp isZero
        refine ⟨?_, right.scale_le⟩
        rw [← right.value_eq, zeroValue, neg_zero]
    · exact ⟨by rw [value_neg, right.value_eq], right.scale_le⟩
  rw [sub_eq_add_neg] at inRange ⊢
  exact add?_exact left opposite placesLe inRange

/-- The magnitudes multiply over the product of the denominators. -/
private theorem value_product
    (a b : Decimal)
    (magnitudeLe : a.magnitude * b.magnitude ≤ maxCoefficient)
    (scaleLe : a.scale + b.scale ≤ maxScale) :
    (⟨a.negative != b.negative, a.magnitude * b.magnitude,
      a.scale + b.scale, magnitudeLe, scaleLe⟩ : Decimal).value =
      a.value * b.value := by
  simp only [value, coefficient, div_mul_div_comm, pow_add]
  cases a.negative <;> cases b.negative <;> simp

/-- A product that is in range at the places of both factors is exact. -/
theorem mul?_exact
    {a b : Decimal}
    {x y : ℚ}
    {leftPlaces rightPlaces : Nat}
    (left : a.Represents x leftPlaces)
    (right : b.Represents y rightPlaces)
    (placesLe : leftPlaces + rightPlaces ≤ maxScale)
    (inRange : InRange (x * y) (leftPlaces + rightPlaces)) :
    ∃ product,
      a.mul? b = some product ∧
        product.Represents (x * y) (leftPlaces + rightPlaces) := by
  obtain ⟨rfl, leftLe⟩ := left
  obtain ⟨rfl, rightLe⟩ := right
  have commonLe := Nat.add_le_add leftLe rightLe
  by_cases zeroFactor : a.IsZero ∨ b.IsZero
  · refine ⟨zero, by simp [mul?, zeroFactor], ?_, Nat.zero_le _⟩
    rw [value_zero, eq_comm, mul_eq_zero]
    exact zeroFactor.imp isZero_iff.mp isZero_iff.mp
  have scaleLe : a.scale + b.scale ≤ maxScale := commonLe.trans placesLe
  have magnitudeLe : a.magnitude * b.magnitude ≤ maxCoefficient := by
    have bounded := inRange.of_places_le commonLe
    rw [InRange, abs_mul, abs_value, abs_value, div_mul_div_comm,
      ← pow_add, div_mul_cancel₀ _ (by positivity)] at bounded
    exact_mod_cast bounded
  have notTooLong : ¬ shortProductScale < a.scale + b.scale :=
    not_lt.mpr (scaleLe.trans (by decide))
  have fits :=
    fit?_eq_some (a.negative != b.negative) magnitudeLe scaleLe
  have exact : Represents _ (a.value * b.value) (leftPlaces + rightPlaces) :=
    ⟨value_product a b magnitudeLe scaleLe, commonLe⟩
  by_cases short : a.IsShort ∧ b.IsShort
  · refine ⟨_, ?_, exact.unsignedZero⟩
    simp only [mul?, zeroFactor, short, notTooLong, fits, and_self,
      if_true, if_false, Option.map_some]
  · refine ⟨_, ?_, exact⟩
    simp only [mul?, zeroFactor, short, fits, if_false]

end NetWorth.Decimal
