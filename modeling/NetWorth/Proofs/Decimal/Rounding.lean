import Mathlib
import NetWorth.Proofs.Decimal.Exact

/-!
# What rounding costs

A sum or a product that does not fit is rounded to as many places as it has room
for.  So the error is at most half a unit of each place that the number has room
for, and a sum that is rounded at all is so large that its error is small beside
it.  A decimal above the number is not passed.
-/

namespace NetWorth.Decimal

/-- Half a unit of the last of some places. -/
def halfUnit
    (places : Nat) :
    ℚ :=
  1 / 2 / 10 ^ places

theorem halfUnit_pos
    (places : Nat) :
    0 < halfUnit places := by
  unfold halfUnit
  positivity

theorem halfUnit_le
    {fewer places : Nat}
    (fewerLe : fewer ≤ places) :
    halfUnit places ≤ halfUnit fewer :=
  div_le_div_of_nonneg_left (by norm_num) (by positivity)
    (pow_le_pow_right₀ (by norm_num) fewerLe)

/-- A number can be written with some places, or with none. -/
def HasRoom
    (x : ℚ)
    (places : Nat) :
    Prop :=
  places = 0 ∨ InRange x places

theorem halfUnit_mul
    (places : Nat) :
    halfUnit places * 10 ^ places = 1 / 2 :=
  div_mul_cancel₀ _ (by positivity)

/-- A number closer to zero has room too. -/
theorem HasRoom.of_abs_le
    {x y : ℚ}
    {places : Nat}
    (room : HasRoom x places)
    (smaller : |y| ≤ x) :
    HasRoom y places :=
  room.imp_right fun inRange =>
    inRange.of_abs_le (smaller.trans (le_abs_self x))

/-- A number with a sign. -/
def signed
    (negative : Bool)
    (x : ℚ) :
    ℚ :=
  if negative then -x else x

theorem abs_signed_sub
    (negative : Bool)
    (x y : ℚ) :
    |signed negative x - signed negative y| = |x - y| := by
  unfold signed
  split
  · rw [neg_sub_neg, abs_sub_comm]
  · rfl

theorem value_eq_signed
    (a : Decimal) :
    a.value = signed a.negative (a.magnitude / 10 ^ a.scale) := by
  unfold value coefficient signed
  split
  · rw [Int.cast_neg, Int.cast_natCast, neg_div]
  · rw [Int.cast_natCast]

/-! ## Rounded quotients -/

section Quotient

variable {n d : Nat}

theorem abs_roundedQuotient_sub_le
    (divisorPos : 0 < d) :
    |(roundedQuotient n d : ℚ) - n / d| ≤ 1 / 2 := by
  have split := Nat.div_add_mod n d
  have remainderLt := Nat.mod_lt n divisorPos
  have bounds :
      2 * n ≤ 2 * (d * roundedQuotient n d) + d ∧
        2 * (d * roundedQuotient n d) ≤ 2 * n + d := by
    unfold roundedQuotient
    dsimp only
    split
    · rw [Nat.mul_succ]
      omega
    · omega
  have unit : (0 : ℚ) < d := by exact_mod_cast divisorPos
  have lower : (2 * n : ℚ) ≤ 2 * (d * roundedQuotient n d) + d := by
    exact_mod_cast bounds.1
  have upper : (2 * (d * roundedQuotient n d) : ℚ) ≤ 2 * n + d := by
    exact_mod_cast bounds.2
  have exact : (d : ℚ) * (n / d) = n := mul_div_cancel₀ _ unit.ne'
  rw [abs_le]
  constructor
  · refine le_of_mul_le_mul_left ?_ unit
    linarith
  · refine le_of_mul_le_mul_left ?_ unit
    linarith

/-- A quotient is not rounded past a natural number. -/
theorem roundedQuotient_le
    (divisorPos : 0 < d)
    {bound : Nat}
    (bounded : n ≤ d * bound) :
    roundedQuotient n d ≤ bound := by
  have split := Nat.div_add_mod n d
  unfold roundedQuotient
  dsimp only
  split
  · next roundsUp =>
    have less : d * (n / d) < d * bound := by omega
    exact Nat.lt_of_mul_lt_mul_left less
  · have atMost : d * (n / d) ≤ d * bound := by omega
    exact Nat.le_of_mul_le_mul_left atMost divisorPos

end Quotient

/-! ## What is fitted -/

/-- A decimal that a number of `n` units of a scale has been rounded to: with one
more of its places it would have been out of range. -/
structure Fitted
    (negative : Bool)
    (n scale : Nat)
    (r : Decimal) :
    Prop where
  negative_eq : r.negative = negative
  magnitude_eq : r.magnitude = roundedQuotient n (10 ^ (scale - r.scale))
  scale_le : r.scale ≤ scale
  full :
    r.scale < scale →
      r.scale < maxScale →
        maxCoefficient < roundedQuotient n (10 ^ (scale - (r.scale + 1)))

private theorem roundTo?_eq_some
    {negative : Bool}
    {n scale places : Nat}
    {r : Decimal}
    (found : roundTo? negative n scale places = some r) :
    r.negative = negative ∧
      r.magnitude = roundedQuotient n (10 ^ (scale - places)) ∧
        r.scale = places := by
  unfold roundTo? ofParts? at found
  split at found
  · cases found
    exact ⟨rfl, rfl, rfl⟩
  · cases found

private theorem fitAt?_eq_some
    {negative : Bool}
    {n scale places : Nat}
    (placesLe : places ≤ maxScale)
    {r : Decimal}
    (found : fitAt? negative n scale places = some r) :
    r.negative = negative ∧
      r.magnitude = roundedQuotient n (10 ^ (scale - r.scale)) ∧
        r.scale ≤ places ∧
          (r.scale < places →
            maxCoefficient <
              roundedQuotient n (10 ^ (scale - (r.scale + 1)))) := by
  induction places with
  | zero =>
      obtain ⟨sign, magnitude, scaleIs⟩ := roundTo?_eq_some found
      exact ⟨sign, by rw [magnitude, scaleIs], scaleIs.le, fun less => by omega⟩
  | succ fewer inductionHypothesis =>
      rw [fitAt?, Option.or_eq_some_iff] at found
      rcases found with fits | ⟨tooLarge, others⟩
      · obtain ⟨sign, magnitude, scaleIs⟩ := roundTo?_eq_some fits
        exact ⟨sign, by rw [magnitude, scaleIs], scaleIs.le, fun less => by omega⟩
      · obtain ⟨sign, magnitude, scaleLe, full⟩ :=
          inductionHypothesis (by omega) others
        refine ⟨sign, magnitude, by omega, fun _ => ?_⟩
        rcases Nat.lt_or_ge r.scale fewer with fewerYet | all
        · exact full fewerYet
        · have isLast : r.scale = fewer := by omega
          rw [isLast]
          by_contra small
          have fits := Nat.le_of_not_lt small
          simp [roundTo?, ofParts?, fits, placesLe] at tooLarge

theorem fitted_of_fit?
    {negative : Bool}
    {n scale : Nat}
    {r : Decimal}
    (found : fit? negative n scale = some r) :
    Fitted negative n scale r := by
  obtain ⟨sign, magnitude, scaleLe, full⟩ :=
    fitAt?_eq_some (Nat.min_le_right _ _) found
  exact ⟨sign, magnitude, scaleLe.trans (Nat.min_le_left _ _),
    fun less lessThanMax => full (lt_min less lessThanMax)⟩

/-- A number of units of a scale, in units of fewer places. -/
private theorem units_eq
    (n : Nat)
    {places scale : Nat}
    (placesLe : places ≤ scale) :
    (n : ℚ) / 10 ^ scale * 10 ^ places = n / (10 ^ (scale - places) : Nat) := by
  have split : (10 : ℚ) ^ scale = 10 ^ (scale - places) * 10 ^ places := by
    rw [← pow_add, Nat.sub_add_cancel placesLe]
  rw [split]
  push_cast
  field_simp

namespace Fitted

variable
  {negative : Bool}
  {n scale : Nat}
  {r : Decimal}
  (fitted : Fitted negative n scale r)

include fitted

/-- What is fitted is rounded in its last place at most. -/
theorem abs_sub_le :
    |r.value - signed negative (n / 10 ^ scale)| ≤ halfUnit r.scale := by
  have unit : (0 : ℚ) < 10 ^ r.scale := by positivity
  rw [value_eq_signed, fitted.negative_eq, abs_signed_sub, halfUnit,
    le_div_iff₀ unit, ← abs_of_pos unit, ← abs_mul, abs_of_pos unit, sub_mul,
    div_mul_cancel₀ _ unit.ne', units_eq n fitted.scale_le, fitted.magnitude_eq]
  exact abs_roundedQuotient_sub_le (by positivity)

/-- What is fitted with all its places is exact. -/
theorem exact
    (allPlaces : r.scale = scale) :
    r.value = signed negative (n / 10 ^ scale) := by
  rw [value_eq_signed, fitted.negative_eq, fitted.magnitude_eq, allPlaces,
    Nat.sub_self, pow_zero, roundedQuotient_one]

/-- What lacks a place is so large that the place is out of range. -/
theorem large
    (less : r.scale < scale)
    (lessThanMax : r.scale < maxScale) :
    (maxCoefficient : ℚ) + 1 / 2 ≤ n / 10 ^ scale * 10 ^ (r.scale + 1) := by
  have outOfRange : ((maxCoefficient + 1 : Nat) : ℚ) ≤
      (roundedQuotient n (10 ^ (scale - (r.scale + 1))) : Nat) := by
    exact_mod_cast fitted.full less lessThanMax
  have near :=
    (abs_sub_le_iff.mp (abs_roundedQuotient_sub_le
      (n := n) (d := 10 ^ (scale - (r.scale + 1))) (by positivity))).1
  rw [units_eq n less]
  push_cast at outOfRange near ⊢
  linarith

/-- The error is at most half a unit of a place that there is room for. -/
theorem abs_sub_le_of_hasRoom
    {places : Nat}
    (placesLe : places ≤ maxScale)
    (room : HasRoom (n / 10 ^ scale) places) :
    |r.value - signed negative (n / 10 ^ scale)| ≤ halfUnit places := by
  rcases Nat.lt_or_ge r.scale places with fewer | enough
  · rcases Nat.lt_or_ge r.scale scale with less | all
    · -- With one more place there would still have been room.
      exfalso
      have outOfRange := fitted.large less (by omega)
      have inRange : InRange (n / 10 ^ scale) places :=
        room.resolve_left (by omega)
      have stillInRange := inRange.of_places_le (show r.scale + 1 ≤ places by omega)
      rw [InRange, abs_of_nonneg (by positivity)] at stillInRange
      linarith
    · rw [fitted.exact (le_antisymm fitted.scale_le all), sub_self, abs_zero]
      exact (halfUnit_pos places).le
  · exact fitted.abs_sub_le.trans (halfUnit_le enough)

variable (scaleLe : scale ≤ maxScale)

include scaleLe

/-- The error is small beside the number. -/
theorem abs_sub_mul_le :
    |r.value - signed negative (n / 10 ^ scale)| * (maxCoefficient + 1 / 2) ≤
      5 * (n / 10 ^ scale) := by
  rcases Nat.lt_or_ge r.scale scale with less | all
  · have unit : (0 : ℚ) < 10 ^ r.scale := by positivity
    have error := fitted.abs_sub_le
    have large := fitted.large less (by omega)
    rw [halfUnit, le_div_iff₀ unit] at error
    rw [pow_succ] at large
    refine le_of_mul_le_mul_right ?_ unit
    calc
      |r.value - signed negative (n / 10 ^ scale)| * (maxCoefficient + 1 / 2) *
            10 ^ r.scale =
          |r.value - signed negative (n / 10 ^ scale)| * 10 ^ r.scale *
            (maxCoefficient + 1 / 2) := by
        ring
      _ ≤ 1 / 2 * (maxCoefficient + 1 / 2) :=
        mul_le_mul_of_nonneg_right error (by positivity)
      _ ≤ 1 / 2 * (n / 10 ^ scale * (10 ^ r.scale * 10)) :=
        mul_le_mul_of_nonneg_left large (by norm_num)
      _ = 5 * (n / 10 ^ scale) * 10 ^ r.scale := by
        ring
  · rw [fitted.exact (le_antisymm fitted.scale_le all), sub_self, abs_zero, zero_mul]
    positivity

/-- A decimal above the number is not passed. -/
theorem magnitude_le_of_le
    {b : Decimal}
    (below : n / 10 ^ scale ≤ b.value) :
    (r.magnitude : ℚ) / 10 ^ r.scale ≤ b.value := by
  have above : b.value = b.magnitude / 10 ^ b.scale := by
    rw [← abs_value, abs_of_nonneg (le_trans (by positivity) below)]
  rcases Nat.lt_or_ge r.scale scale with less | all
  · rcases Nat.lt_or_ge r.scale b.scale with longer | notLonger
    · -- A decimal with more places is smaller than what lacks a place.
      exfalso
      have outOfRange := fitted.large less (by omega)
      have inRange : (b.magnitude : ℚ) ≤ maxCoefficient := by
        exact_mod_cast b.magnitude_le
      have units : (10 : ℚ) ^ (r.scale + 1) ≤ 10 ^ b.scale :=
        pow_le_pow_right₀ (by norm_num) longer
      have unitsOfBound :
          (b.magnitude : ℚ) / 10 ^ b.scale * 10 ^ (r.scale + 1) ≤ b.magnitude := by
        rw [div_mul_eq_mul_div, div_le_iff₀ (by positivity)]
        exact mul_le_mul_of_nonneg_left units (by positivity)
      have unitsBelow := mul_le_mul_of_nonneg_right below
        (show (0 : ℚ) ≤ 10 ^ (r.scale + 1) by positivity)
      rw [above] at unitsBelow
      linarith
    · -- A decimal with no more places is a multiple of the last place.
      have unitsOfBound :
          b.value * 10 ^ r.scale =
            (b.magnitude * 10 ^ (r.scale - b.scale) : Nat) := by
        rw [above]
        nth_rewrite 1 [← Nat.add_sub_cancel' notLonger]
        rw [pow_add]
        push_cast
        field_simp
      have unitsBelow := mul_le_mul_of_nonneg_right below
        (show (0 : ℚ) ≤ 10 ^ r.scale by positivity)
      rw [units_eq n fitted.scale_le, unitsOfBound,
        div_le_iff₀ (by positivity)] at unitsBelow
      rw [div_le_iff₀ (by positivity), unitsOfBound, fitted.magnitude_eq]
      refine Nat.cast_le.mpr (roundedQuotient_le (by positivity) ?_)
      rw [mul_comm]
      exact_mod_cast unitsBelow
  · have isScale := le_antisymm fitted.scale_le all
    rwa [fitted.magnitude_eq, isScale, Nat.sub_self, pow_zero,
      roundedQuotient_one]

end Fitted

/-! ## What sums and products are -/

/-- A decimal is a number up to the places that there is no room for. -/
def Rounds
    (r : Decimal)
    (x : ℚ) :
    Prop :=
  ∀ places ≤ maxScale, HasRoom x places → |r.value - x| ≤ halfUnit places

/-- A decimal is the nearest to a number among those that it can be written
as: its error is small beside it, and no decimal lies between them. -/
structure RoundsClosely
    (r : Decimal)
    (x : ℚ) :
    Prop where
  rounds : r.Rounds x
  small : |r.value - x| * (maxCoefficient + 1 / 2) ≤ 5 * |x|
  nonneg : 0 ≤ x → 0 ≤ r.value
  le_of_le : ∀ b : Decimal, 0 ≤ x → x ≤ b.value → r.value ≤ b.value

theorem rounds_self
    (r : Decimal) :
    r.Rounds r.value := by
  intro places _ _
  rw [sub_self, abs_zero]
  exact (halfUnit_pos places).le

theorem roundsClosely_self
    (r : Decimal) :
    r.RoundsClosely r.value where
  rounds := rounds_self r
  small := by
    rw [sub_self, abs_zero, zero_mul]
    positivity
  nonneg := id
  le_of_le _ _ := id

variable {a b r : Decimal}

private theorem abs_signed
    (negative : Bool)
    {x : ℚ}
    (nonneg : 0 ≤ x) :
    |signed negative x| = x := by
  unfold signed
  split
  · rw [abs_neg, abs_of_nonneg nonneg]
  · exact abs_of_nonneg nonneg

theorem Fitted.rounds
    {negative : Bool}
    {n scale : Nat}
    (fitted : Fitted negative n scale r) :
    r.Rounds (signed negative (n / 10 ^ scale)) := by
  intro places placesLe room
  refine fitted.abs_sub_le_of_hasRoom placesLe ?_
  unfold HasRoom InRange at room ⊢
  rwa [abs_signed negative (by positivity), ← abs_of_nonneg
    (show (0 : ℚ) ≤ n / 10 ^ scale by positivity)] at room

/-- Sign and magnitude of an integer give its number over a power of ten. -/
private theorem signed_ofInt
    (n : Int)
    (scale : Nat) :
    signed (decide (n < 0)) (n.natAbs / 10 ^ scale) = n / 10 ^ scale := by
  unfold signed
  rcases lt_or_ge n 0 with negative | nonneg
  · rw [decide_eq_true negative, if_pos rfl, Nat.cast_natAbs, abs_of_neg negative,
      Int.cast_neg, neg_div, neg_neg]
  · rw [decide_eq_false (not_lt.mpr nonneg), if_neg Bool.false_ne_true,
      Nat.cast_natAbs, abs_of_nonneg nonneg]

theorem add?_roundsClosely
    (found : a.add? b = some r) :
    r.RoundsClosely (a.value + b.value) := by
  unfold add? at found
  split at found
  · next isZero =>
    cases found
    rw [isZero_iff.mp isZero, zero_add]
    exact roundsClosely_self b
  split at found
  · next isZero =>
    cases found
    rw [isZero_iff.mp isZero, add_zero]
    exact roundsClosely_self a
  dsimp only at found
  set scale := max a.scale b.scale with scaleIs
  set total := a.coefficientAt scale + b.coefficientAt scale with totalIs
  have scaleLe : scale ≤ maxScale := max_le a.scale_le b.scale_le
  have fitted := fitted_of_fit? found
  have unit : (0 : ℚ) < 10 ^ scale := by positivity
  have totalEq : (total : ℚ) / 10 ^ scale = a.value + b.value := by
    rw [totalIs, Int.cast_add, cast_coefficientAt (le_max_left _ _),
      cast_coefficientAt (le_max_right _ _), ← add_mul,
      mul_div_cancel_right₀ _ unit.ne']
  have sumEq :
      signed (decide (total < 0)) (total.natAbs / 10 ^ scale) = a.value + b.value := by
    rw [signed_ofInt, totalEq]
  have magnitudeEq : (total.natAbs : ℚ) / 10 ^ scale = |a.value + b.value| := by
    rw [← sumEq, abs_signed _ (by positivity)]
  have notNegative
      (nonneg : 0 ≤ a.value + b.value) :
      r.value = r.magnitude / 10 ^ r.scale := by
    have totalNonneg : ¬ total < 0 := by
      rw [← totalEq, le_div_iff₀ unit, zero_mul] at nonneg
      exact not_lt.mpr (Int.cast_nonneg_iff.mp nonneg)
    rw [value_eq_signed, fitted.negative_eq, decide_eq_false totalNonneg]
    rfl
  refine ⟨?_, ?_, fun nonneg => ?_, fun bound nonneg below => ?_⟩
  · rw [← sumEq]
    exact fitted.rounds
  · have small := fitted.abs_sub_mul_le scaleLe
    rwa [sumEq, magnitudeEq] at small
  · rw [notNegative nonneg]
    positivity
  · rw [notNegative nonneg]
    refine fitted.magnitude_le_of_le scaleLe ?_
    rwa [magnitudeEq, abs_of_nonneg nonneg]

/-- A difference is taken as the sum with the opposite number. -/
private theorem value_opposite
    (b : Decimal) :
    (if b.IsZero then b else -b).value = -b.value := by
  split
  · next isZero => rw [isZero_iff.mp isZero, neg_zero]
  · exact value_neg b

theorem sub?_roundsClosely
    (found : a.sub? b = some r) :
    r.RoundsClosely (a.value - b.value) := by
  rw [sub_eq_add_neg, ← value_opposite]
  exact add?_roundsClosely found

/-- The product of two short factors is less than half a unit of any place
where it is too long to keep a digit. -/
private theorem rounds_zero_of_short
    (leftShort : a.IsShort)
    (rightShort : b.IsShort)
    (long : shortProductScale < a.scale + b.scale) :
    zero.Rounds (a.value * b.value) := by
  intro places placesLe _
  have left : (a.magnitude : ℚ) ≤ 2 ^ 32 := by exact_mod_cast leftShort.le
  have right : (b.magnitude : ℚ) ≤ 2 ^ 32 := by exact_mod_cast rightShort.le
  have units : (10 : ℚ) ^ 48 ≤ 10 ^ (a.scale + b.scale) :=
    pow_le_pow_right₀ (by norm_num) long
  have product : (a.magnitude * b.magnitude : ℚ) ≤ 2 ^ 32 * 2 ^ 32 :=
    mul_le_mul left right (by positivity) (by positivity)
  rw [value_zero, zero_sub, abs_neg, abs_mul, abs_value, abs_value, div_mul_div_comm,
    ← pow_add]
  calc
    (a.magnitude * b.magnitude : ℚ) / 10 ^ (a.scale + b.scale) ≤
        2 ^ 32 * 2 ^ 32 / 10 ^ 48 :=
      div_le_div₀ (by positivity) product (by positivity) units
    _ ≤ halfUnit maxScale := by
      norm_num [halfUnit, maxScale]
    _ ≤ halfUnit places :=
      halfUnit_le placesLe

theorem mul?_rounds
    (found : a.mul? b = some r) :
    r.Rounds (a.value * b.value) := by
  have signedEq :
      signed (a.negative != b.negative)
          ((a.magnitude * b.magnitude : Nat) / 10 ^ (a.scale + b.scale)) =
        a.value * b.value := by
    rw [value_eq_signed, value_eq_signed, pow_add, Nat.cast_mul, ← div_mul_div_comm]
    cases a.negative <;> cases b.negative <;> simp [signed]
  unfold mul? at found
  dsimp only at found
  split at found
  · next zeroFactor =>
    cases found
    have zeroProduct : a.value * b.value = zero.value := by
      rw [value_zero, mul_eq_zero]
      exact zeroFactor.imp isZero_iff.mp isZero_iff.mp
    rw [zeroProduct]
    exact rounds_self zero
  split at found
  · next short =>
    split at found
    · next long =>
      cases found
      exact rounds_zero_of_short short.1 short.2 long
    · obtain ⟨product, fits, rfl⟩ := Option.map_eq_some_iff.mp found
      intro places placesLe room
      rw [value_unsignedZero]
      rw [← signedEq] at room ⊢
      exact (fitted_of_fit? fits).rounds places placesLe room
  · rw [← signedEq]
    exact (fitted_of_fit? found).rounds

/-! ## What is in range -/

private theorem fitAt?_isSome
    (negative : Bool)
    {n scale : Nat}
    (bounded : n ≤ 10 ^ scale * maxCoefficient)
    (places : Nat) :
    (fitAt? negative n scale places).isSome := by
  induction places with
  | zero =>
      have rounded : roundedQuotient n (10 ^ scale) ≤ maxCoefficient :=
        roundedQuotient_le (by positivity) bounded
      simp [fitAt?, roundTo?, ofParts?, rounded]
  | succ fewer inductionHypothesis =>
      rw [fitAt?, Option.isSome_or, inductionHypothesis, Bool.or_true]

/-- A sum whose number is within 96 bits is found. -/
theorem add?_isSome
    (bounded : |a.value + b.value| ≤ maxCoefficient) :
    (a.add? b).isSome := by
  unfold add?
  split
  · rfl
  split
  · rfl
  refine fitAt?_isSome _ ?_ _
  set scale := max a.scale b.scale
  have totalEq :
      ((a.coefficientAt scale + b.coefficientAt scale : Int) : ℚ) =
        (a.value + b.value) * 10 ^ scale := by
    rw [Int.cast_add, cast_coefficientAt (le_max_left _ _),
      cast_coefficientAt (le_max_right _ _), add_mul]
  have inUnits :
      ((a.coefficientAt scale + b.coefficientAt scale).natAbs : ℚ) ≤
        10 ^ scale * maxCoefficient := by
    rw [Nat.cast_natAbs, Int.cast_abs, totalEq, abs_mul, mul_comm,
      abs_of_pos (show (0 : ℚ) < 10 ^ scale by positivity)]
    exact mul_le_mul_of_nonneg_left bounded (by positivity)
  exact_mod_cast inUnits

/-- A difference whose number is within 96 bits is found. -/
theorem sub?_isSome
    (bounded : |a.value - b.value| ≤ maxCoefficient) :
    (a.sub? b).isSome := by
  rw [sub_eq_add_neg, ← value_opposite] at bounded
  exact add?_isSome bounded

/-- Taking a part of what is there is always possible. -/
theorem sub?_isSome_of_le
    (partNonneg : 0 ≤ b.value)
    (partLe : b.value ≤ a.value) :
    (a.sub? b).isSome := by
  apply sub?_isSome
  rw [abs_of_nonneg (sub_nonneg.mpr partLe)]
  exact (sub_le_self _ partNonneg).trans ((le_abs_self _).trans a.abs_value_le)

end NetWorth.Decimal
