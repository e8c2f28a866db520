import Mathlib
import NetWorth.Proofs.Decimal.Quotient
import NetWorth.Proofs.Decimal.Rounding

/-!
# Quotients that are not rounded

A quotient is exact as soon as there is a decimal that it could be.  As long as a
remainder is left, that decimal has more places than the division has reached;
so there is room for another digit, and nothing is rounded.  Digits beyond the
last place of that decimal are zeros, which may be given up or removed again.
-/

namespace NetWorth.Decimal

namespace Digits

/-- A number that is `magnitude` over `10 ^ places`, as a decimal is. -/
structure Attained
    (x : ℚ)
    (magnitude places : Nat) :
    Prop where
  exact : x * 10 ^ places = magnitude
  magnitude_le : magnitude ≤ maxCoefficient
  places_le : places ≤ 28

theorem attained_abs
    (c : Decimal) :
    Attained |c.value| c.magnitude c.scale where
  exact := by
    rw [abs_value, div_mul_cancel₀ _ (by positivity)]
  magnitude_le := c.magnitude_le
  places_le := c.scale_le

namespace Attained

variable
  {x : ℚ}
  {magnitude places : Nat}
  (attained : Attained x magnitude places)

include attained

theorem nonneg :
    0 ≤ x := by
  have scaled : 0 ≤ x * 10 ^ places := by
    rw [attained.exact]
    positivity
  exact nonneg_of_mul_nonneg_left scaled (by positivity)

/-- The places beyond the last one are zeros. -/
theorem mul_pow_add
    (beyond : Nat) :
    x * 10 ^ (places + beyond) = (magnitude * 10 ^ beyond : Nat) := by
  rw [pow_add, ← mul_assoc, attained.exact]
  push_cast
  rfl

/-- With fewer places the number has fewer units. -/
theorem mul_zpow_le
    {scale : Int}
    (within : scale ≤ places) :
    x * 10 ^ scale ≤ magnitude := by
  rw [← attained.exact, ← zpow_natCast]
  exact mul_le_mul_of_nonneg_left
    (zpow_le_zpow_right₀ (by norm_num) within) attained.nonneg

theorem le_maxCoefficient :
    x ≤ maxCoefficient := by
  have inUnits : x * 10 ^ (0 : Int) ≤ magnitude :=
    attained.mul_zpow_le (Int.natCast_nonneg places)
  rw [zpow_zero, mul_one] at inUnits
  exact inUnits.trans (by exact_mod_cast attained.magnitude_le)

end Attained

/-- A whole number is its own quotient and leaves no remainder. -/
private theorem quotient_of_whole
    {divisor q r whole : Nat}
    (remainderLt : r < divisor)
    (isWhole : (q + r / divisor : ℚ) = whole) :
    q = whole ∧ r = 0 := by
  have divisorPos : (0 : ℚ) < divisor := by
    exact_mod_cast (Nat.zero_le r).trans_lt remainderLt
  have less : (r / divisor : ℚ) < 1 := by
    rw [div_lt_one divisorPos]
    exact_mod_cast remainderLt
  have nonneg : (0 : ℚ) ≤ r / divisor := by positivity
  have atMost : q ≤ whole := by
    exact_mod_cast (le_add_of_nonneg_right nonneg).trans isWhole.le
  have atLeast : whole < q + 1 := by
    exact_mod_cast isWhole.ge.trans_lt (add_lt_add_right less _)
  have isQuotient : q = whole := by omega
  refine ⟨isQuotient, ?_⟩
  rw [isQuotient, add_eq_left, div_eq_zero_iff] at isWhole
  exact_mod_cast isWhole.resolve_right divisorPos.ne'

section Underway

variable
  {x : ℚ}
  {magnitude places divisor q r : Nat}
  {scale : Int}
  (attained : Attained x magnitude places)
  (underway : Underway x divisor q r scale)

include attained underway

/-- While a remainder is left, the last place has not been reached. -/
theorem scale_lt_of_remainder
    (remains : r ≠ 0) :
    scale < places := by
  by_contra reached
  obtain ⟨beyond, isScale⟩ :=
    Int.eq_ofNat_of_zero_le (sub_nonneg.mpr (not_lt.mp reached))
  obtain rfl : scale = (places + beyond : Nat) := by
    push_cast
    omega
  have whole := underway.exact
  rw [zpow_natCast, attained.mul_pow_add] at whole
  exact remains (quotient_of_whole underway.remainder_lt whole).2

/-- Up to the last place there is room for the digits that are added. -/
theorem grown_le_of_attained
    {count : Nat}
    (within : scale + count ≤ places) :
    q * 10 ^ count + r * 10 ^ count / divisor ≤ maxCoefficient := by
  have whole := attained.mul_zpow_le within
  rw [← underway.grow count] at whole
  have rest : (0 : ℚ) ≤ (r * 10 ^ count % divisor : Nat) / divisor := by
    positivity
  have grown :
      q * 10 ^ count + r * 10 ^ count / divisor ≤ magnitude := by
    exact_mod_cast (le_add_of_nonneg_right rest).trans whole
  exact grown.trans attained.magnitude_le

/-- While a remainder is left, there is room for one more digit. -/
theorem room_pos_of_remainder
    (remains : r ≠ 0)
    {most : Nat}
    (mostPos : 0 < most) :
    room q most ≠ 0 := by
  intro noRoom
  have notReached := scale_lt_of_remainder attained underway remains
  have tooLarge : maxCoefficient < q * 10 ^ 1 :=
    lt_of_room_lt (by omega) mostPos
  have fits :
      q * 10 ^ 1 + r * 10 ^ 1 / divisor ≤ maxCoefficient :=
    grown_le_of_attained attained underway (by omega)
  exact tooLarge.not_ge ((Nat.le_add_right _ _).trans fits)

/-- A division that stops has no remainder, so its digits are exact. -/
theorem exact_of_stop
    {extended : Bool}
    {digits : Digits}
    (stops :
      nextStep divisor q r scale extended = .stop (some digits)) :
    (digits.quotient : ℚ) = x * 10 ^ digits.scale := by
  by_cases noRemainder : r = 0
  · by_cases reached : 0 ≤ scale
    · simp only [nextStep, noRemainder, reached, if_true, Step.stop.injEq,
        Option.some.injEq] at stops
      rw [← stops, ← underway.exact, noRemainder, Nat.cast_zero, zero_div,
        add_zero]
    · simp [nextStep, noRemainder, reached] at stops
  · exfalso
    have notReached := scale_lt_of_remainder attained underway noRemainder
    have placesLe := attained.places_le
    have allPlaces : ¬ 28 ≤ scale := by omega
    have chunkPos : 0 < chunk := by decide
    have someRoom :=
      room_pos_of_remainder attained underway noRemainder
        (show 0 < min chunk (28 - scale).toNat by omega)
    simp only [nextStep, noRemainder, allPlaces, someRoom, if_false] at stops
    split at stops <;> simp at stops

/-- What no longer fits is beyond the last place, so the digit that is given up
is a zero. -/
theorem exact_of_dropLast
    {count : Nat}
    (tooLong :
      maxCoefficient < q * 10 ^ count + r * 10 ^ count / divisor)
    {digits : Digits}
    (dropped :
      dropLast (q * 10 ^ count + r * 10 ^ count / divisor)
        (r * 10 ^ count % divisor) (scale + count) = some digits) :
    (digits.quotient : ℚ) = x * 10 ^ digits.scale := by
  have past : places < scale + count := by
    by_contra within
    exact tooLong.not_ge
      (grown_le_of_attained attained underway (not_lt.mp within))
  obtain ⟨beyond, isBeyond⟩ :=
    Int.eq_ofNat_of_zero_le (show 0 ≤ scale + count - 1 - places by omega)
  have isScale : scale + count = (places + (beyond + 1) : Nat) := by
    push_cast
    omega
  have divisorPos : 0 < divisor :=
    (Nat.zero_le r).trans_lt underway.remainder_lt
  have grown := underway.grow count
  rw [isScale, zpow_natCast, attained.mul_pow_add] at grown
  obtain ⟨quotientEq, remainderEq⟩ :=
    quotient_of_whole (Nat.mod_lt _ divisorPos) grown
  have notNegative : ¬ scale + count - 1 < 0 := by omega
  rw [quotientEq, remainderEq, pow_succ, ← mul_assoc] at dropped
  simp only [dropLast, Nat.mul_mod_left, Nat.mul_div_cancel _ (show 0 < 10 by decide),
    shorten, notNegative, if_false] at dropped
  simp at dropped
  rw [← dropped, isScale, Nat.add_succ, Nat.cast_succ, add_sub_cancel_right,
    zpow_natCast, attained.mul_pow_add]

/-- No digits are added beyond the largest scale. -/
theorem scale_add_le_of_add
    {extended forced : Bool}
    {count : Nat}
    (adds : nextStep divisor q r scale extended = .add count forced) :
    scale + count ≤ 28 := by
  rcases nextStep_cases underway attained.le_maxCoefficient extended with
      ⟨_, stops, -⟩ | ⟨added, _, alsoAdds, -, within, -⟩
  · rw [adds] at stops
    cases stops
  · rw [adds] at alsoAdds
    cases alsoAdds
    exact within

/-- A division that comes to an end has found the number itself. -/
theorem extend_exact
    {extended : Bool}
    {digits : Digits}
    (found : extend divisor q r scale extended = some digits) :
    (digits.quotient : ℚ) = x * 10 ^ digits.scale := by
  -- the measure is the one by which `extend` itself ends
  induction places : (28 - scale).toNat using Nat.strong_induction_on
    generalizing q r scale extended with
  | _ _ inductionHypothesis =>
      rw [extend] at found
      split at found
      · next result stops =>
          rw [found] at stops
          exact exact_of_stop attained underway stops
      · next count forced adds =>
          have grows := nextStep_add adds
          simp only [Nat.pow_eq] at found
          split at found
          · cases found
          split at found
          · next tooLong =>
              exact exact_of_dropLast attained underway tooLong found
          · next fits =>
              have next :
                  Underway x divisor
                    (q * 10 ^ count + r * 10 ^ count / divisor)
                    (r * 10 ^ count % divisor) (scale + count) :=
                ⟨underway.grow count,
                  Nat.mod_lt _ ((Nat.zero_le r).trans_lt underway.remainder_lt),
                  not_lt.mp fits,
                  scale_add_le_of_add attained underway adds⟩
              exact inductionHypothesis _ (by omega) next found rfl

end Underway

/-! ## Removing zeros -/

/-- Digits that mean the same number, with other places. -/
def Alike
    (first second : Nat × Nat) :
    Prop :=
  (first.1 / 10 ^ first.2 : ℚ) = second.1 / 10 ^ second.2

/-- Zeros at the end of the places mean nothing. -/
theorem alike_of_zeros
    {q scale width : Nat}
    (within : width ≤ scale)
    (zeros : q % 10 ^ width = 0) :
    Alike (q / 10 ^ width, scale - width) (q, scale) := by
  obtain ⟨kept, rfl⟩ := Nat.dvd_of_mod_eq_zero zeros
  obtain ⟨places, rfl⟩ := Nat.exists_eq_add_of_le within
  rw [Alike, Nat.mul_div_cancel_left _ (by positivity), Nat.add_sub_cancel_left,
    pow_add]
  push_cast
  field_simp

theorem stripEights_alike
    (q scale : Nat) :
    Alike (stripEights q scale) (q, scale) := by
  fun_induction stripEights q scale with
  | case1 q scale eight inductionHypothesis =>
      have eightLess : Alike (q / 10 ^ 8, scale - 8) (q, scale) :=
        alike_of_zeros eight.1 eight.2.2
      exact inductionHypothesis.trans eightLess
  | case2 => rfl

theorem stripOnce_alike
    (width : Nat)
    (digits : Nat × Nat) :
    Alike (stripOnce width digits) digits := by
  obtain ⟨q, scale⟩ := digits
  by_cases zeros : width ≤ scale ∧ q % Nat.pow 10 width = 0
  · simp only [stripOnce, zeros, and_self, if_true]
    exact alike_of_zeros zeros.1 zeros.2
  · simp only [stripOnce, zeros, if_false]
    rfl

theorem strip_alike
    (q scale : Nat) :
    Alike (strip q scale) (q, scale) :=
  (stripOnce_alike 1 _).trans
    ((stripOnce_alike 2 _).trans
      ((stripOnce_alike 4 _).trans (stripEights_alike q scale)))

end Digits

/-- A quotient has the sign that its terms give it. -/
private theorem value_div_eq_signed
    (a b : Decimal) :
    a.value / b.value =
      signed (a.negative != b.negative) |a.value / b.value| := by
  rw [abs_div, abs_value, abs_value, value_eq_signed a, value_eq_signed b]
  cases a.negative <;> cases b.negative <;> simp [signed, div_neg, neg_div]

/-- The digits that are kept of a division: without the zeros that it has added. -/
private def Digits.kept
    (digits : Digits) :
    Nat × Nat :=
  if digits.extended then
    strip digits.quotient digits.scale.toNat
  else
    (digits.quotient, digits.scale.toNat)

private theorem Digits.kept_alike
    (digits : Digits) :
    Alike digits.kept (digits.quotient, digits.scale.toNat) := by
  unfold kept
  split
  · exact strip_alike _ _
  · rfl

private theorem Digits.Fitting.kept_le
    {digits : Digits}
    (fits : digits.Fitting) :
    digits.kept.1 ≤ maxCoefficient ∧ digits.kept.2 ≤ maxScale := by
  have scaleLe : digits.scale.toNat ≤ maxScale := by
    have within : digits.scale ≤ 28 := fits.scale_le
    have largest : maxScale = 28 := rfl
    omega
  unfold kept
  split
  · have stripped := strip_le digits.quotient digits.scale.toNat
    exact ⟨stripped.1.trans fits.quotient_le, stripped.2.trans scaleLe⟩
  · exact ⟨fits.quotient_le, scaleLe⟩

/-- A quotient that a decimal can be is found as it is. -/
theorem div?_exact
    {a b c : Decimal}
    (divisorNe : ¬ b.IsZero)
    (attained : a.value / b.value = c.value) :
    ∃ quotient, a.div? b = some quotient ∧ quotient.value = c.value := by
  by_cases zeroDividend : a.IsZero
  · refine ⟨zero, by simp only [div?, divisorNe, zeroDividend, if_true, if_false], ?_⟩
    rw [← attained, isZero_iff.mp zeroDividend, zero_div, value_zero]
  have isAttained := Digits.attained_abs c
  have underway := Digits.underway_start a divisorNe
  rw [attained] at underway
  obtain ⟨digits, found, fits⟩ :=
    Digits.extend_fitting isAttained.le_maxCoefficient underway false
  have exact := Digits.extend_exact isAttained underway found
  have keptLe := fits.kept_le
  refine ⟨unsignedZero ⟨a.negative != b.negative, digits.kept.1, digits.kept.2,
    keptLe.1, keptLe.2⟩, ?_, ?_⟩
  · simp only [div?, divisorNe, zeroDividend, if_false, found]
    change (ofParts? _ digits.kept.1 digits.kept.2).map unsignedZero = _
    rw [ofParts?, dif_pos keptLe, Option.map_some]
  · have isScale : (digits.scale.toNat : Int) = digits.scale :=
      Int.toNat_of_nonneg fits.scale_nonneg
    have magnitudeEq :
        (digits.kept.1 / 10 ^ digits.kept.2 : ℚ) = |c.value| := by
      have alike :
          (digits.kept.1 / 10 ^ digits.kept.2 : ℚ) =
            digits.quotient / 10 ^ digits.scale.toNat :=
        digits.kept_alike
      rw [alike, div_eq_iff (by positivity), exact, ← zpow_natCast, isScale]
    rw [value_unsignedZero, value_eq_signed, magnitudeEq, ← attained,
      ← value_div_eq_signed]

end NetWorth.Decimal
