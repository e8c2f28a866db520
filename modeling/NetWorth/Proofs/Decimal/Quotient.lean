import Mathlib
import NetWorth.Decimal.Quotient
import NetWorth.Proofs.Decimal.Value

/-!
# Quotients stay in range

Long division keeps the number that is divided: quotient and remainder stand
for it at the scale reached.  While integer digits are missing the scale is not
positive, so a number within 96 bits leaves room for them; once places have
been added, a digit that does not fit can be given up.  Hence a quotient whose
number is within 96 bits is always found, however small the divisor is.
-/

namespace NetWorth.Decimal

namespace Digits

/-- A division under way: its digits stand for the number `x`. -/
structure Underway
    (x : ℚ)
    (divisor q r : Nat)
    (scale : Int) :
    Prop where
  exact : (q + r / divisor : ℚ) = x * 10 ^ scale
  remainder_lt : r < divisor
  quotient_le : q ≤ maxCoefficient
  scale_le : scale ≤ 28

/-- Digits that a decimal can hold. -/
structure Fitting
    (digits : Digits) :
    Prop where
  quotient_le : digits.quotient ≤ maxCoefficient
  scale_nonneg : 0 ≤ digits.scale
  scale_le : digits.scale ≤ 28

/-- `room` finds the largest number of digits that stay in range. -/
theorem lt_of_room_lt
    {q count most : Nat}
    (full : room q most < count)
    (countLe : count ≤ most) :
    maxCoefficient < q * 10 ^ count := by
  induction most with
  | zero =>
      omega
  | succ most inductionHypothesis =>
      unfold room at full
      simp only [Nat.pow_eq] at full
      split at full
      · omega
      · next tooLarge =>
          rcases Nat.lt_or_ge most count with atMost | below
          · have : count = most + 1 := by omega
            subst this
            exact not_le.mp tooLarge
          · exact inductionHypothesis full below

theorem mul_pow_room_le
    {q most : Nat}
    (quotientLe : q ≤ maxCoefficient) :
    q * 10 ^ room q most ≤ maxCoefficient := by
  induction most with
  | zero =>
      simpa [room] using quotientLe
  | succ most inductionHypothesis =>
      unfold room
      simp only [Nat.pow_eq]
      split
      · assumption
      · exact inductionHypothesis

namespace Underway

variable {x : ℚ} {divisor q r : Nat} {scale : Int}

/-- More digits, up to the point, still stand for a number within 96 bits. -/
theorem mul_pow_le
    (underway : Underway x divisor q r scale)
    (bounded : x ≤ maxCoefficient)
    {count : Nat}
    (notPositive : scale + count ≤ 0) :
    (q + r / divisor : ℚ) * 10 ^ count ≤ maxCoefficient := by
  have divisorPos : (0 : ℚ) < divisor := by
    exact_mod_cast (Nat.zero_le r).trans_lt underway.remainder_lt
  have xNonneg : 0 ≤ x := by
    have scaled : 0 ≤ x * 10 ^ scale := by
      rw [← underway.exact]
      positivity
    exact nonneg_of_mul_nonneg_left scaled (by positivity)
  have shrinks : (10 : ℚ) ^ (scale + count) ≤ 1 :=
    zpow_le_one_of_nonpos₀ (by norm_num) notPositive
  calc
    (q + r / divisor : ℚ) * 10 ^ count =
        x * 10 ^ (scale + count) := by
      rw [underway.exact, zpow_add₀ (by norm_num), zpow_natCast]
      ring
    _ ≤ x * 1 := mul_le_mul_of_nonneg_left shrinks xNonneg
    _ ≤ maxCoefficient := by rwa [mul_one]

/-- Adding `count` digits of long division keeps the number. -/
theorem grow
    (underway : Underway x divisor q r scale)
    (count : Nat) :
    ((q * 10 ^ count + r * 10 ^ count / divisor : Nat) +
        (r * 10 ^ count % divisor : Nat) / divisor : ℚ) =
      x * 10 ^ (scale + count) := by
  have divisorNe : (divisor : ℚ) ≠ 0 := by
    have := underway.remainder_lt
    exact_mod_cast (by omega : divisor ≠ 0)
  have split :
      (divisor : ℚ) * (r * 10 ^ count / divisor : Nat) +
        (r * 10 ^ count % divisor : Nat) = r * 10 ^ count := by
    exact_mod_cast Nat.div_add_mod (r * 10 ^ count) divisor
  rw [zpow_add₀ (by norm_num), zpow_natCast, ← mul_assoc,
    ← underway.exact]
  push_cast
  field_simp
  linear_combination split

/-- Before the point there is room for the digits that are added. -/
theorem grown_le
    (underway : Underway x divisor q r scale)
    (bounded : x ≤ maxCoefficient)
    {count : Nat}
    (notPositive : scale + count ≤ 0) :
    q * 10 ^ count + r * 10 ^ count / divisor ≤ maxCoefficient := by
  have whole := underway.mul_pow_le bounded notPositive
  rw [underway.exact, mul_assoc, ← zpow_natCast,
    ← zpow_add₀ (by norm_num), ← underway.grow count] at whole
  have rest :
      (0 : ℚ) ≤ (r * 10 ^ count % divisor : Nat) / divisor := by
    positivity
  exact_mod_cast (le_add_of_nonneg_right rest).trans whole

/-- A full quotient before the point has no remainder. -/
theorem remainder_eq_zero
    (underway : Underway x divisor q r scale)
    (bounded : x ≤ maxCoefficient)
    (notPositive : scale ≤ 0)
    (full : maxCoefficient < q + 1) :
    r = 0 := by
  have whole :
      (q + r / divisor : ℚ) * 10 ^ 0 ≤ maxCoefficient :=
    underway.mul_pow_le bounded (by omega)
  have quotientEq : q = maxCoefficient := by
    have := underway.quotient_le
    omega
  have divisorPos : (0 : ℚ) < divisor := by
    exact_mod_cast (Nat.zero_le r).trans_lt underway.remainder_lt
  rw [pow_zero, mul_one, quotientEq, add_le_iff_nonpos_right,
    div_le_iff₀ divisorPos, zero_mul] at whole
  exact_mod_cast le_antisymm whole (by positivity)

/-- Rounding the last place stays in range once the point is reached. -/
theorem roundLast_fitting
    (underway : Underway x divisor q r scale)
    (bounded : x ≤ maxCoefficient)
    (scaleNonneg : 0 ≤ scale) :
    ∃ digits, roundLast divisor q r scale = some digits ∧
      digits.Fitting := by
  have quotientLe := underway.quotient_le
  have scaleLe := underway.scale_le
  by_cases up : divisor < 2 * r ∨ (2 * r = divisor ∧ q % 2 = 1)
  · by_cases full : maxCoefficient < q + 1
    · have places : ¬ scale - 1 < 0 := by
        intro noPlaces
        have noRemainder :=
          underway.remainder_eq_zero bounded (by omega) full
        have := underway.remainder_lt
        omega
      refine ⟨⟨(q + 1 + 5) / 10, scale - 1, true⟩,
        by simp only [roundLast, up, full, shorten, places, if_true,
          if_false], ?_, ?_, ?_⟩
      · have large : 1 ≤ maxCoefficient := by decide
        show (q + 1 + 5) / 10 ≤ maxCoefficient
        omega
      · exact not_lt.mp places
      · show scale - 1 ≤ 28
        omega
    · exact ⟨⟨q + 1, scale, true⟩,
        by simp only [roundLast, up, full, if_true, if_false],
        not_lt.mp full, scaleNonneg, scaleLe⟩
  · exact ⟨⟨q, scale, true⟩,
      by simp only [roundLast, up, if_false],
      quotientLe, scaleNonneg, scaleLe⟩

end Underway

/-- Giving up a digit brings a quotient that is barely too long in range. -/
theorem dropLast_fitting
    {q : Nat}
    (r : Nat)
    {scale : Int}
    (barely : q / 10 + 1 ≤ maxCoefficient)
    (places : 0 < scale)
    (scaleLe : scale ≤ 28) :
    ∃ digits, dropLast q r scale = some digits ∧ digits.Fitting := by
  have notNegative : ¬ scale - 1 < 0 := by omega
  by_cases up : 5 < q % 10 ∨ (q % 10 = 5 ∧ (r ≠ 0 ∨ q / 10 % 2 = 1))
  · refine ⟨⟨q / 10 + 1, scale - 1, true⟩, ?_, barely, ?_, ?_⟩
    · simp only [dropLast, up, shorten, notNegative, if_true, if_false]
    · exact not_lt.mp notNegative
    · show scale - 1 ≤ 28
      omega
  · refine ⟨⟨q / 10, scale - 1, true⟩, ?_, ?_, ?_, ?_⟩
    · simp only [dropLast, up, shorten, notNegative, if_false]
    · exact (Nat.le_succ _).trans barely
    · exact not_lt.mp notNegative
    · show scale - 1 ≤ 28
      omega

/-- What a division does next: it stops with digits that fit, or it adds few
enough digits, for which there is room or which are still integer digits. -/
theorem nextStep_cases
    {x : ℚ}
    {divisor q r : Nat}
    {scale : Int}
    (underway : Underway x divisor q r scale)
    (bounded : x ≤ maxCoefficient)
    (extended : Bool) :
    (∃ digits, nextStep divisor q r scale extended = .stop (some digits) ∧
      digits.Fitting) ∨
    (∃ count forced,
      nextStep divisor q r scale extended = .add count forced ∧
        count ≤ chunk ∧ scale + count ≤ 28 ∧
          q * 10 ^ count ≤ maxCoefficient) := by
  have quotientLe := underway.quotient_le
  have scaleLe := underway.scale_le
  by_cases noRemainder : r = 0
  · by_cases reached : 0 ≤ scale
    · exact .inl ⟨⟨q, scale, extended⟩,
        by simp only [nextStep, noRemainder, reached, if_true],
        quotientLe, reached, scaleLe⟩
    · refine .inr ⟨min chunk (-scale).toNat, extended,
        by simp only [nextStep, noRemainder, reached, if_true, if_false],
        min_le_left _ _, by omega, ?_⟩
      exact (Nat.le_add_right _ _).trans
        (underway.grown_le bounded (by omega))
  by_cases allPlaces : 28 ≤ scale
  · obtain ⟨digits, rounded, fits⟩ :=
      underway.roundLast_fitting bounded (by omega)
    exact .inl ⟨digits,
      by simp only [nextStep, noRemainder, allPlaces, if_true, if_false,
        rounded], fits⟩
  let wanted := min chunk (28 - scale).toNat
  let count := room q wanted
  have wantedPos : 0 < wanted := by
    have : 0 < chunk := by decide
    omega
  have countLe : count ≤ wanted := room_le q wanted
  have notStuck : ¬ (count < wanted ∧ count + scale < 0) := by
    rintro ⟨short, beforePoint⟩
    have tooLarge : maxCoefficient < q * 10 ^ (count + 1) :=
      lt_of_room_lt (Nat.lt_succ_self count) short
    have fits :
        q * 10 ^ (count + 1) + r * 10 ^ (count + 1) / divisor ≤
          maxCoefficient :=
      underway.grown_le bounded (by omega)
    exact tooLarge.not_ge ((Nat.le_add_right _ _).trans fits)
  by_cases noRoom : count = 0
  · obtain ⟨digits, rounded, fits⟩ :=
      underway.roundLast_fitting bounded (by omega)
    refine .inl ⟨digits, ?_, fits⟩
    simp only [nextStep, noRemainder, allPlaces, if_false]
    rw [if_neg notStuck, if_pos noRoom, rounded]
  · refine .inr ⟨count, true, ?_, ?_, ?_, mul_pow_room_le quotientLe⟩
    · simp only [nextStep, noRemainder, allPlaces, if_false]
      rw [if_neg notStuck, if_neg noRoom]
    · exact countLe.trans (min_le_left _ _)
    · omega

/-- A division whose number is within 96 bits ends with digits that fit. -/
theorem extend_fitting
    {x : ℚ}
    (bounded : x ≤ maxCoefficient)
    {divisor q r : Nat}
    {scale : Int}
    (underway : Underway x divisor q r scale)
    (extended : Bool) :
    ∃ digits, extend divisor q r scale extended = some digits ∧
      digits.Fitting := by
  -- the measure is the one by which `extend` itself ends
  induction places : (28 - scale).toNat using Nat.strong_induction_on
    generalizing q r scale extended with
  | _ places inductionHypothesis =>
      rcases nextStep_cases underway bounded extended with
          ⟨digits, stops, fits⟩ | ⟨count, forced, adds, few, within, fits⟩
      · exact ⟨digits, by rw [extend, stops], fits⟩
      have grows := nextStep_add adds
      have growing := underway.grow count
      have divisorPos : 0 < divisor :=
        (Nat.zero_le r).trans_lt underway.remainder_lt
      have shorter : r * 10 ^ count % divisor < divisor :=
        Nat.mod_lt _ divisorPos
      rw [extend, adds]
      simp only [Nat.pow_eq, not_lt.mpr fits, if_false]
      by_cases tooLong :
          maxCoefficient < q * 10 ^ count + r * 10 ^ count / divisor
      · rw [if_pos tooLong]
        have added : r * 10 ^ count / divisor < 10 ^ count :=
          Nat.div_lt_of_lt_mul
            (Nat.mul_lt_mul_of_pos_right underway.remainder_lt
              (by positivity))
        have unit : 10 ^ count ≤ 10 ^ chunk :=
          Nat.pow_le_pow_right (by norm_num) few
        have ample : 10 ^ chunk + 10 ≤ maxCoefficient := by decide
        have pastPoint : 0 < scale + count := by
          by_contra beforePoint
          have := underway.grown_le bounded (not_lt.mp beforePoint)
          omega
        exact dropLast_fitting _ (by omega) pastPoint within
      · rw [if_neg tooLong]
        have next : Underway x divisor _ _ (scale + count) :=
          ⟨growing, shorter, not_lt.mp tooLong, within⟩
        exact inductionHypothesis _ (by omega) next forced rfl

end Digits

/-- The digits before anything is added: the integer quotient. -/
theorem Digits.underway_start
    (a : Decimal)
    {b : Decimal}
    (divisorNe : ¬ b.IsZero) :
    Underway |a.value / b.value| b.magnitude
      (a.magnitude / b.magnitude) (a.magnitude % b.magnitude)
      (a.scale - b.scale) where
  exact := by
    have magnitudeNe : (b.magnitude : ℚ) ≠ 0 := by
      exact_mod_cast divisorNe
    have split :
        (b.magnitude : ℚ) * (a.magnitude / b.magnitude : Nat) +
          (a.magnitude % b.magnitude : Nat) = a.magnitude := by
      exact_mod_cast Nat.div_add_mod a.magnitude b.magnitude
    rw [abs_div, abs_value, abs_value, zpow_sub₀ (by norm_num),
      zpow_natCast, zpow_natCast]
    field_simp
    linear_combination split
  remainder_lt := Nat.mod_lt _ (Nat.pos_of_ne_zero divisorNe)
  quotient_le := (Nat.div_le_self _ _).trans a.magnitude_le
  scale_le := by
    have scaleLe : a.scale ≤ 28 := a.scale_le
    omega

/-- Removing zeros makes neither the digits nor the places more. -/
theorem Digits.stripEights_le
    (q scale : Nat) :
    (stripEights q scale).1 ≤ q ∧ (stripEights q scale).2 ≤ scale := by
  induction scale using Nat.strong_induction_on generalizing q with
  | _ scale inductionHypothesis =>
      unfold stripEights
      split
      · next eight =>
          obtain ⟨digitsLe, placesLe⟩ :=
            inductionHypothesis (scale - 8) (by omega) (q / 100_000_000)
          exact ⟨digitsLe.trans (Nat.div_le_self _ _), by omega⟩
      · exact ⟨le_rfl, le_rfl⟩

theorem Digits.stripOnce_le
    (width : Nat)
    (digits : Nat × Nat) :
    (stripOnce width digits).1 ≤ digits.1 ∧
      (stripOnce width digits).2 ≤ digits.2 := by
  obtain ⟨q, scale⟩ := digits
  by_cases zeros : width ≤ scale ∧ q % Nat.pow 10 width = 0
  · simp only [stripOnce, zeros, and_self, if_true]
    exact ⟨Nat.div_le_self _ _, Nat.sub_le _ _⟩
  · simp only [stripOnce, zeros, if_false, le_refl, and_self]

theorem Digits.strip_le
    (q scale : Nat) :
    (strip q scale).1 ≤ q ∧ (strip q scale).2 ≤ scale := by
  have eights := stripEights_le q scale
  have four := stripOnce_le 4 (stripEights q scale)
  have two := stripOnce_le 2 (stripOnce 4 (stripEights q scale))
  have one :=
    stripOnce_le 1 (stripOnce 2 (stripOnce 4 (stripEights q scale)))
  exact ⟨one.1.trans (two.1.trans (four.1.trans eights.1)),
    one.2.trans (two.2.trans (four.2.trans eights.2))⟩

/-- A quotient whose number is within 96 bits is found. -/
theorem div?_isSome
    {a b : Decimal}
    (divisorNe : ¬ b.IsZero)
    (bounded : |a.value / b.value| ≤ maxCoefficient) :
    (a.div? b).isSome := by
  by_cases zeroDividend : a.IsZero
  · simp [div?, divisorNe, zeroDividend]
  obtain ⟨digits, found, fits⟩ :=
    Digits.extend_fitting bounded
      (Digits.underway_start a divisorNe) false
  have scaleLe : digits.scale.toNat ≤ maxScale := by
    have within : digits.scale ≤ 28 := fits.scale_le
    have largest : maxScale = 28 := rfl
    omega
  have stripped := Digits.strip_le digits.quotient digits.scale.toNat
  simp only [div?, divisorNe, zeroDividend, if_false, found]
  split
  · simp [ofParts?, stripped.1.trans fits.quotient_le,
      stripped.2.trans scaleLe]
  · simp [ofParts?, fits.quotient_le, scaleLe]

private theorem negative_eq_false_of_pos
    {a : Decimal}
    (pos : 0 < a.value) :
    a.negative = false := by
  have coefficientPos : 0 < a.coefficient := isPositive_iff.mpr pos
  unfold coefficient at coefficientPos
  cases sign : a.negative with
  | false => rfl
  | true =>
      simp only [sign, if_true] at coefficientPos
      omega

private theorem value_nonneg_of_ofParts?
    {magnitude scale : Nat}
    {a : Decimal}
    (found : ofParts? false magnitude scale = some a) :
    0 ≤ a.value := by
  unfold ofParts? at found
  split at found
  · cases found
    simp only [value, coefficient, Bool.false_eq_true, if_false, Int.cast_natCast]
    positivity
  · cases found

/-- A quotient has the sign of its terms. -/
theorem div?_nonneg
    {a b quotient : Decimal}
    (dividendNonneg : 0 ≤ a.value)
    (divisorPos : 0 < b.value)
    (found : a.div? b = some quotient) :
    0 ≤ quotient.value := by
  have divisorNe : ¬ b.IsZero := fun isZero =>
    divisorPos.ne' (isZero_iff.mp isZero)
  by_cases zeroDividend : a.IsZero
  · simp only [div?, divisorNe, zeroDividend, if_true, if_false,
      Option.some.injEq] at found
    rw [← found, value_zero]
  have dividendPos : 0 < a.value :=
    dividendNonneg.lt_of_ne fun isZero =>
      zeroDividend (isZero_iff.mpr isZero.symm)
  simp only [div?, divisorNe, zeroDividend, if_false,
    negative_eq_false_of_pos dividendPos, negative_eq_false_of_pos divisorPos,
    bne_self_eq_false] at found
  split at found
  · cases found
  obtain ⟨digits, fits, rfl⟩ := Option.map_eq_some_iff.mp found
  rw [value_unsignedZero]
  exact value_nonneg_of_ofParts? fits

end NetWorth.Decimal
