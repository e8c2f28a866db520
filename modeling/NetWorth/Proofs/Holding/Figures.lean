import Mathlib
import NetWorth.Proofs.Holding.Isolation

/-!
# The figures of a holding

A holding shows its price, its value, its gain and the gain in percent together
if the operations that they take are all in range, and otherwise what it comes
to without a price: the cost is lost as a whole.  Losing all of it is always in
range, whatever it has been, so nothing stands in for these figures.
-/

namespace NetWorth

namespace Decimal

/-- A number other than zero goes into its opposite exactly once. -/
private theorem div?_neg_self
    {a : Decimal}
    (notZero : ¬ a.IsZero) :
    (-a).div? a = some (-one) := by
  have oppositeNotZero : ¬ (-a).IsZero := notZero
  have magnitudePos : 0 < a.magnitude := Nat.pos_of_ne_zero notZero
  have once : a.magnitude / a.magnitude = 1 := Nat.div_self magnitudePos
  have signs : ((!a.negative) != a.negative) = true := by
    cases a.negative <;> rfl
  have digits :
      Digits.extend a.magnitude 1 0 0 false = some ⟨1, 0, false⟩ := by
    rw [Digits.extend]
    rfl
  have magnitudeEq : (-a).magnitude = a.magnitude := rfl
  have scaleEq : (-a).scale = a.scale := rfl
  have signEq : (-a).negative = !a.negative := rfl
  simp only [div?, notZero, oppositeNotZero, if_false, magnitudeEq, scaleEq, once,
    Nat.mod_self, sub_self, digits, signEq, signs]
  rfl

end Decimal

namespace Figures

/-- The figures that the operations at a price give, where all are in range. -/
structure ComputedAt
    (quantity totalCost price : Decimal)
    (figures : Figures) :
    Prop where
  totalValue : quantity.mul? price = some figures.totalValue
  gainLoss : figures.totalValue.sub? totalCost = some figures.gainLoss
  percentage_of_zero :
    totalCost.IsZero → figures.gainLossPercentage = .zero
  percentage :
    ¬ totalCost.IsZero →
      (figures.gainLoss.div? totalCost).bind (·.mul? .hundred) =
        some figures.gainLossPercentage

/-- What a cost comes to when all of it is lost. -/
def ofLoss
    (totalCost : Decimal) :
    Figures where
  totalValue :=
    .zero
  gainLoss :=
    if totalCost.IsZero then totalCost else -totalCost
  gainLossPercentage :=
    if totalCost.IsZero then .zero else -.hundred

/-- A loss counts against the cost. -/
theorem value_gainLoss_ofLoss
    (totalCost : Decimal) :
    (ofLoss totalCost).gainLoss.value = -totalCost.value := by
  unfold ofLoss
  dsimp only
  split
  · next isZero => rw [Decimal.isZero_iff.mp isZero, neg_zero]
  · exact Decimal.value_neg totalCost

section ComputedAt

variable
  {quantity totalCost price : Decimal}
  {figures : Figures}

/-- Figures are found exactly if all operations are in range. -/
theorem atPrice?_eq_some_iff :
    atPrice? quantity totalCost price = some figures ↔
      figures.ComputedAt quantity totalCost price := by
  have percentageIff (gainLoss percentage : Decimal) :
      percentage? gainLoss totalCost = some percentage ↔
        (totalCost.IsZero → percentage = .zero) ∧
          (¬ totalCost.IsZero →
            (gainLoss.div? totalCost).bind (·.mul? .hundred) =
              some percentage) := by
    unfold percentage?
    by_cases isZero : totalCost.IsZero
    · simp [isZero, eq_comm]
    · simp [isZero]
  simp only [atPrice?, Option.bind_eq_bind, Option.bind_eq_some_iff,
    Option.pure_def, Option.some.injEq]
  constructor
  · rintro ⟨totalValue, product, gainLoss, difference, percentage, found, rfl⟩
    obtain ⟨ofZero, otherwise⟩ := (percentageIff gainLoss percentage).mp found
    exact ⟨product, difference, ofZero, otherwise⟩
  · rintro ⟨product, difference, ofZero, otherwise⟩
    exact ⟨_, product, _, difference, _,
      (percentageIff _ _).mpr ⟨ofZero, otherwise⟩, rfl⟩

/-- Without a price all is lost, and this is always in range. -/
theorem ofLoss_computedAt_zero
    (quantity totalCost : Decimal) :
    (ofLoss totalCost).ComputedAt quantity totalCost .zero where
  totalValue := by
    have zeroFactor : quantity.IsZero ∨ Decimal.zero.IsZero := .inr rfl
    simp only [Decimal.mul?, if_pos zeroFactor, ofLoss]
  gainLoss := by
    have isZero : Decimal.zero.IsZero := rfl
    change Decimal.zero.add? (if totalCost.IsZero then totalCost else -totalCost) = _
    rw [Decimal.add?, if_pos isZero]
    rfl
  percentage_of_zero isZero := by
    simp only [ofLoss, isZero, if_true]
  percentage notZero := by
    have wholeLoss : (-Decimal.one).mul? .hundred = some (-.hundred) := by
      decide +kernel
    simp only [ofLoss, notZero, if_false, Decimal.div?_neg_self notZero,
      Option.bind_some, wholeLoss]

/-- Nothing stands in for the figures without a price. -/
theorem atZero_eq
    (quantity totalCost : Decimal) :
    atZero quantity totalCost = ofLoss totalCost := by
  rw [atZero, atPrice?_eq_some_iff.mpr (ofLoss_computedAt_zero quantity totalCost),
    Option.getD_some]

end ComputedAt

end Figures

/-- The figures that a holding shows. -/
def Holding.figures
    (holding : Holding) :
    Figures where
  totalValue :=
    holding.totalValue
  gainLoss :=
    holding.gainLoss
  gainLossPercentage :=
    holding.gainLossPercentage

namespace Position

variable
  (position : Position)
  (displayCurrency : String)
  (rates : RateTable)
  (answer : PriceAnswer)

/-- The price that an answer gives, or zero if it gives none. -/
def quotedPrice :
    PriceAnswer → Decimal
  | .ok quote => quote.price
  | .error _ => .zero

/-- A holding shows the price that counts and the figures at it. -/
theorem figures_valued :
    ((position.valued displayCurrency rates answer).currentPrice,
        (position.valued displayCurrency rates answer).figures) =
      Figures.counted position.quantity position.totalCost (quotedPrice answer) := by
  cases answer <;> rfl

/-- A position is valued at its quote. -/
theorem valued_of_computedAt
    {quote : Quote}
    {figures : Figures}
    (computed :
      figures.ComputedAt position.quantity position.totalCost quote.price) :
    (position.valued displayCurrency rates (.ok quote)).currentPrice = quote.price ∧
      (position.valued displayCurrency rates (.ok quote)).figures = figures := by
  have shown := position.figures_valued displayCurrency rates (.ok quote)
  simp only [quotedPrice, Figures.counted,
    Figures.atPrice?_eq_some_iff.mpr computed, Prod.mk.injEq] at shown
  exact shown

/-- Without figures at a quote, a position is valued as lost. -/
theorem valued_of_not_computedAt
    (notComputed :
      ¬ ∃ quote figures,
        answer = .ok quote ∧
          Figures.ComputedAt position.quantity position.totalCost quote.price
            figures) :
    (position.valued displayCurrency rates answer).currentPrice = .zero ∧
      (position.valued displayCurrency rates answer).figures =
        .ofLoss position.totalCost := by
  have shown := position.figures_valued displayCurrency rates answer
  cases answer with
  | error error =>
      simp only [quotedPrice, Figures.counted, Figures.atPrice?_eq_some_iff.mpr
        (Figures.ofLoss_computedAt_zero position.quantity position.totalCost),
        Prod.mk.injEq] at shown
      exact shown
  | ok quote =>
      have outOfRange :
          Figures.atPrice? position.quantity position.totalCost quote.price = none := by
        rw [Option.eq_none_iff_forall_ne_some]
        intro figures found
        exact notComputed ⟨quote, figures, rfl, Figures.atPrice?_eq_some_iff.mp found⟩
      simp only [quotedPrice, Figures.counted, outOfRange, Figures.atZero_eq,
        Prod.mk.injEq] at shown
      exact shown

/--
The figures of every holding.  At a quote where all operations are in range they
are what these operations give.  In every other case the price is zero and the
cost is lost as a whole, which the operations at a price of zero give: these are
always in range, so the figures in their place are never used.
-/
theorem valued_at_quote_or_lost :
    (∀ quote figures,
        answer = .ok quote →
          Figures.ComputedAt position.quantity position.totalCost quote.price
              figures →
            (position.valued displayCurrency rates answer).currentPrice =
                quote.price ∧
              (position.valued displayCurrency rates answer).figures = figures) ∧
      ((¬ ∃ quote figures,
          answer = .ok quote ∧
            Figures.ComputedAt position.quantity position.totalCost quote.price
              figures) →
        (position.valued displayCurrency rates answer).currentPrice = .zero ∧
          (position.valued displayCurrency rates answer).figures =
              .ofLoss position.totalCost ∧
            (position.valued displayCurrency rates answer).gainLoss.value =
              -position.totalCost.value) ∧
        Figures.atPrice? position.quantity position.totalCost .zero =
          some (.ofLoss position.totalCost) := by
  refine ⟨?_, fun notComputed => ?_, ?_⟩
  · rintro quote figures rfl computed
    exact position.valued_of_computedAt displayCurrency rates computed
  · obtain ⟨price, figures⟩ :=
      position.valued_of_not_computedAt displayCurrency rates answer notComputed
    have gainLoss :
        (position.valued displayCurrency rates answer).gainLoss =
          (Figures.ofLoss position.totalCost).gainLoss :=
      congrArg Figures.gainLoss figures
    refine ⟨price, figures, ?_⟩
    rw [gainLoss, Figures.value_gainLoss_ofLoss]
  · exact Figures.atPrice?_eq_some_iff.mpr
      (Figures.ofLoss_computedAt_zero position.quantity position.totalCost)

/-- One hundred shares that have cost 150 each. -/
def hundredShares :
    Position where
  key :=
    ⟨.stock, "AAPL", "USD"⟩
  tickerName :=
    ""
  lots :=
    [⟨.hundred, Ledger.sampleDecimal 150 0, 0⟩]
  quantity :=
    .hundred
  totalCost :=
    Ledger.sampleDecimal 15000 0
  averageCost :=
    Ledger.sampleDecimal 150 0

/-- A quote that one hundred shares are out of range at. -/
def dearQuote :
    Quote :=
  { Appraisal.shareQuote with price := Ledger.sampleDecimal (10 ^ 27) 0 }

private theorem hundredShares_computedAt :
    Figures.ComputedAt hundredShares.quantity hundredShares.totalCost
      Appraisal.shareQuote.price
      ⟨Ledger.sampleDecimal 20000 0, Ledger.sampleDecimal 5000 0,
        Ledger.sampleDecimal 33333333333333333333333333330 27⟩ :=
  Figures.atPrice?_eq_some_iff.mp (by decide +kernel)

private theorem hundredShares_not_computedAt :
    ¬ ∃ quote figures,
      (.ok dearQuote : PriceAnswer) = .ok quote ∧
        Figures.ComputedAt hundredShares.quantity hundredShares.totalCost
          quote.price figures := by
  rintro ⟨quote, figures, answered, computed⟩
  cases answered
  have outOfRange :
      Figures.atPrice? hundredShares.quantity hundredShares.totalCost
        dearQuote.price = none := by
    decide +kernel
  rw [Figures.atPrice?_eq_some_iff.mpr computed] at outOfRange
  cases outOfRange

/-- At 200 a share they have gained a third, and where they are out of range
all of their cost is lost. -/
theorem valued_at_quote_or_lost_hundredShares :
    (hundredShares.valued "USD" (.empty "USD")
          (.ok Appraisal.shareQuote)).gainLossPercentage =
        Ledger.sampleDecimal 33333333333333333333333333330 27 ∧
      (hundredShares.valued "USD" (.empty "USD") (.ok dearQuote)).currentPrice =
          .zero ∧
        (hundredShares.valued "USD" (.empty "USD") (.ok dearQuote)).figures =
          ⟨.zero, -Ledger.sampleDecimal 15000 0, -.hundred⟩ := by
  obtain ⟨atQuote, -⟩ :=
    valued_at_quote_or_lost hundredShares "USD" (.empty "USD")
      (.ok Appraisal.shareQuote)
  obtain ⟨-, otherwise, -⟩ :=
    valued_at_quote_or_lost hundredShares "USD" (.empty "USD") (.ok dearQuote)
  obtain ⟨-, gained⟩ := atQuote _ _ rfl hundredShares_computedAt
  obtain ⟨price, lost, -⟩ := otherwise hundredShares_not_computedAt
  exact ⟨congrArg Figures.gainLossPercentage gained, price,
    lost.trans (by decide +kernel)⟩

end Position

end NetWorth
