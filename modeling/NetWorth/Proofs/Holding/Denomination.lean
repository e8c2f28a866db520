import Mathlib
import NetWorth.Proofs.Holding.Figures

/-!
# The currency of a holding

A price is asked for by class and ticker, and it counts whatever currency its
quote names.  The cost of a holding is in the currency of its trades, and so is
the rate at which its value is shown.  To say when all of these belong together,
amounts are taken with their currencies here: there is a difference between
amounts of one currency only, and an amount is shown at the rate of its own.

A holding that has a price comes to what its amounts come to as money exactly if
its quote is in the currency of its trades.
-/

namespace NetWorth

/-- An amount in a currency, whose code is in its normal form. -/
structure Money where
  amount : Decimal
  currency : String

namespace Money

/-- What a quantity comes to at a price. -/
def times?
    (price : Money)
    (quantity : Decimal) :
    Option Money :=
  (quantity.mul? price.amount).map (⟨·, price.currency⟩)

/-- The difference of two amounts of one currency. -/
def minus?
    (money other : Money) :
    Option Money :=
  if money.currency = other.currency then
    (money.amount.sub? other.amount).map (⟨·, money.currency⟩)
  else
    none

/-- An amount in the display currency, at the rate of its own currency. -/
def shown?
    (money : Money)
    (displayCurrency : String)
    (rates : RateTable) :
    Option Decimal :=
  if money.currency = displayCurrency then
    some money.amount
  else
    (rates.toBase money.amount money.currency).toOption

/-- A difference is one of amounts of one currency. -/
theorem currency_eq_of_minus?
    {money other difference : Money}
    (found : money.minus? other = some difference) :
    money.currency = other.currency := by
  unfold minus? at found
  split at found
  · assumption
  · cases found

end Money

/-- The price of a quote with its currency. -/
def Quote.unitPrice
    (quote : Quote) :
    Money where
  amount :=
    quote.price
  currency :=
    normalCode quote.currency

namespace Holding

/-- The cost of a holding with the currency of its trades. -/
def cost
    (holding : Holding) :
    Money where
  amount :=
    holding.totalCost
  currency :=
    holding.currency

/-- The value, the gain and the shown value of a holding are what its quantity
comes to at a quote, as amounts of one currency. -/
def InOneCurrency
    (holding : Holding)
    (quote : Quote)
    (displayCurrency : String)
    (rates : RateTable) :
    Prop :=
  ∃ worth,
    quote.unitPrice.times? holding.quantity = some worth ∧
      worth.amount = holding.totalValue ∧
        worth.minus? holding.cost = some ⟨holding.gainLoss, holding.currency⟩ ∧
          worth.shown? (normalCode displayCurrency) rates = holding.displayValue

end Holding

/-- What a quote is in decides about a holding that is valued at it. -/
theorem Position.inOneCurrency_valued
    (position : Position)
    (displayCurrency : String)
    (rates : RateTable)
    {quote : Quote}
    {figures : Figures}
    (computed :
      figures.ComputedAt position.quantity position.totalCost quote.price) :
    (position.valued (normalCode displayCurrency) rates (.ok quote)).InOneCurrency
        quote displayCurrency rates ↔
      normalCode quote.currency = position.key.currency := by
  obtain ⟨-, isFigures⟩ :=
    position.valued_of_computedAt (normalCode displayCurrency) rates computed
  have totalValue := congrArg Figures.totalValue isFigures
  have gainLoss := congrArg Figures.gainLoss isFigures
  have worthFound :
      quote.unitPrice.times? position.quantity =
        some ⟨figures.totalValue, normalCode quote.currency⟩ := by
    simp only [Money.times?, Quote.unitPrice, computed.totalValue, Option.map_some]
  constructor
  · rintro ⟨worth, isWorth, -, difference, -⟩
    cases Option.some.inj (worthFound.symm.trans isWorth)
    exact Money.currency_eq_of_minus? difference
  · intro sameCurrency
    rw [sameCurrency] at worthFound
    refine ⟨_, worthFound, totalValue.symm, ?_, ?_⟩
    · refine (if_pos rfl).trans ?_
      change (figures.totalValue.sub? position.totalCost).map _ = _
      rw [computed.gainLoss, ← gainLoss]
      rfl
    · rw [Position.displayValue_valued]
      change _ = position.displayValue _ _
        (position.valued (normalCode displayCurrency) rates (.ok quote)).figures.totalValue
      rw [isFigures]
      rfl

namespace Appraisal

section Holdings

variable
  {World : Type}
  {appraisal : Appraisal World}
  {holdings : Table GroupKey Holding}

/--
A holding with a price has been priced by a quote for its class and ticker,
whatever currency the quote names.  Its value, its gain and its shown value are
amounts of one currency exactly if that is the currency of the holding.
-/
theorem inOneCurrency_iff_quoted
    (valued : appraisal.run.1 = .ok holdings)
    {key : GroupKey}
    {holding : Holding}
    (found : holdings.get? key = some holding)
    (priced : ¬ holding.currentPrice.IsZero) :
    ∃ quote,
      (∃ lookup ∈ appraisal.lookups,
          lookup.Concerns key ∧ lookup.answer = .ok quote) ∧
        holding.currentPrice = quote.price ∧
          (holding.InOneCurrency quote appraisal.displayCurrency appraisal.rates ↔
            normalCode quote.currency = holding.currency) := by
  obtain ⟨position, -, -, isOpen, isClosed⟩ := get?_of_valued valued key
  by_cases isPositive : position.quantity.IsPositive
  case neg =>
    rw [isClosed isPositive] at found
    cases found
  obtain ⟨lookup, made, concerns, isHolding⟩ := isOpen isPositive
  cases Option.some.inj (isHolding.symm.trans found)
  by_cases hasFigures :
      ∃ quote figures,
        lookup.answer = .ok quote ∧
          Figures.ComputedAt position.quantity position.totalCost quote.price figures
  case neg =>
    have isZero :=
      (position.valued_of_not_computedAt (normalCode appraisal.displayCurrency)
        appraisal.rates lookup.answer hasFigures).1
    rw [isZero] at priced
    exact absurd rfl priced
  obtain ⟨quote, figures, answered, computed⟩ := hasFigures
  refine ⟨quote, ⟨lookup, made, concerns, answered⟩, ?_, ?_⟩
  · rw [answered]
    exact (position.valued_of_computedAt _ _ computed).1
  · rw [answered]
    exact position.inOneCurrency_valued _ _ computed

end Holdings

/-- The share bought in yen, at the price in dollars. -/
def shareInYen :
    Holding :=
  (boughtAtHundred ⟨.stock, "AAPL", "JPY"⟩ 1).valued (normalCode "twd") among.rates
    (.ok shareQuote)

private theorem among_shareInYen :
    ∃ holdings,
      among.run.1 = .ok holdings ∧
        holdings.get? ⟨.stock, "AAPL", "JPY"⟩ = some shareInYen :=
  ⟨_, among_run.1, by decide +kernel⟩

private theorem shareInYen_priced :
    ¬ shareInYen.currentPrice.IsZero := by
  decide +kernel

/-- Every quote that is given for the share is in dollars. -/
private theorem among_quote
    {lookup : Lookup}
    (made : lookup ∈ among.lookups)
    {quote : Quote}
    (answered : lookup.answer = .ok quote) :
    normalCode quote.currency = "USD" := by
  rw [among_run.2] at made
  have isShareQuote : quote = shareQuote := by
    simp only [List.mem_cons, List.not_mem_nil, or_false, or_self_left] at made
    rcases made with rfl | rfl
    · exact (Except.ok.inj answered).symm
    · cases answered
  rw [isShareQuote]
  decide +kernel

/-- The share in yen is worth two hundred dollars, and what it has gained on a
hundred yen is no amount of either. -/
theorem inOneCurrency_iff_quoted_shareInYen :
    ∃ holdings,
      among.run.1 = .ok holdings ∧
        holdings.get? ⟨.stock, "AAPL", "JPY"⟩ = some shareInYen ∧
          ¬ shareInYen.currentPrice.IsZero ∧
            ∃ quote,
              shareInYen.currentPrice = quote.price ∧
                ¬ shareInYen.InOneCurrency quote among.displayCurrency
                  among.rates := by
  obtain ⟨holdings, valued, found⟩ := among_shareInYen
  obtain ⟨quote, ⟨lookup, made, -, answered⟩, isPrice, inOneCurrency⟩ :=
    inOneCurrency_iff_quoted valued found shareInYen_priced
  refine ⟨holdings, valued, found, shareInYen_priced, quote, isPrice, ?_⟩
  rw [inOneCurrency, among_quote made answered]
  decide +kernel

/-- A holding may have a price without any quote in its own currency. -/
theorem priced_in_other_currency :
    ¬ ∀ (appraisal : Appraisal Unit) (holdings : Table GroupKey Holding)
        (key : GroupKey) (holding : Holding),
      appraisal.run.1 = .ok holdings →
        holdings.get? key = some holding →
          ¬ holding.currentPrice.IsZero →
            ∃ lookup ∈ appraisal.lookups,
              lookup.Concerns key ∧
                ∃ quote,
                  lookup.answer = .ok quote ∧
                    holding.currentPrice = quote.price ∧
                      normalCode quote.currency = holding.currency := by
  intro inOwnCurrency
  obtain ⟨holdings, valued, found⟩ := among_shareInYen
  obtain ⟨lookup, made, -, quote, answered, -, sameCurrency⟩ :=
    inOwnCurrency among holdings _ shareInYen valued found shareInYen_priced
  rw [among_quote made answered] at sameCurrency
  exact absurd sameCurrency (by decide +kernel)

end Appraisal

end NetWorth
