import Mathlib
import NetWorth.Proofs.Text.NormalCode
import NetWorth.Rates.RateTable

/-!
# Conversions

A conversion looks at nothing of a rate table but the usable rate of the code,
and at nothing of the code but its normal form.  An amount in the base stays as
it is, whatever rates are stored.
-/

namespace NetWorth.RateTable

variable (rates : RateTable)

/-- Every spelling of a code has the rate of its normal form. -/
@[simp] theorem rate?_normalCode
    (currency : String) :
    rates.rate? (normalCode currency) = rates.rate? currency := by
  unfold rate?
  rw [normalCode_normalCode]

/-- Every spelling of a code is converted alike. -/
@[simp] theorem toBase_normalCode
    (amount : Decimal)
    (currency : String) :
    rates.toBase amount (normalCode currency) =
      rates.toBase amount currency := by
  unfold toBase
  rw [rate?_normalCode, normalCode_normalCode]

/-- What an amount is worth at a rate. -/
def exchanged?
    (amount rate : Decimal) :
    Option Decimal :=
  if rate.Same .one then some amount else amount.div? rate

/-- A conversion depends on the usable rate alone. -/
theorem toOption_toBase
    (amount : Decimal)
    (currency : String) :
    (rates.toBase amount currency).toOption =
      (rates.rate? currency).bind (exchanged? amount) := by
  unfold toBase
  cases rates.rate? currency with
  | none => rfl
  | some rate =>
      rw [Option.bind_some, exchanged?]
      by_cases isOne : rate.Same .one
      · simp only [isOne, if_true]
        rfl
      · simp only [isOne, if_false]
        cases amount.div? rate <;> rfl

/-- An amount in the base stays as it is. -/
theorem toBase_of_eq_base
    {currency : String}
    (inBase : normalCode currency = rates.base)
    (amount : Decimal) :
    rates.toBase amount currency = .ok amount := by
  have rateIsOne : rates.rate? currency = some .one := by
    simp only [rate?, inBase, if_true]
  have oneIsOne : Decimal.one.Same .one := rfl
  simp only [toBase, rateIsOne, oneIsOne, if_true]

end NetWorth.RateTable
