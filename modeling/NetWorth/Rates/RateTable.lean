import NetWorth.Asset
import NetWorth.Decimal.Quotient
import NetWorth.Table
import NetWorth.Time.Instant
/-!
# Exchange rates

A rate table quotes currencies against one base: the rate of a currency is how many units of it one
unit of the base buys, so an amount is divided by the rate to express it in the base.  Codes are
kept in normal form.
-/

namespace NetWorth

/-- Rates against one base currency, with the time of their last change. -/
structure RateTable where
  base : String
  rates : Table String Decimal
  updatedAt : Option Instant

/-- Why an amount cannot be expressed in the base currency. -/
inductive ConversionError where
  | rateUnavailable (base currency : String)
  | overflow (base currency : String) (amount : Decimal)
deriving DecidableEq

/-- The message of a failed conversion. -/
def ConversionError.message : ConversionError → String
  | rateUnavailable base currency => "no exchange rate from " ++ base ++ " to " ++ currency
  | overflow base currency amount =>
    "converting " ++ amount.toText ++ " " ++ currency ++ " to " ++ base ++ " overflows"

namespace RateTable

/-- A table without rates. -/
def empty (base : String) : RateTable :=
  ⟨normalCode base, .empty, none⟩

/-- Sets the rate of a currency. -/
def withRate (t : RateTable) (currency : String) (rate : Decimal) : RateTable :=
  { t with rates := t.rates.insert (normalCode currency) rate }

/-- The table of a list of rates, taken in order: of two spellings of one code the later wins. -/
def ofRates (base : String) (rates : List (String × Decimal)) (updatedAt : Option Instant) :
    RateTable :=
  { rates.foldl (fun t entry => t.withRate entry.1 entry.2) (empty base) with updatedAt }

/-- The usable rate of a currency: one for the base itself, and a stored rate if it is positive. -/
def rate? (t : RateTable) (currency : String) : Option Decimal :=
  let code := normalCode currency
  if code = t.base then some .one
  else (t.rates.get? code).filter (·.IsPositive)

/-- Expresses an amount in the base currency.  A rate of one leaves the amount as it is written. -/
def toBase (t : RateTable) (amount : Decimal) (currency : String) :
    Except ConversionError Decimal :=
  match t.rate? currency with
  | none => .error (.rateUnavailable t.base (normalCode currency))
  | some rate =>
    if rate.Same .one then .ok amount
    else
      match amount.div? rate with
      | none => .error (.overflow t.base (normalCode currency) amount)
      | some converted => .ok converted

end RateTable

end NetWorth
