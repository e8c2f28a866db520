import NetWorth.Ledger.Position
import NetWorth.Rates.RateTable
/-!
# Holdings

An open position with its value at a quoted price.  A price that is missing, or that leads out of
the range of decimals, counts as zero.
-/

namespace NetWorth

/-- A valued position. -/
structure Holding where
  ticker : String
  tickerName : String
  assetClass : AssetClass
  currency : String
  quantity : Decimal
  averageCost : Decimal
  totalCost : Decimal
  /-- Zero when there is no price. -/
  currentPrice : Decimal
  totalValue : Decimal
  /-- Missing when there is no rate to the display currency. -/
  displayValue : Option Decimal
  gainLoss : Decimal
  gainLossPercentage : Decimal
deriving DecidableEq

/-- The key of the position behind a holding. -/
def Holding.key (h : Holding) : GroupKey :=
  .normal h.assetClass h.ticker h.currency

/-- What a quantity is worth, and what has been gained on its cost. -/
structure Figures where
  totalValue : Decimal
  gainLoss : Decimal
  gainLossPercentage : Decimal
deriving DecidableEq

namespace Figures

/-- The gain in percent of the cost, which is zero for a position without cost. -/
def percentage? (gainLoss totalCost : Decimal) : Option Decimal :=
  if totalCost.IsZero then some .zero
  else do
    let ratio ← gainLoss.div? totalCost
    ratio.mul? .hundred

/-- The figures at a price, if they are all in range. -/
def atPrice? (quantity totalCost price : Decimal) : Option Figures := do
  let totalValue ← quantity.mul? price
  let gainLoss ← totalValue.sub? totalCost
  return ⟨totalValue, gainLoss, ← percentage? gainLoss totalCost⟩

/-- The figures of a position without a price. -/
def atZero (quantity totalCost : Decimal) : Figures :=
  (atPrice? quantity totalCost .zero).getD ⟨.zero, -totalCost, .zero⟩

/-- The price that counts and the figures at it. -/
def counted (quantity totalCost price : Decimal) : Decimal × Figures :=
  match atPrice? quantity totalCost price with
  | some figures => (price, figures)
  | none => (.zero, atZero quantity totalCost)

end Figures

end NetWorth
