import NetWorth.Holding.Basic
import NetWorth.Ledger.Replay
import NetWorth.Quote.Source
/-!
# From a ledger to holdings

Replays a ledger and values every open position, with one look-up of a price for each.  A failed
look-up concerns its own holding only; a rejected ledger fails before any price is asked for.
-/

namespace NetWorth

namespace Position

/-- The value of a position in the display currency. -/
def displayValue (p : Position) (displayCurrency : String) (rates : RateTable)
    (totalValue : Decimal) : Option Decimal :=
  if p.key.currency = displayCurrency then some totalValue
  else (rates.toBase totalValue p.key.currency).toOption

/-- The holding of a position, from the answer to the request for its price. -/
def valued (p : Position) (displayCurrency : String) (rates : RateTable) (answer : PriceAnswer) :
    Holding :=
  let tickerName := match answer with
    | .ok quote => if p.tickerName.isEmpty then quote.name else p.tickerName
    | .error _ => p.tickerName
  let quoted := match answer with
    | .ok quote => quote.price
    | .error _ => .zero
  let (price, figures) := Figures.counted p.quantity p.totalCost quoted
  { ticker := p.key.ticker
    tickerName
    assetClass := p.key.assetClass
    currency := p.key.currency
    quantity := p.quantity
    averageCost := p.averageCost
    totalCost := p.totalCost
    currentPrice := price
    totalValue := figures.totalValue
    displayValue := p.displayValue displayCurrency rates figures.totalValue
    gainLoss := figures.gainLoss
    gainLossPercentage := figures.gainLossPercentage }

end Position

/-- The holdings of a ledger by their keys. -/
def aggregate {m : Type → Type} [Monad m] (prices : PriceSource m) (trades : List Trade)
    (displayCurrency : String) (rates : RateTable) :
    m (Except LedgerError (Table GroupKey Holding)) := do
  match Ledger.positions trades with
  | .error e => return .error e
  | .ok positions =>
    let holdings ← positions.mapM fun position => do
      let answer ← prices.price position.key.assetClass position.key.ticker
      return position.valued (normalCode displayCurrency) rates answer
    return .ok (Table.ofList (holdings.map fun holding => (holding.key, holding)))

end NetWorth
