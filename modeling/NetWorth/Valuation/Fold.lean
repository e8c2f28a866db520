import NetWorth.Valuation.Basic
/-!
# Folding a total

Holdings in the order of their keys and then accounts in the order given are converted into the base
of a rate table and added up.  What has no conversion is left out first, and what would take the sum
out of range is left out when its turn comes.
-/

namespace NetWorth.Valuation

/-- The line of a holding, or how it is listed when it has no conversion. -/
def holdingLine (rates : RateTable) (h : Holding) : Except SkippedItem LineItem :=
  let key := h.key.toText
  match rates.toBase h.totalValue h.currency with
  | .ok converted => .ok (.holding key h.totalValue h.currency converted)
  | .error _ => .error ⟨key, h.totalValue, h.currency⟩

/-- The line of an account, or how it is listed when it has no conversion. -/
def accountLine (rates : RateTable) (a : Account) : Except SkippedItem LineItem :=
  let currency := normalCode a.currency
  match rates.toBase a.balance currency with
  | .ok converted => .ok (.account a.id a.name a.balance currency converted)
  | .error _ => .error ⟨a.name, a.balance, currency⟩

/-- Separates the lines from what has no conversion. -/
def partition : List (Except SkippedItem LineItem) → List LineItem × List SkippedItem
  | [] => ([], [])
  | .ok line :: rest => let (lines, skipped) := partition rest; (line :: lines, skipped)
  | .error item :: rest => let (lines, skipped) := partition rest; (lines, item :: skipped)

/-- Adds up lines from a sum; gives the sum, the lines that it counts and what it could not add. -/
def sumLines (sum : Decimal) : List LineItem → Decimal × List LineItem × List SkippedItem
  | [] => (sum, [], [])
  | line :: rest =>
    match sum.add? line.converted with
    | some larger =>
      let (total, counted, skipped) := sumLines larger rest
      (total, line :: counted, skipped)
    | none =>
      let (total, counted, skipped) := sumLines sum rest
      (total, counted, line.skipped :: skipped)

/-- Holdings in the order of their keys. -/
def sortHoldings (holdings : List Holding) : List Holding :=
  holdings.mergeSort fun a b => a.key.le b.key

/-- The total of holdings and accounts in the base of the rates. -/
def fold (userId : String) (holdings : List Holding) (accounts : List Account) (rates : RateTable)
    (asOf : Instant) : Valuation :=
  let (lines, unconverted) := partition
    ((sortHoldings holdings).map (holdingLine rates) ++ accounts.map (accountLine rates))
  let (totalValue, lineItems, overflowing) := sumLines .zero lines
  { userId, currency := rates.base, totalValue, lineItems, skipped := unconverted ++ overflowing,
    asOf }

end NetWorth.Valuation
