import NetWorth.Decimal.Quotient
import NetWorth.Ledger.GroupKey
/-!
# Positions

The state of one group of trades while they are replayed.  Purchases add lots at the back; a sale
takes from the oldest lots first and releases exactly the cost of what it takes.  A rejected trade
leaves no new position, so it changes nothing.
-/

namespace NetWorth

/-- What is left of one purchase; `sequence` is the place of the purchase in the ledger. -/
structure Lot where
  quantity : Decimal
  unitCost : Decimal
  sequence : Nat
deriving DecidableEq

/-- Why a ledger cannot be replayed. -/
inductive LedgerError where
  | insufficientHolding (group : GroupKey) (requested available shortfall : Decimal)
  | nonPositiveQuantity (group : GroupKey) (tradeId : String) (quantity : Decimal)
  | negativeUnitPrice (group : GroupKey) (tradeId : String) (unitPrice : Decimal)
  /-- A quantity or a cost left the range of decimals. -/
  | overflow (group : GroupKey) (tradeId : String)
  /-- A difference that the checks before it keep in range was out of range all the same. -/
  | unbalanced (group : GroupKey) (tradeId : String)
deriving DecidableEq

/-- The message of a rejected ledger. -/
def LedgerError.message : LedgerError → String
  | insufficientHolding group requested available shortfall =>
    "insufficient holding for " ++ group.toText ++ ": sell of " ++ requested.toText ++
      " exceeds available " ++ available.toText ++ " (short by " ++ shortfall.toText ++ ")"
  | nonPositiveQuantity group tradeId quantity =>
    "trade " ++ tradeId ++ " for " ++ group.toText ++ " has non-positive quantity " ++
      quantity.toText
  | negativeUnitPrice group tradeId unitPrice =>
    "trade " ++ tradeId ++ " for " ++ group.toText ++ " has negative unit price " ++
      unitPrice.toText
  | overflow group tradeId =>
    "arithmetic overflow replaying trade " ++ tradeId ++ " for " ++ group.toText
  | unbalanced group tradeId =>
    "unbalanced lots replaying trade " ++ tradeId ++ " for " ++ group.toText

/-- The running state of one group. -/
structure Position where
  key : GroupKey
  tickerName : String
  lots : List Lot
  quantity : Decimal
  totalCost : Decimal
  averageCost : Decimal
deriving DecidableEq

namespace Position

/-- A position without trades. -/
def empty (key : GroupKey) : Position :=
  { key, tickerName := "", lots := [], quantity := .zero, totalCost := .zero, averageCost := .zero }

/-- What a trade leaves: the lots and the totals over them. -/
structure Balance where
  lots : List Lot
  quantity : Decimal
  totalCost : Decimal
  averageCost : Decimal

/-- The balance with its average cost, which is zero when nothing is held. -/
def Balance.ofTotals? (lots : List Lot) (quantity totalCost : Decimal) : Option Balance := do
  let averageCost ← if quantity.IsPositive then totalCost.div? quantity else some .zero
  return ⟨lots, quantity, totalCost, averageCost⟩

/-- The balance after a purchase. -/
def afterBuy? (p : Position) (quantity unitPrice : Decimal) (sequence : Nat) : Option Balance := do
  let cost ← quantity.mul? unitPrice
  let held ← p.quantity.add? quantity
  let totalCost ← p.totalCost.add? cost
  Balance.ofTotals? (p.lots ++ [⟨quantity, unitPrice, sequence⟩]) held totalCost

/-- Why lots could not be taken. -/
inductive TakeError where
  | overflow
  | unbalanced

/-- Takes `requested` from the front of the lots; gives the cost released, counted from `released`,
and the lots that are left. -/
def take (requested released : Decimal) : List Lot → Except TakeError (Decimal × List Lot)
  | [] => .ok (released, [])
  | lot :: rest =>
    if requested.IsPositive then
      let matched := lot.quantity.least requested
      match (matched.mul? lot.unitCost).bind released.add? with
      | none => .error .overflow
      | some released =>
        if matched < lot.quantity then
          match lot.quantity.sub? matched with
          | none => .error .unbalanced
          | some left => .ok (released, { lot with quantity := left } :: rest)
        else
          match requested.sub? matched with
          | none => .error .unbalanced
          | some requested => take requested released rest
    else .ok (released, lot :: rest)

/-- The balance after a sale. -/
def afterSell (p : Position) (tradeId : String) (requested : Decimal) :
    Except LedgerError Balance :=
  if p.quantity < requested then
    match requested.sub? p.quantity with
    | none => .error (.unbalanced p.key tradeId)
    | some shortfall => .error (.insufficientHolding p.key requested p.quantity shortfall)
  else
    match take requested .zero p.lots with
    | .error .overflow => .error (.overflow p.key tradeId)
    | .error .unbalanced => .error (.unbalanced p.key tradeId)
    | .ok (released, lots) =>
      match p.totalCost.sub? released with
      | none => .error (.overflow p.key tradeId)
      | some totalCost =>
        match p.quantity.sub? requested with
        | none => .error (.unbalanced p.key tradeId)
        | some quantity =>
          match Balance.ofTotals? lots quantity totalCost with
          | none => .error (.overflow p.key tradeId)
          | some balance => .ok balance

/-- The balance after a trade. -/
def afterTrade (p : Position) (sequence : Nat) (trade : Trade) : Except LedgerError Balance :=
  if ¬ trade.quantity.IsPositive then
    .error (.nonPositiveQuantity p.key trade.id trade.quantity)
  else if trade.unitPrice.IsNegative then
    .error (.negativeUnitPrice p.key trade.id trade.unitPrice)
  else
    match trade.side with
    | .buy =>
      match p.afterBuy? trade.quantity trade.unitPrice sequence with
      | none => .error (.overflow p.key trade.id)
      | some balance => .ok balance
    | .sell => p.afterSell trade.id trade.quantity

/-- Takes over a balance.  A position that is closed keeps neither lots nor cost. -/
def settle (p : Position) (balance : Balance) : Position :=
  if balance.quantity.IsPositive then
    { p with
      lots := balance.lots, quantity := balance.quantity, totalCost := balance.totalCost,
      averageCost := balance.averageCost }
  else { p with lots := [], quantity := .zero, totalCost := .zero, averageCost := .zero }

/-- Names the position after the first trade that has a name for the ticker. -/
def named (p : Position) (tickerName : String) : Position :=
  if p.tickerName.isEmpty then { p with tickerName := Text.trim tickerName } else p

/-- The position after a trade that stands at place `sequence` of the ledger. -/
def apply (p : Position) (sequence : Nat) (trade : Trade) : Except LedgerError Position :=
  match p.afterTrade sequence trade with
  | .error e => .error e
  | .ok balance => .ok ((p.settle balance).named trade.tickerName)

end Position

end NetWorth
