import NetWorth.Ledger.Replay
/-!
# Positions that are changed in place

A trade is first planned against the position as it stands, without touching it.  A plan that has
come about is carried out step by step: lots are added or removed, what is left of the first one is
set, the totals are taken over, and the position may get its name.  A step that has been taken stays
taken, whatever happens after it.
-/

namespace NetWorth.Position

/-- What a trade comes to: the totals after it, how many lots it uses up, and what it leaves of the
lot after them, if it uses a part of that one. -/
structure Plan where
  quantity : Decimal
  totalCost : Decimal
  averageCost : Decimal
  closedLots : Nat
  frontRemaining : Option Decimal

/-- The plan with its average cost, which is zero when nothing is held.  It uses no lots. -/
def Plan.ofTotals? (quantity totalCost : Decimal) : Option Plan := do
  let averageCost ← if quantity.IsPositive then totalCost.div? quantity else some .zero
  return ⟨quantity, totalCost, averageCost, 0, none⟩

/-- Plans a purchase. -/
def planBuy? (p : Position) (quantity unitPrice : Decimal) : Option Plan := do
  let cost ← quantity.mul? unitPrice
  let held ← p.quantity.add? quantity
  let totalCost ← p.totalCost.add? cost
  Plan.ofTotals? held totalCost

/-- What a sale uses of the lots it has come to: the cost released, the number of lots that are used
up, and what is left of the lot after them. -/
structure Usage where
  released : Decimal
  closedLots : Nat
  frontRemaining : Option Decimal

namespace Usage

/-- Before the first lot. -/
def empty : Usage := ⟨.zero, 0, none⟩

/-- Looks through the lots for what is still missing. -/
def extend (usage : Usage) (missing : Decimal) : List Lot → Except TakeError Usage
  | [] => .ok usage
  | lot :: rest =>
    if missing.IsPositive then
      let matched := lot.quantity.least missing
      match (matched.mul? lot.unitCost).bind usage.released.add? with
      | none => .error .overflow
      | some released =>
        match missing.sub? matched with
        | none => .error .unbalanced
        | some missing =>
          if matched < lot.quantity then
            match lot.quantity.sub? matched with
            | none => .error .unbalanced
            | some left =>
              extend { usage with released, frontRemaining := some left } missing rest
          else extend { usage with released, closedLots := usage.closedLots + 1 } missing rest
    else .ok usage

end Usage

/-- Plans a sale. -/
def planSell (p : Position) (tradeId : String) (requested : Decimal) : Except LedgerError Plan :=
  if p.quantity < requested then
    match requested.sub? p.quantity with
    | none => .error (.unbalanced p.key tradeId)
    | some shortfall => .error (.insufficientHolding p.key requested p.quantity shortfall)
  else
    match Usage.empty.extend requested p.lots with
    | .error .overflow => .error (.overflow p.key tradeId)
    | .error .unbalanced => .error (.unbalanced p.key tradeId)
    | .ok usage =>
      match p.totalCost.sub? usage.released with
      | none => .error (.overflow p.key tradeId)
      | some totalCost =>
        match p.quantity.sub? requested with
        | none => .error (.unbalanced p.key tradeId)
        | some quantity =>
          match Plan.ofTotals? quantity totalCost with
          | none => .error (.overflow p.key tradeId)
          | some plan =>
            .ok { plan with
              closedLots := usage.closedLots, frontRemaining := usage.frontRemaining }

/-- Plans a trade. -/
def plan (p : Position) (trade : Trade) : Except LedgerError Plan :=
  if ¬ trade.quantity.IsPositive then
    .error (.nonPositiveQuantity p.key trade.id trade.quantity)
  else if trade.unitPrice.IsNegative then
    .error (.negativeUnitPrice p.key trade.id trade.unitPrice)
  else
    match trade.side with
    | .buy =>
      match p.planBuy? trade.quantity trade.unitPrice with
      | none => .error (.overflow p.key trade.id)
      | some plan => .ok plan
    | .sell => p.planSell trade.id trade.quantity

/-- Opens a lot at the back. -/
def openLot (lot : Lot) : StateM Position Unit :=
  modify fun p => { p with lots := p.lots ++ [lot] }

/-- Removes lots from the front. -/
def closeLots (count : Nat) : StateM Position Unit :=
  modify fun p => { p with lots := p.lots.drop count }

/-- The lots with another quantity in the first of them. -/
def setFront (remaining : Option Decimal) (lots : List Lot) : List Lot :=
  match lots, remaining with
  | lot :: rest, some quantity => { lot with quantity } :: rest
  | lots, _ => lots

/-- Sets what is left of the first lot. -/
def reduceFront (remaining : Option Decimal) : StateM Position Unit :=
  modify fun p => { p with lots := setFront remaining p.lots }

/-- Takes over the totals of a plan.  A position that is closed keeps neither lots nor cost. -/
def commit (plan : Plan) : StateM Position Unit :=
  modify fun p =>
    if plan.quantity.IsPositive then
      { p with
        quantity := plan.quantity, totalCost := plan.totalCost, averageCost := plan.averageCost }
    else { p with lots := [], quantity := .zero, totalCost := .zero, averageCost := .zero }

/-- Applies a trade that stands at place `sequence` of the ledger to the position at hand. -/
def applyInPlace (sequence : Nat) (trade : Trade) : ExceptT LedgerError (StateM Position) Unit := do
  let plan ← (← get).plan trade
  match trade.side with
  | .buy => openLot ⟨trade.quantity, trade.unitPrice, sequence⟩
  | .sell =>
    closeLots plan.closedLots
    reduceFront plan.frontRemaining
  commit plan
  modify (·.named trade.tickerName)

/-- The answer to one entry and the position as it stands after it, accepted or not. -/
def attempt (p : Position) (entry : Entry) : Except LedgerError Unit × Position :=
  (applyInPlace entry.sequence entry.trade).run.run p

/-- A new position after entries that have been tried one after another. -/
def attempts (key : GroupKey) (entries : List Entry) : Position :=
  entries.foldl (fun p entry => (p.attempt entry).2) (empty key)

end NetWorth.Position
