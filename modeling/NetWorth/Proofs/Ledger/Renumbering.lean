import Mathlib
import NetWorth.Proofs.Ledger.Groups

/-!
# Renumbering

The places of entries are copied into lots and not looked at.  Giving other
numbers to the places before a replay is therefore the same as giving them to
the lots afterwards, errors included.
-/

namespace NetWorth

/-- The lot of a purchase that has another place. -/
def Lot.renumber
    (place : Nat → Nat)
    (lot : Lot) :
    Lot where
  quantity :=
    lot.quantity
  unitCost :=
    lot.unitCost
  sequence :=
    place lot.sequence

/-- The same trade at another place. -/
def Entry.renumber
    (place : Nat → Nat)
    (entry : Entry) :
    Entry where
  sequence :=
    place entry.sequence
  trade :=
    entry.trade

namespace Position

/-- A position that differs in the places of its lots only. -/
def renumber
    (place : Nat → Nat)
    (position : Position) :
    Position :=
  { position with lots := position.lots.map (Lot.renumber place) }

/-- A balance that differs in the places of its lots only. -/
def Balance.renumber
    (place : Nat → Nat)
    (balance : Balance) :
    Balance :=
  { balance with lots := balance.lots.map (Lot.renumber place) }

variable (place : Nat → Nat)

@[simp] theorem renumber_key
    (position : Position) :
    (position.renumber place).key = position.key :=
  rfl

@[simp] theorem renumber_quantity
    (position : Position) :
    (position.renumber place).quantity = position.quantity :=
  rfl

@[simp] theorem renumber_totalCost
    (position : Position) :
    (position.renumber place).totalCost = position.totalCost :=
  rfl

@[simp] theorem renumber_lots
    (position : Position) :
    (position.renumber place).lots =
      position.lots.map (Lot.renumber place) :=
  rfl

@[simp] theorem renumber_empty
    (key : GroupKey) :
    (empty key).renumber place = empty key :=
  rfl

/-! ## One entry -/

theorem ofTotals?_renumber
    (lots : List Lot)
    (quantity totalCost : Decimal) :
    Balance.ofTotals? (lots.map (Lot.renumber place)) quantity totalCost =
      (Balance.ofTotals? lots quantity totalCost).map
        (Balance.renumber place) := by
  unfold Balance.ofTotals?
  by_cases isPositive : quantity.IsPositive
  · simp only [isPositive, if_true]
    cases totalCost.div? quantity <;> rfl
  · simp only [isPositive, if_false]
    rfl

theorem afterBuy?_renumber
    (position : Position)
    (quantity unitPrice : Decimal)
    (sequence : Nat) :
    (position.renumber place).afterBuy? quantity unitPrice
        (place sequence) =
      (position.afterBuy? quantity unitPrice sequence).map
        (Balance.renumber place) := by
  have lots :
      position.lots.map (Lot.renumber place) ++
          [⟨quantity, unitPrice, place sequence⟩] =
        (position.lots ++ [Lot.mk quantity unitPrice sequence]).map
          (Lot.renumber place) := by
    rw [List.map_append]
    rfl
  simp only [afterBuy?, renumber_quantity, renumber_totalCost,
    renumber_lots, lots, ofTotals?_renumber, Option.bind_eq_bind,
    Option.map_bind, Function.comp_def]

/-- Which lots are taken from does not depend on their places. -/
theorem take_renumber
    (requested released : Decimal)
    (lots : List Lot) :
    take requested released (lots.map (Lot.renumber place)) =
      (take requested released lots).map fun (total, left) =>
        (total, left.map (Lot.renumber place)) := by
  induction lots generalizing requested released with
  | nil =>
      rfl
  | cons lot rest inductionHypothesis =>
      rw [List.map_cons]
      unfold take
      by_cases isPositive : requested.IsPositive
      case neg =>
        simp only [isPositive, if_false]
        rfl
      simp only [isPositive, if_true, Lot.renumber]
      cases ((lot.quantity.least requested).mul? lot.unitCost).bind
          released.add? with
      | none =>
          rfl
      | some sum =>
          by_cases isPart : lot.quantity.least requested < lot.quantity
          · simp only [isPart, if_true]
            cases lot.quantity.sub? (lot.quantity.least requested) <;> rfl
          · simp only [isPart, if_false]
            cases requested.sub? (lot.quantity.least requested) with
            | none =>
                rfl
            | some missing =>
                exact inductionHypothesis missing sum

theorem afterSell_renumber
    (position : Position)
    (tradeId : String)
    (requested : Decimal) :
    (position.renumber place).afterSell tradeId requested =
      (position.afterSell tradeId requested).map
        (Balance.renumber place) := by
  unfold afterSell
  simp only [renumber_quantity, renumber_totalCost, renumber_lots,
    renumber_key, take_renumber]
  by_cases tooMuch : position.quantity < requested
  · simp only [tooMuch, if_true]
    cases requested.sub? position.quantity <;> rfl
  simp only [tooMuch, if_false]
  cases take requested .zero position.lots with
  | error error =>
      cases error <;> rfl
  | ok taken =>
      simp only [Except.map]
      cases position.totalCost.sub? taken.1 with
      | none =>
          rfl
      | some totalCost =>
          cases position.quantity.sub? requested with
          | none =>
              rfl
          | some quantity =>
              simp only [ofTotals?_renumber]
              cases Balance.ofTotals? taken.2 quantity totalCost <;> rfl

theorem afterTrade_renumber
    (position : Position)
    (sequence : Nat)
    (trade : Trade) :
    (position.renumber place).afterTrade (place sequence) trade =
      (position.afterTrade sequence trade).map
        (Balance.renumber place) := by
  unfold afterTrade
  by_cases quantityPos : trade.quantity.IsPositive
  case neg =>
    simp only [quantityPos, not_false_eq_true, if_true]
    rfl
  by_cases priceNeg : trade.unitPrice.IsNegative
  case pos =>
    simp only [quantityPos, priceNeg, not_true_eq_false, if_true, if_false]
    rfl
  simp only [quantityPos, priceNeg, not_true_eq_false, if_false]
  cases trade.side with
  | buy =>
      simp only [afterBuy?_renumber]
      cases position.afterBuy? trade.quantity trade.unitPrice sequence <;>
        rfl
  | sell =>
      exact afterSell_renumber place position trade.id trade.quantity

theorem settle_renumber
    (position : Position)
    (balance : Balance) :
    (position.renumber place).settle (balance.renumber place) =
      (position.settle balance).renumber place := by
  unfold settle
  change (if balance.quantity.IsPositive then _ else _) = _
  split <;> rfl

theorem named_renumber
    (position : Position)
    (tickerName : String) :
    (position.renumber place).named tickerName =
      (position.named tickerName).renumber place := by
  unfold named
  change (if position.tickerName.isEmpty then _ else _) = _
  split <;> rfl

/-- A trade at another place gives the same position up to places. -/
theorem apply_renumber
    (position : Position)
    (sequence : Nat)
    (trade : Trade) :
    (position.renumber place).apply (place sequence) trade =
      (position.apply sequence trade).map (renumber place) := by
  unfold apply
  rw [afterTrade_renumber]
  cases position.afterTrade sequence trade with
  | error error =>
      rfl
  | ok balance =>
      simp only [Except.map, settle_renumber, named_renumber]

end Position

namespace Ledger

/-- A history with other places gives the same position up to places. -/
theorem replay_renumber
    (place : Nat → Nat)
    (start : Position)
    (entries : List Entry) :
    replay (start.renumber place) (entries.map (Entry.renumber place)) =
      (replay start entries).map (Position.renumber place) := by
  induction entries generalizing start with
  | nil =>
      rfl
  | cons entry rest inductionHypothesis =>
      rw [List.map_cons, replay_cons, replay_cons, Entry.renumber,
        Position.apply_renumber]
      cases start.apply entry.sequence entry.trade with
      | error error =>
          rfl
      | ok next =>
          exact inductionHypothesis next

end Ledger

end NetWorth
