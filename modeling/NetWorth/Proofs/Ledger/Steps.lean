import Mathlib
import NetWorth.Ledger.Position
import NetWorth.Proofs.Ledger.History

/-!
# What a trade that is accepted has come to

A step that succeeds has passed all of its checks, and all of its operations
have been in range.  Each lemma says so once for one function, so that no later
proof goes through the branches of that function.
-/

namespace NetWorth.Position

/-- Taking from lots stops at once, or in the first lot, or goes on after it. -/
theorem take_cons_eq_ok
    {requested released total : Decimal}
    {lot : Lot}
    {rest left : List Lot}
    (found : take requested released (lot :: rest) = .ok (total, left)) :
    (¬ requested.IsPositive ∧ total = released ∧ left = lot :: rest) ∨
      (requested.IsPositive ∧
        ∃ sum,
          ((lot.quantity.least requested).mul? lot.unitCost).bind released.add? =
              some sum ∧
            ((∃ restQuantity,
                lot.quantity.sub? (lot.quantity.least requested) =
                    some restQuantity ∧
                  total = sum ∧
                  left = { lot with quantity := restQuantity } :: rest) ∨
              (¬ lot.quantity.least requested < lot.quantity ∧
                ∃ missing, take missing sum rest = .ok (total, left)))) := by
  unfold take at found
  split at found
  case isFalse notPositive =>
    cases found
    exact .inl ⟨notPositive, rfl, rfl⟩
  next isPositive =>
  refine .inr ⟨isPositive, ?_⟩
  dsimp only at found
  split at found
  case h_1 => cases found
  next sum sumEq =>
  refine ⟨sum, sumEq, ?_⟩
  split at found
  · split at found
    · cases found
    · next restQuantity restEq =>
      cases found
      exact .inl ⟨restQuantity, restEq, rfl, rfl⟩
  · next notLess =>
    split at found
    · cases found
    · exact .inr ⟨notLess, _, found⟩

/-- Totals make a balance with their quotient, or with no average at all. -/
theorem ofTotals?_eq_some
    {lots : List Lot}
    {quantity totalCost : Decimal}
    {balance : Balance}
    (found : Balance.ofTotals? lots quantity totalCost = some balance) :
    ∃ average,
      balance = ⟨lots, quantity, totalCost, average⟩ ∧
        ((quantity.IsPositive ∧ totalCost.div? quantity = some average) ∨
          (¬ quantity.IsPositive ∧ average = .zero)) := by
  unfold Balance.ofTotals? at found
  by_cases isPositive : quantity.IsPositive
  · simp only [isPositive, if_true, Option.bind_eq_bind,
      Option.bind_eq_some_iff] at found
    obtain ⟨average, quotient, rest⟩ := found
    cases rest
    exact ⟨average, rfl, .inl ⟨isPositive, quotient⟩⟩
  · simp only [isPositive, if_false] at found
    cases found
    exact ⟨.zero, rfl, .inr ⟨isPositive, rfl⟩⟩

section Accepted

variable
  {position : Position}
  {balance : Balance}

theorem afterBuy?_eq_some
    {quantity unitPrice : Decimal}
    {sequence : Nat} :
    position.afterBuy? quantity unitPrice sequence = some balance ↔
      ∃ cost held totalCost,
        quantity.mul? unitPrice = some cost ∧
          position.quantity.add? quantity = some held ∧
            position.totalCost.add? cost = some totalCost ∧
              Balance.ofTotals?
                  (position.lots ++ [⟨quantity, unitPrice, sequence⟩]) held
                  totalCost =
                some balance := by
  simp only [afterBuy?, Option.bind_eq_bind, Option.bind_eq_some_iff]
  constructor
  · rintro ⟨cost, product, held, heldEq, totalCost, added, totals⟩
    exact ⟨cost, held, totalCost, product, heldEq, added, totals⟩
  · rintro ⟨cost, held, totalCost, product, heldEq, added, totals⟩
    exact ⟨cost, product, held, heldEq, totalCost, added, totals⟩

theorem afterSell_eq_ok
    {tradeId : String}
    {requested : Decimal} :
    position.afterSell tradeId requested = .ok balance ↔
      ¬ position.quantity < requested ∧
        ∃ released left totalCost held,
          take requested .zero position.lots = .ok (released, left) ∧
            position.totalCost.sub? released = some totalCost ∧
              position.quantity.sub? requested = some held ∧
                Balance.ofTotals? left held totalCost = some balance := by
  constructor
  · intro found
    unfold afterSell at found
    split at found
    · split at found <;> cases found
    next enough =>
    split at found
    · cases found
    · cases found
    next released left taken =>
    split at found
    · cases found
    next totalCost subtracted =>
    split at found
    · cases found
    next held heldEq =>
    split at found
    · cases found
    next totals =>
    cases found
    exact ⟨enough, released, left, totalCost, held, taken, subtracted, heldEq, totals⟩
  · rintro ⟨enough, released, left, totalCost, held, taken, subtracted, heldEq, totals⟩
    simp only [afterSell, enough, if_false, taken, subtracted, heldEq, totals]

/-- A trade that is accepted is sound, and it is a purchase or a sale. -/
theorem afterTrade_eq_ok
    {sequence : Nat}
    {trade : Trade} :
    position.afterTrade sequence trade = .ok balance ↔
      trade.Sound ∧
        ((trade.side = .buy ∧
            position.afterBuy? trade.quantity trade.unitPrice sequence =
              some balance) ∨
          (trade.side = .sell ∧
            position.afterSell trade.id trade.quantity = .ok balance)) := by
  have soundIff :
      trade.Sound ↔ trade.quantity.IsPositive ∧ ¬ trade.unitPrice.IsNegative := by
    rw [Decimal.isPositive_iff, Decimal.isNegative_iff, not_lt]
    exact ⟨fun sound => ⟨sound.quantity_pos, sound.price_nonneg⟩,
      fun checks => ⟨checks.1, checks.2⟩⟩
  rw [soundIff]
  unfold afterTrade
  by_cases isPositive : trade.quantity.IsPositive
  case neg => simp [isPositive]
  by_cases isNegative : trade.unitPrice.IsNegative
  case pos => simp [isNegative, isPositive]
  simp only [isPositive, isNegative, not_true_eq_false, if_false, not_false_eq_true,
    true_and]
  cases trade.side with
  | buy =>
      cases position.afterBuy? trade.quantity trade.unitPrice sequence <;> simp
  | sell => simp

end Accepted

end NetWorth.Position
