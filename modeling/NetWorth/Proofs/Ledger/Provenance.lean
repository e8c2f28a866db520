import Mathlib
import NetWorth.Proofs.Ledger.Groups
import NetWorth.Proofs.Ledger.Steps

/-!
# Where lots come from

Sales shrink and remove lots, and only purchases add them.  So each lot of a
position stands for a purchase of its group and is at the place of this
purchase in the ledger.
-/

namespace NetWorth

/-- A lot is a part of a purchase. -/
structure Lot.OpenedBy
    (entry : Entry)
    (lot : Lot) :
    Prop where
  isBuy : entry.trade.side = .buy
  sequence_eq : lot.sequence = entry.sequence
  unitCost_eq : lot.unitCost = entry.trade.unitPrice

/-- A lot is what is left of another one, or all of it. -/
structure Lot.LeftOf
    (lot source : Lot) :
    Prop where
  sequence_eq : lot.sequence = source.sequence
  unitCost_eq : lot.unitCost = source.unitCost

theorem Lot.OpenedBy.of_leftOf
    {entry : Entry}
    {source lot : Lot}
    (opened : source.OpenedBy entry)
    (left : lot.LeftOf source) :
    lot.OpenedBy entry where
  isBuy := opened.isBuy
  sequence_eq := left.sequence_eq.trans opened.sequence_eq
  unitCost_eq := left.unitCost_eq.trans opened.unitCost_eq

theorem Lot.LeftOf.refl
    (lot : Lot) :
    lot.LeftOf lot :=
  ⟨rfl, rfl⟩

theorem Lot.LeftOf.trans
    {lot middle source : Lot}
    (leftOfMiddle : lot.LeftOf middle)
    (leftOfSource : middle.LeftOf source) :
    lot.LeftOf source where
  sequence_eq :=
    leftOfMiddle.sequence_eq.trans leftOfSource.sequence_eq
  unitCost_eq :=
    leftOfMiddle.unitCost_eq.trans leftOfSource.unitCost_eq

namespace Position

variable {position next : Position} {balance : Balance}

/-- Taking from lots leaves parts of them. -/
theorem exists_leftOf_of_take
    {requested released total : Decimal}
    {lots left : List Lot}
    (taken : take requested released lots = .ok (total, left)) :
    ∀ lot ∈ left, ∃ source ∈ lots, lot.LeftOf source := by
  induction lots generalizing requested released with
  | nil =>
      simp only [take, Except.ok.injEq, Prod.mk.injEq] at taken
      simp [← taken.2]
  | cons first rest inductionHypothesis =>
      rcases take_cons_eq_ok taken with
          ⟨-, -, rfl⟩ | ⟨-, sum, -,
            ⟨restQuantity, -, -, rfl⟩ | ⟨-, missing, takenOn⟩⟩
      · exact fun lot member => ⟨lot, member, .refl lot⟩
      · -- the first lot is left in part, and the others as they are
        intro lot member
        rcases List.mem_cons.mp member with isFirst | inRest
        · rw [isFirst]
          exact ⟨first, List.mem_cons_self, rfl, rfl⟩
        · exact ⟨lot, List.mem_cons_of_mem _ inRest, .refl lot⟩
      · intro lot member
        obtain ⟨source, inRest, leftOf⟩ :=
          inductionHypothesis takenOn lot member
        exact ⟨source, List.mem_cons_of_mem _ inRest, leftOf⟩

theorem lots_of_ofTotals?
    {lots : List Lot}
    {quantity totalCost : Decimal}
    (found : Balance.ofTotals? lots quantity totalCost = some balance) :
    balance.lots = lots := by
  obtain ⟨average, rfl, -⟩ := ofTotals?_eq_some found
  rfl

theorem lots_of_afterBuy?
    {quantity unitPrice : Decimal}
    {sequence : Nat}
    (found :
      position.afterBuy? quantity unitPrice sequence = some balance) :
    balance.lots = position.lots ++ [⟨quantity, unitPrice, sequence⟩] := by
  obtain ⟨cost, held, totalCost, -, -, -, totals⟩ := afterBuy?_eq_some.mp found
  exact lots_of_ofTotals? totals

theorem exists_leftOf_of_afterSell
    {tradeId : String}
    {requested : Decimal}
    (found : position.afterSell tradeId requested = .ok balance) :
    ∀ lot ∈ balance.lots, ∃ source ∈ position.lots, lot.LeftOf source := by
  obtain ⟨-, released, left, totalCost, held, taken, -, -, totals⟩ :=
    afterSell_eq_ok.mp found
  rw [lots_of_ofTotals? totals]
  exact exists_leftOf_of_take taken

/-- A trade leaves parts of the lots before it, and opens one if it is a
purchase. -/
theorem lots_of_afterTrade
    {sequence : Nat}
    {trade : Trade}
    (found : position.afterTrade sequence trade = .ok balance) :
    ∀ lot ∈ balance.lots,
      (∃ source ∈ position.lots, lot.LeftOf source) ∨
        lot.OpenedBy ⟨sequence, trade⟩ := by
  obtain ⟨-, ⟨isBuy, bought⟩ | ⟨-, soldOff⟩⟩ := afterTrade_eq_ok.mp found
  · rw [lots_of_afterBuy? bought]
    intro lot member
    rcases List.mem_append.mp member with isOld | isNew
    · exact .inl ⟨lot, isOld, .refl lot⟩
    · rw [List.mem_singleton.mp isNew]
      exact .inr ⟨isBuy, rfl, rfl⟩
  · intro lot member
    exact .inl (exists_leftOf_of_afterSell soldOff lot member)

@[simp] theorem named_lots
    (tickerName : String) :
    (position.named tickerName).lots = position.lots := by
  unfold named
  split <;> rfl

theorem settle_lots_subset :
    (position.settle balance).lots ⊆ balance.lots := by
  unfold settle
  split
  · exact List.Subset.refl _
  · exact List.nil_subset _

theorem lots_of_apply
    {sequence : Nat}
    {trade : Trade}
    (applied : position.apply sequence trade = .ok next) :
    ∀ lot ∈ next.lots,
      (∃ source ∈ position.lots, lot.LeftOf source) ∨
        lot.OpenedBy ⟨sequence, trade⟩ := by
  obtain ⟨balance, after, rfl⟩ := apply_eq_ok.mp applied
  rw [named_lots]
  intro lot member
  exact lots_of_afterTrade after lot (settle_lots_subset member)

end Position

namespace Ledger

/-- The lots after a history are parts of the lots before it and of its
purchases. -/
theorem lots_of_replay
    {start final : Position}
    {entries : List Entry}
    (replays : replay start entries = .ok final) :
    ∀ lot ∈ final.lots,
      (∃ source ∈ start.lots, lot.LeftOf source) ∨
        ∃ entry ∈ entries, lot.OpenedBy entry := by
  induction entries generalizing start with
  | nil =>
      rw [replay_nil, Except.ok.injEq] at replays
      rw [replays]
      exact fun lot member => .inl ⟨lot, member, .refl lot⟩
  | cons entry rest inductionHypothesis =>
      obtain ⟨next, applied, restReplays⟩ := replay_cons_eq_ok.mp replays
      intro lot member
      rcases inductionHypothesis restReplays lot member with
          ⟨middle, middleMember, leftOfMiddle⟩ |
          ⟨later, laterMember, opened⟩
      · rcases Position.lots_of_apply applied middle middleMember with
            ⟨source, sourceMember, leftOfSource⟩ | opened
        · exact .inl ⟨source, sourceMember,
            leftOfMiddle.trans leftOfSource⟩
        · exact .inr ⟨entry, List.mem_cons_self,
            opened.of_leftOf leftOfMiddle⟩
      · exact .inr ⟨later, List.mem_cons_of_mem _ laterMember, opened⟩

/-- Each lot of a position stands for a purchase of its group. -/
theorem exists_purchase_of_lot
    {trades : List Trade}
    {found : List Position}
    (accepted : positions trades = .ok found)
    {position : Position}
    (member : position ∈ found)
    {lot : Lot}
    (isLot : lot ∈ position.lots) :
    ∃ entry ∈ group trades position.key, lot.OpenedBy entry := by
  obtain ⟨replays, -⟩ := (mem_positions accepted).mp member
  rcases lots_of_replay replays lot isLot with
      ⟨source, sourceMember, -⟩ | opened
  · cases sourceMember
  · exact opened

end Ledger

end NetWorth
