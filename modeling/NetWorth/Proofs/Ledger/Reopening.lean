import Mathlib
import NetWorth.Proofs.Decimal.ExactQuotient
import NetWorth.Proofs.Ledger.ClosedForm
import NetWorth.Proofs.Ledger.Steps

/-!
# Positions that have been closed

What a trade leaves depends on the balance that it meets and on nothing else.
Closing a position leaves the balance of a new one, whatever has been rounded
before.  So a position that is opened again goes on like a new one.

If all that it has bought since then has been bought at one price, and without
rounding, then the average cost is this price, no matter how much has been sold:
the total cost and the quantity stay in proportion, and a division that comes
out even is not rounded.
-/

namespace NetWorth

open Ledger

namespace Position

/-! ## Balances alone decide -/

section Alike

variable
  {first second : Position}
  (alike : first.balance = second.balance)
  {sequence : Nat}
  {trade : Trade}

include alike

/-- Positions with the same balance accept the same trades. -/
theorem afterTrade_eq_ok_congr
    (balance : Balance) :
    first.afterTrade sequence trade = .ok balance ↔
      second.afterTrade sequence trade = .ok balance := by
  have lots : first.lots = second.lots := congrArg Balance.lots alike
  have quantity : first.quantity = second.quantity :=
    congrArg Balance.quantity alike
  have totalCost : first.totalCost = second.totalCost :=
    congrArg Balance.totalCost alike
  simp only [afterTrade_eq_ok, afterBuy?_eq_some, afterSell_eq_ok, lots, quantity,
    totalCost]

/-- Positions with the same balance have the same balance after a trade. -/
theorem apply_congr
    {next : Position}
    (applied : first.apply sequence trade = .ok next) :
    ∃ other,
      second.apply sequence trade = .ok other ∧
        other.balance = next.balance := by
  obtain ⟨balance, after, rfl⟩ := apply_eq_ok.mp applied
  refine ⟨_, apply_eq_ok.mpr
    ⟨balance, (afterTrade_eq_ok_congr alike balance).mp after, rfl⟩, ?_⟩
  simp only [named_balance, settle]
  split
  · rfl
  · rfl

end Alike

/-- A closed position has the balance of a new one. -/
def ClosedEmpty
    (position : Position) :
    Prop :=
  position.quantity.IsZero →
    position.balance = (empty position.key).balance

theorem empty_closedEmpty
    (key : GroupKey) :
    (empty key).ClosedEmpty :=
  fun _ => rfl

/-- Closing a position drops all that is left, whatever has been rounded. -/
theorem apply_closedEmpty
    {position next : Position}
    {sequence : Nat}
    {trade : Trade}
    (applied : position.apply sequence trade = .ok next) :
    next.ClosedEmpty := by
  obtain ⟨balance, -, rfl⟩ := apply_eq_ok.mp applied
  intro isZero
  have quantity :
      ((position.settle balance).named trade.tickerName).quantity =
        (position.settle balance).quantity :=
    congrArg Balance.quantity (named_balance _ _)
  rw [quantity] at isZero
  rw [named_balance]
  by_cases isPositive : balance.quantity.IsPositive
  · rw [settle, if_pos isPositive] at isZero
    rw [Decimal.isZero_iff] at isZero
    rw [Decimal.isPositive_iff] at isPositive
    exact absurd isZero isPositive.ne'
  · rw [settle, if_neg isPositive]
    rfl

/-- A trade that is accepted is tracked while the purchases fit. -/
theorem apply_tracks
    {quantityScale priceScale : Nat}
    {earlier : List Entry}
    {entry : Entry}
    {position next : Position}
    (tracks : position.balance.Tracks quantityScale priceScale earlier)
    (acceptable : Acceptable earlier)
    (fits : PurchasesFitAt quantityScale priceScale earlier)
    (fitsAfter : PurchasesFitAt quantityScale priceScale (earlier ++ [entry]))
    (applied : position.apply entry.sequence entry.trade = .ok next) :
    Acceptable (earlier ++ [entry]) ∧
      next.balance.Tracks quantityScale priceScale (earlier ++ [entry]) := by
  obtain ⟨balance, after, rfl⟩ := apply_eq_ok.mp applied
  suffices tracked :
      Acceptable (earlier ++ [entry]) ∧
        balance.Tracks quantityScale priceScale (earlier ++ [entry]) by
    rw [named_balance]
    exact ⟨tracked.1, settle_tracks tracked.1 tracked.2 position⟩
  obtain ⟨sound, ⟨isBuy, bought⟩ | ⟨isSell, soldOff⟩⟩ := afterTrade_eq_ok.mp after
  · have extended := acceptable.append_buy isBuy sound
    obtain ⟨next, found, nextTracks⟩ :=
      afterBuy?_tracks tracks extended fitsAfter isBuy
    cases Option.some.inj (found.symm.trans bought)
    exact ⟨extended, nextTracks⟩
  · obtain ⟨enough, -⟩ := afterSell_eq_ok.mp soldOff
    have held : position.quantity.value = Ledger.bought earlier - sold earlier :=
      tracks.quantity.value_eq
    rw [Decimal.lt_iff_value_lt, not_lt, held] at enough
    have extended := acceptable.append_sell isSell sound enough
    obtain ⟨next, found, nextTracks⟩ :=
      afterSell_tracks tracks extended fits fitsAfter isSell entry.trade.id
    cases Except.ok.inj (found.symm.trans soldOff)
    exact ⟨extended, nextTracks⟩

end Position

namespace Ledger

open Position

/-! ## Whole histories -/

theorem replay_append
    (start : Position)
    (earlier later : List Entry) :
    replay start (earlier ++ later) =
      (replay start earlier).bind fun closed => replay closed later :=
  List.foldlM_append

/-- Positions with the same balance have the same balance after any trades. -/
theorem replay_congr
    {first second final : Position}
    {entries : List Entry}
    (alike : first.balance = second.balance)
    (replays : replay first entries = .ok final) :
    ∃ other,
      replay second entries = .ok other ∧ other.balance = final.balance := by
  induction entries generalizing first second with
  | nil =>
      rw [replay_nil, Except.ok.injEq] at replays
      exact ⟨second, rfl, by rw [← alike, replays]⟩
  | cons entry rest inductionHypothesis =>
      obtain ⟨next, applied, restReplays⟩ := replay_cons_eq_ok.mp replays
      obtain ⟨other, otherApplied, otherAlike⟩ := apply_congr alike applied
      obtain ⟨last, otherReplays, lastAlike⟩ :=
        inductionHypothesis otherAlike.symm restReplays
      exact ⟨last, replay_cons_eq_ok.mpr ⟨other, otherApplied, otherReplays⟩,
        lastAlike⟩

/-- Whenever a position is closed, it has the balance of a new one. -/
theorem closedEmpty_of_replay
    {start final : Position}
    {entries : List Entry}
    (closedEmpty : start.ClosedEmpty)
    (replays : replay start entries = .ok final) :
    final.ClosedEmpty := by
  induction entries generalizing start with
  | nil =>
      rw [replay_nil, Except.ok.injEq] at replays
      rwa [← replays]
  | cons entry rest inductionHypothesis =>
      obtain ⟨next, applied, restReplays⟩ := replay_cons_eq_ok.mp replays
      exact inductionHypothesis (apply_closedEmpty applied) restReplays

/-- A history that is accepted is tracked while its purchases fit. -/
theorem tracks_of_replay
    {quantityScale priceScale : Nat}
    {earlier rest : List Entry}
    {position final : Position}
    (tracks : position.balance.Tracks quantityScale priceScale earlier)
    (acceptable : Acceptable earlier)
    (fits : PurchasesFitAt quantityScale priceScale (earlier ++ rest))
    (replays : replay position rest = .ok final) :
    Acceptable (earlier ++ rest) ∧
      final.balance.Tracks quantityScale priceScale (earlier ++ rest) := by
  -- the history grows at its end while the entries still to come shrink
  induction rest generalizing earlier position with
  | nil =>
      rw [replay_nil, Except.ok.injEq] at replays
      rw [← replays, List.append_nil]
      exact ⟨acceptable, tracks⟩
  | cons entry rest inductionHypothesis =>
      have sound : ∀ other ∈ earlier ++ entry :: rest, other.trade.Sound :=
        List.forall_mem_append.mpr ⟨acceptable.sound, sound_of_replay replays⟩
      obtain ⟨next, applied, restReplays⟩ := replay_cons_eq_ok.mp replays
      have regroup :
          earlier ++ entry :: rest = (earlier ++ [entry]) ++ rest := by
        simp
      rw [regroup] at fits sound ⊢
      have fitsAfter := fits.of_prefix sound (List.prefix_append _ _)
      have fitsBefore :=
        fitsAfter.of_prefix (List.forall_mem_append.mp sound).1
          (List.prefix_append _ _)
      obtain ⟨extended, nextTracks⟩ :=
        apply_tracks tracks acceptable fitsBefore fitsAfter applied
      exact inductionHypothesis nextTracks extended fits restReplays

/-- All purchases have been made at one price, and neither their quantities nor
their costs add up to more than 96 bits in the places in which they are counted. -/
structure PurchasedAt
    (price : Decimal)
    (entries : List Entry) :
    Prop where
  unitPrice :
    ∀ entry ∈ purchases entries,
      entry.trade.unitPrice.Represents price.value price.scale
  places_le : quantityPlaces entries + price.scale ≤ Decimal.maxScale
  bought_le :
    bought entries * 10 ^ quantityPlaces entries ≤ Decimal.maxCoefficient
  cost_le :
    Share.cost (shares entries) * 10 ^ (quantityPlaces entries + price.scale) ≤
      Decimal.maxCoefficient

namespace PurchasedAt

variable
  {price : Decimal}
  {entries : List Entry}

theorem fits
    (purchasedAt : PurchasedAt price entries)
    (sound : ∀ entry ∈ entries, entry.trade.Sound) :
    PurchasesFitAt (quantityPlaces entries) price.scale entries where
  places_le := purchasedAt.places_le
  quantity_scale_le entry member :=
    le_largestScale (List.mem_map_of_mem member)
  price_scale_le entry purchased :=
    (purchasedAt.unitPrice entry purchased).scale_le
  bought_inRange := by
    rw [Decimal.InRange, abs_of_nonneg (bought_nonneg sound)]
    exact purchasedAt.bought_le
  cost_inRange := by
    have costNonneg :=
      (positive_shares sound).cost_nonneg (unitCost_nonneg_shares sound)
    rw [Decimal.InRange, abs_of_nonneg costNonneg]
    exact purchasedAt.cost_le

/-- What is left of purchases at one price has cost this price. -/
theorem cost_openShares
    (purchasedAt : PurchasedAt price entries) :
    Share.cost (openShares entries) =
      price.value * Share.total (openShares entries) := by
  apply Share.cost_eq_mul_total
  apply Share.unitCost_consume (·.value = price.value)
  intro share member
  obtain ⟨entry, purchased, rfl⟩ := List.mem_map.mp member
  exact (purchasedAt.unitPrice entry purchased).value_eq

/-- The average cost of purchases at one price is this price. -/
theorem averageCost_eq
    (purchasedAt : PurchasedAt price entries)
    {key : GroupKey}
    {final : Position}
    (replays : replay (.empty key) entries = .ok final)
    (isPositive : final.quantity.IsPositive) :
    final.averageCost.value = price.value := by
  obtain ⟨acceptable, tracks⟩ :=
    @tracks_of_replay _ _ [] _ _ _ (empty_tracks key) acceptable_nil
      (purchasedAt.fits (sound_of_replay replays)) replays
  rw [List.nil_append] at acceptable tracks
  have held : final.quantity.value = Share.total (openShares entries) := by
    rw [total_openShares acceptable]
    exact tracks.quantity.value_eq
  have cost :
      final.totalCost.value = price.value * Share.total (openShares entries) := by
    rw [← purchasedAt.cost_openShares]
    exact tracks.totalCost.value_eq
  have heldPos := Decimal.isPositive_iff.mp isPositive
  have attained : final.totalCost.value / final.quantity.value = price.value := by
    rw [cost, ← held, mul_div_cancel_right₀ _ heldPos.ne']
  obtain ⟨quotient, found, quotientEq⟩ :=
    Decimal.div?_exact
      (fun isZero => heldPos.ne' (Decimal.isZero_iff.mp isZero)) attained
  have average : final.totalCost.div? final.quantity = some final.averageCost :=
    tracks.averageCost isPositive
  rw [← quotientEq, Option.some.inj (found.symm.trans average)]

end PurchasedAt

/--
A position that has been closed forgets its past: whatever has been traded
before, what is left of it is what the entries since then leave of a new
position.  While these have bought at one price, and without rounding, its
average cost is this price.
-/
theorem replay_after_closing
    (key : GroupKey)
    {earlier since : List Entry}
    {closed final : Position}
    (closes : replay (.empty key) earlier = .ok closed)
    (isClosed : closed.quantity.IsZero)
    (replays : replay (.empty key) (earlier ++ since) = .ok final) :
    (∃ fresh,
        replay (.empty key) since = .ok fresh ∧
          fresh.balance = final.balance) ∧
      ∀ price,
        PurchasedAt price since →
          final.quantity.IsPositive →
            final.averageCost.value = price.value := by
  rw [replay_append, closes] at replays
  have forgotten : closed.balance = (empty key).balance :=
    closedEmpty_of_replay (empty_closedEmpty key) closes isClosed
  obtain ⟨fresh, freshReplays, alike⟩ := replay_congr forgotten replays
  refine ⟨⟨fresh, freshReplays, alike⟩, fun price purchasedAt isPositive => ?_⟩
  have quantity : fresh.quantity = final.quantity := congrArg Balance.quantity alike
  have average : fresh.averageCost = final.averageCost :=
    congrArg Balance.averageCost alike
  rw [← quantity] at isPositive
  rw [← average]
  exact purchasedAt.averageCost_eq freshReplays isPositive

/-- A holding of which only the digits of its larger part can be kept, so that
the sale of these closes it while a part of a lot, and its cost, are left. -/
def residue :
    List Entry :=
  [⟨0, sampleTrade .buy .stock "AAPL" (sampleDecimal Decimal.maxCoefficient 0) .zero 0⟩,
    ⟨1, sampleTrade .buy .stock "AAPL" (sampleDecimal 4 1) .one 1⟩,
    ⟨2, sampleTrade .sell .stock "AAPL" (sampleDecimal Decimal.maxCoefficient 0) .zero 2⟩]

/-- Purchases at 155, with a sale in between. -/
def reopening :
    List Entry :=
  [⟨3, sampleTrade .buy .stock "AAPL" (sampleDecimal 3 0) (sampleDecimal 155 0) 3⟩,
    ⟨4, sampleTrade .sell .stock "AAPL" .one (sampleDecimal 12345 4) 4⟩,
    ⟨5, sampleTrade .buy .stock "AAPL" (sampleDecimal 5 1) (sampleDecimal 155 0) 5⟩]

/-- The two and a half shares that are left. -/
def reopened :
    Position where
  key :=
    ⟨.stock, "AAPL", "USD"⟩
  tickerName :=
    ""
  lots :=
    [⟨sampleDecimal 2 0, sampleDecimal 155 0, 3⟩,
      ⟨sampleDecimal 5 1, sampleDecimal 155 0, 5⟩]
  quantity :=
    sampleDecimal 25 1
  totalCost :=
    sampleDecimal 3875 1
  averageCost :=
    sampleDecimal 155 0

private theorem reopening_purchasedAt :
    PurchasedAt (sampleDecimal 155 0) reopening where
  unitPrice entry purchased := by
    have isPrice :
        ∀ entry ∈ purchases reopening,
          entry.trade.unitPrice = sampleDecimal 155 0 := by
      decide +kernel
    rw [isPrice entry purchased]
    exact ⟨rfl, le_rfl⟩
  places_le := by decide +kernel
  bought_le := by decide +kernel
  cost_le := by decide +kernel

/-- Nothing of the residue is in what the later purchases leave. -/
theorem replay_after_closing_residue :
    ∃ closed,
      replay (.empty ⟨.stock, "AAPL", "USD"⟩) residue = .ok closed ∧
        closed.quantity.IsZero ∧
          replay (.empty ⟨.stock, "AAPL", "USD"⟩) (residue ++ reopening) =
              .ok reopened ∧
            PurchasedAt (sampleDecimal 155 0) reopening ∧
              reopened.quantity.IsPositive ∧
                (∃ fresh,
                  replay (.empty ⟨.stock, "AAPL", "USD"⟩) reopening = .ok fresh ∧
                    fresh.balance = reopened.balance) ∧
                  reopened.averageCost.value = (sampleDecimal 155 0).value := by
  have closes :
      replay (.empty ⟨.stock, "AAPL", "USD"⟩) residue =
        .ok (.empty ⟨.stock, "AAPL", "USD"⟩) := by
    decide +kernel
  have isClosed : (Position.empty ⟨.stock, "AAPL", "USD"⟩).quantity.IsZero := by
    decide
  have replays :
      replay (.empty ⟨.stock, "AAPL", "USD"⟩) (residue ++ reopening) =
        .ok reopened := by
    decide +kernel
  have isPositive : reopened.quantity.IsPositive := by
    decide +kernel
  obtain ⟨forgets, average⟩ :=
    replay_after_closing ⟨.stock, "AAPL", "USD"⟩ closes isClosed replays
  exact ⟨_, closes, isClosed, replays, reopening_purchasedAt, isPositive, forgets,
    average _ reopening_purchasedAt isPositive⟩

end Ledger

end NetWorth
