import Mathlib
import NetWorth.Proofs.Decimal.Rounding
import NetWorth.Proofs.Ledger.ClosedForm
import NetWorth.Proofs.Ledger.Steps

/-!
# How far the total cost drifts

The total cost of a position is kept beside its lots: a purchase adds its
rounded cost, and a sale subtracts the cost of what it takes, rounded for each
lot.  So it drifts from what the lots have cost, by no more than seven units a
trade in any place that the costs have room for.  A total cost below zero is
possible, but only where the lots have cost less than this.
-/

namespace NetWorth

open Ledger

namespace Lot

/-- What lots have cost. -/
def costs
    (lots : List Lot) :
    ℚ :=
  (lots.map fun lot => lot.quantity.value * lot.unitCost.value).sum

@[simp] theorem costs_nil :
    costs [] = 0 :=
  rfl

@[simp] theorem costs_cons
    (lot : Lot)
    (rest : List Lot) :
    costs (lot :: rest) =
      lot.quantity.value * lot.unitCost.value + costs rest := by
  simp [costs]

@[simp] theorem costs_append
    (first second : List Lot) :
    costs (first ++ second) = costs first + costs second := by
  simp [costs]

/-- A lot with signs as they should be, and with a cost that a decimal can
come to when it is rounded to some places. -/
structure Bounded
    (places : Nat)
    (lot : Lot) :
    Prop where
  quantity_nonneg : 0 ≤ lot.quantity.value
  unitCost_nonneg : 0 ≤ lot.unitCost.value
  cost_le :
    lot.quantity.value * lot.unitCost.value * 10 ^ places ≤
      Decimal.maxCoefficient + 1 / 2

section Bounded

variable {places : Nat} {lot : Lot} {lots : List Lot}

theorem Bounded.cost_nonneg
    (bounded : lot.Bounded places) :
    0 ≤ lot.quantity.value * lot.unitCost.value :=
  mul_nonneg bounded.quantity_nonneg bounded.unitCost_nonneg

theorem costs_nonneg
    (bounded : ∀ lot ∈ lots, lot.Bounded places) :
    0 ≤ costs lots := by
  apply List.sum_nonneg
  intro cost member
  obtain ⟨lot, lotMember, rfl⟩ := List.mem_map.mp member
  exact (bounded lot lotMember).cost_nonneg

/-- The rest of a lot is smaller, and rounding its quantity changes its cost by
five units at most: the more a lot costs, the more digits its quantity has. -/
theorem Bounded.rest
    (bounded : lot.Bounded places)
    {taken left : Decimal}
    (takenNonneg : 0 ≤ taken.value)
    (takenLe : taken.value ≤ lot.quantity.value)
    (found : lot.quantity.sub? taken = some left) :
    { lot with quantity := left }.Bounded places ∧
      left.value ≤ lot.quantity.value ∧
        |left.value * lot.unitCost.value -
            (lot.quantity.value - taken.value) * lot.unitCost.value| ≤
          10 * Decimal.halfUnit places := by
  have close := Decimal.sub?_roundsClosely found
  have restNonneg : 0 ≤ lot.quantity.value - taken.value := sub_nonneg.mpr takenLe
  have smaller : left.value ≤ lot.quantity.value :=
    close.le_of_le lot.quantity restNonneg (by linarith)
  have unitCostNonneg := bounded.unitCost_nonneg
  refine ⟨⟨close.nonneg restNonneg, unitCostNonneg, ?_⟩, smaller, ?_⟩
  · have cheaper :
        left.value * lot.unitCost.value * 10 ^ places ≤
          lot.quantity.value * lot.unitCost.value * 10 ^ places :=
      mul_le_mul_of_nonneg_right
        (mul_le_mul_of_nonneg_right smaller unitCostNonneg) (by positivity)
    exact cheaper.trans bounded.cost_le
  · rw [← sub_mul, abs_mul, abs_of_nonneg unitCostNonneg]
    set error := |left.value - (lot.quantity.value - taken.value)|
    have unit : (0 : ℚ) < 10 ^ places := by positivity
    have half := Decimal.halfUnit_mul places
    have small : error * (Decimal.maxCoefficient + 1 / 2) ≤ 5 * lot.quantity.value := by
      refine close.small.trans ?_
      rw [abs_of_nonneg restNonneg]
      linarith
    have inUnits : error * lot.unitCost.value * 10 ^ places ≤ 5 := by
      refine le_of_mul_le_mul_right ?_
        (show (0 : ℚ) < Decimal.maxCoefficient + 1 / 2 by positivity)
      calc
        error * lot.unitCost.value * 10 ^ places * (Decimal.maxCoefficient + 1 / 2) =
            error * (Decimal.maxCoefficient + 1 / 2) *
              (lot.unitCost.value * 10 ^ places) := by
          ring
        _ ≤ 5 * lot.quantity.value * (lot.unitCost.value * 10 ^ places) :=
          mul_le_mul_of_nonneg_right small (by positivity)
        _ = 5 * (lot.quantity.value * lot.unitCost.value * 10 ^ places) := by
          ring
        _ ≤ 5 * (Decimal.maxCoefficient + 1 / 2) :=
          mul_le_mul_of_nonneg_left bounded.cost_le (by norm_num)
    refine le_of_mul_le_mul_right ?_ unit
    linarith

end Bounded

end Lot

namespace Position

variable {places : Nat}

/-! ## Taking lots -/

/-- What is released for a lot is rounded twice. -/
private theorem release_near
    (placesLe : places ≤ Decimal.maxScale)
    {lot : Lot}
    (bounded : lot.Bounded places)
    {taken released sum : Decimal}
    (takenNonneg : 0 ≤ taken.value)
    (takenLe : taken.value ≤ lot.quantity.value)
    {limit : ℚ}
    (room : Decimal.HasRoom limit places)
    (withinLimit :
      |released.value| + lot.quantity.value * lot.unitCost.value +
        Decimal.halfUnit places ≤ limit)
    (found : (taken.mul? lot.unitCost).bind released.add? = some sum) :
    |sum.value - (released.value + taken.value * lot.unitCost.value)| ≤
      2 * Decimal.halfUnit places := by
  obtain ⟨cost, product, added⟩ := Option.bind_eq_some_iff.mp found
  have half := (Decimal.halfUnit_pos places).le
  have costNonneg : 0 ≤ taken.value * lot.unitCost.value :=
    mul_nonneg takenNonneg bounded.unitCost_nonneg
  have costLe :
      taken.value * lot.unitCost.value ≤ lot.quantity.value * lot.unitCost.value :=
    mul_le_mul_of_nonneg_right takenLe bounded.unitCost_nonneg
  have releasedNonneg := abs_nonneg released.value
  have nearCost :=
    Decimal.mul?_rounds product places placesLe (room.of_abs_le (by
      rw [abs_of_nonneg costNonneg]
      linarith))
  have costBounds := abs_le.mp nearCost
  have releasedBounds := abs_le.mp (le_refl |released.value|)
  have nearSum :=
    (Decimal.add?_roundsClosely added).rounds places placesLe (room.of_abs_le (by
      rw [abs_le]
      constructor <;> linarith))
  have sumBounds := abs_le.mp nearSum
  rw [abs_le]
  constructor <;> linarith

/-- What is released, beyond what has been before, is near to what lots lose:
twice half a unit for each lot that is gone, and some more for one left in part. -/
structure Near
    (places : Nat)
    (lots left : List Lot)
    (before after : Decimal) :
    Prop where
  left_bounded : ∀ lot ∈ left, lot.Bounded places
  costs_le : Lot.costs left ≤ Lot.costs lots
  near :
    |after.value - before.value - (Lot.costs lots - Lot.costs left)| +
        2 * left.length * Decimal.halfUnit places ≤
      (2 * lots.length + 12) * Decimal.halfUnit places

namespace Near

theorem untouched
    {lots : List Lot}
    (bounded : ∀ lot ∈ lots, lot.Bounded places)
    (released : Decimal) :
    Near places lots lots released released where
  left_bounded := bounded
  costs_le := le_rfl
  near := by
    have half := (Decimal.halfUnit_pos places).le
    simp only [sub_self, abs_zero]
    linarith

variable
  {lot : Lot}
  {rest left : List Lot}
  {taken released sum total : Decimal}

/-- The first lot is left in part. -/
theorem part
    (bounded : lot.Bounded places)
    (restBounded : ∀ later ∈ rest, later.Bounded places)
    (takenNonneg : 0 ≤ taken.value)
    (takenLe : taken.value ≤ lot.quantity.value)
    (release :
      |sum.value - (released.value + taken.value * lot.unitCost.value)| ≤
        2 * Decimal.halfUnit places)
    {restQuantity : Decimal}
    (restEq : lot.quantity.sub? taken = some restQuantity) :
    Near places (lot :: rest) ({ lot with quantity := restQuantity } :: rest)
      released sum := by
  obtain ⟨stillBounded, smaller, restNear⟩ :=
    bounded.rest takenNonneg takenLe restEq
  have cheaper := mul_le_mul_of_nonneg_right smaller bounded.unitCost_nonneg
  have restBounds := abs_le.mp restNear
  have releaseBounds := abs_le.mp release
  refine ⟨List.forall_mem_cons.mpr ⟨stillBounded, restBounded⟩, ?_, ?_⟩
  · rw [Lot.costs_cons, Lot.costs_cons]
    linarith
  · rw [Lot.costs_cons, Lot.costs_cons, List.length_cons, List.length_cons,
      Nat.cast_succ, ← le_sub_iff_add_le, abs_le]
    constructor <;> linarith

/-- The first lot is gone as a whole. -/
theorem whole
    (bounded : lot.Bounded places)
    (release :
      |sum.value -
          (released.value + lot.quantity.value * lot.unitCost.value)| ≤
        2 * Decimal.halfUnit places)
    (onward : Near places rest left sum total) :
    Near places (lot :: rest) left released total := by
  have costNonneg := bounded.cost_nonneg
  have leftLe := onward.costs_le
  have releaseBounds := abs_le.mp release
  have onwardBounds := abs_le.mp (le_sub_iff_add_le.mpr onward.near)
  refine ⟨onward.left_bounded, ?_, ?_⟩
  · rw [Lot.costs_cons]
    linarith
  · rw [Lot.costs_cons, List.length_cons, Nat.cast_succ, ← le_sub_iff_add_le,
      abs_le]
    constructor <;> linarith

end Near

/-- What a sale releases is near to what the lots lose. -/
theorem take_near
    (placesLe : places ≤ Decimal.maxScale)
    {lots left : List Lot}
    (bounded : ∀ lot ∈ lots, lot.Bounded places)
    {requested released total : Decimal}
    {limit : ℚ}
    (room : Decimal.HasRoom limit places)
    (withinLimit :
      |released.value| + Lot.costs lots +
        2 * lots.length * Decimal.halfUnit places ≤ limit)
    (taken : take requested released lots = .ok (total, left)) :
    Near places lots left released total := by
  -- what is asked for and what is released change from lot to lot
  induction lots generalizing requested released with
  | nil =>
      simp only [take, Except.ok.injEq, Prod.mk.injEq] at taken
      obtain ⟨rfl, rfl⟩ := taken
      exact .untouched bounded _
  | cons lot rest inductionHypothesis =>
      have lotBounded := bounded lot List.mem_cons_self
      have restBounded :
          ∀ later ∈ rest, later.Bounded places :=
        fun later member => bounded later (List.mem_cons_of_mem _ member)
      rcases take_cons_eq_ok taken with
          ⟨-, rfl, rfl⟩ | ⟨isPositive, sum, sumEq, stops⟩
      · exact .untouched bounded _
      have takenNonneg : 0 ≤ (lot.quantity.least requested).value := by
        rw [Decimal.value_least]
        exact le_min lotBounded.quantity_nonneg
          (Decimal.isPositive_iff.mp isPositive).le
      have takenLe : (lot.quantity.least requested).value ≤ lot.quantity.value := by
        rw [Decimal.value_least]
        exact min_le_left _ _
      have half := (Decimal.halfUnit_pos places).le
      have restNonneg := Lot.costs_nonneg restBounded
      have restCount : 0 ≤ rest.length * Decimal.halfUnit places := by positivity
      rw [Lot.costs_cons, List.length_cons, Nat.cast_succ] at withinLimit
      have release :=
        release_near placesLe lotBounded takenNonneg takenLe room (by linarith) sumEq
      rcases stops with
          ⟨restQuantity, restEq, rfl, rfl⟩ | ⟨notLess, missing, takenOn⟩
      · exact .part lotBounded restBounded takenNonneg takenLe release restEq
      have isWhole : (lot.quantity.least requested).value = lot.quantity.value :=
        le_antisymm takenLe (not_lt.mp (Decimal.lt_iff_value_lt.not.mp notLess))
      rw [isWhole] at release
      refine .whole lotBounded release (inductionHypothesis restBounded ?_ takenOn)
      have sumLe :
          |sum.value| ≤
            |released.value| + lot.quantity.value * lot.unitCost.value +
              2 * Decimal.halfUnit places := by
        have releaseBounds := abs_le.mp release
        have releasedBounds := abs_le.mp (le_refl |released.value|)
        have costNonneg := lotBounded.cost_nonneg
        rw [abs_le]
        constructor <;> linarith
      linarith

/-! ## Balances -/

/-- A balance whose total cost is near to what its lots have cost. -/
structure Balance.Drifts
    (places : Nat)
    (entries : List Entry)
    (balance : Balance) :
    Prop where
  lots_bounded : ∀ lot ∈ balance.lots, lot.Bounded places
  costs_le : Lot.costs balance.lots ≤ Share.cost (shares entries)
  near :
    |balance.totalCost.value - Lot.costs balance.lots| +
        2 * balance.lots.length * Decimal.halfUnit places ≤
      14 * entries.length * Decimal.halfUnit places
  averageCost_nonneg :
    0 ≤ balance.totalCost.value → 0 ≤ balance.averageCost.value

/-- What the purchases of a history cost, and what its trades may drift. -/
def costLimit
    (places : Nat)
    (entries : List Entry) :
    ℚ :=
  Share.cost (shares entries) + 14 * entries.length * Decimal.halfUnit places

private theorem costLimit_mul
    (places : Nat)
    (entries : List Entry) :
    costLimit places entries * 10 ^ places =
      Share.cost (shares entries) * 10 ^ places + 7 * entries.length := by
  rw [costLimit, add_mul, mul_assoc _ _ (10 ^ places : ℚ), Decimal.halfUnit_mul]
  ring

/-- In units of the last place the drift is at most seven a trade. -/
theorem Balance.Drifts.near_inUnits
    {entries : List Entry}
    {balance : Balance}
    (drifts : balance.Drifts places entries) :
    |balance.totalCost.value - Lot.costs balance.lots| * 10 ^ places ≤
      7 * entries.length := by
  have lotsNonneg :
      0 ≤ 2 * balance.lots.length * Decimal.halfUnit places :=
    mul_nonneg (by positivity) (Decimal.halfUnit_pos places).le
  calc
    |balance.totalCost.value - Lot.costs balance.lots| * 10 ^ places ≤
        14 * entries.length * Decimal.halfUnit places * 10 ^ places :=
      mul_le_mul_of_nonneg_right
        ((le_add_of_nonneg_right lotsNonneg).trans drifts.near) (by positivity)
    _ = 7 * entries.length := by
      rw [mul_assoc, Decimal.halfUnit_mul]
      ring

/-- Where the lots cost more than the drift, the total cost has their sign. -/
theorem Balance.Drifts.totalCost_nonneg
    {entries : List Entry}
    {balance : Balance}
    (drifts : balance.Drifts places entries)
    (enough :
      7 * entries.length ≤ Lot.costs balance.lots * 10 ^ places) :
    0 ≤ balance.totalCost.value := by
  refine le_of_mul_le_mul_right ?_ (show (0 : ℚ) < 10 ^ places by positivity)
  have inUnits := drifts.near_inUnits
  have lower := mul_le_mul_of_nonneg_right
    (neg_abs_le (balance.totalCost.value - Lot.costs balance.lots))
    (show (0 : ℚ) ≤ 10 ^ places by positivity)
  linarith

theorem Balance.Drifts.costLimit_nonneg
    {entries : List Entry}
    {balance : Balance}
    (drifts : balance.Drifts places entries) :
    0 ≤ costLimit places entries := by
  have budgetNonneg : 0 ≤ 14 * entries.length * Decimal.halfUnit places :=
    mul_nonneg (by positivity) (Decimal.halfUnit_pos places).le
  exact add_nonneg ((Lot.costs_nonneg drifts.lots_bounded).trans drifts.costs_le)
    budgetNonneg

section OneMore

variable (earlier : List Entry) (entry : Entry)

private theorem cost_shares_append_buy
    (isBuy : entry.trade.side = .buy) :
    Share.cost (shares (earlier ++ [entry])) =
      Share.cost (shares earlier) +
        entry.trade.quantity.value * entry.trade.unitPrice.value := by
  rw [shares_append_buy _ _ isBuy, Share.cost_append, Share.cost_cons,
    Share.cost_nil, add_zero]
  rfl

private theorem budget_append
    (places : Nat) :
    14 * ((earlier ++ [entry]).length : ℚ) * Decimal.halfUnit places =
      14 * earlier.length * Decimal.halfUnit places +
        14 * Decimal.halfUnit places := by
  rw [List.length_append, List.length_singleton, Nat.cast_add, Nat.cast_one]
  ring

private theorem costLimit_append_buy
    (places : Nat)
    (isBuy : entry.trade.side = .buy) :
    costLimit places (earlier ++ [entry]) =
      Share.cost (shares earlier) +
          entry.trade.quantity.value * entry.trade.unitPrice.value +
        (14 * earlier.length * Decimal.halfUnit places +
          14 * Decimal.halfUnit places) := by
  rw [costLimit, cost_shares_append_buy _ _ isBuy, budget_append]

private theorem costLimit_append_sell
    (places : Nat)
    (isSell : entry.trade.side = .sell) :
    costLimit places (earlier ++ [entry]) =
      Share.cost (shares earlier) +
        (14 * earlier.length * Decimal.halfUnit places +
          14 * Decimal.halfUnit places) := by
  rw [costLimit, shares_append_sell _ _ isSell, budget_append]

end OneMore

/-- The average of a cost that is not negative is not negative. -/
private theorem averageCost_nonneg_of_ofTotals?
    {lots : List Lot}
    {quantity totalCost : Decimal}
    {balance : Balance}
    (found : Balance.ofTotals? lots quantity totalCost = some balance) :
    ∃ average,
      balance = ⟨lots, quantity, totalCost, average⟩ ∧
        (0 ≤ totalCost.value → 0 ≤ average.value) := by
  obtain ⟨average, rfl, ⟨isPositive, quotient⟩ | ⟨-, rfl⟩⟩ :=
    ofTotals?_eq_some found
  · exact ⟨average, rfl, fun totalNonneg =>
      Decimal.div?_nonneg totalNonneg (Decimal.isPositive_iff.mp isPositive) quotient⟩
  · exact ⟨.zero, rfl, fun _ => Decimal.value_zero.ge⟩

section Step

variable
  {position : Position}
  {earlier : List Entry}
  {entry : Entry}
  {balance : Balance}

/-- A purchase whose cost is a decimal opens a lot that is bounded. -/
private theorem bounded_of_mul?
    {trade : Trade}
    (sound : trade.Sound)
    {limit : ℚ}
    (room : Decimal.HasRoom limit places)
    (withinLimit : trade.quantity.value * trade.unitPrice.value ≤ limit)
    {cost : Decimal}
    (product : trade.quantity.mul? trade.unitPrice = some cost)
    (sequence : Nat) :
    Lot.Bounded places ⟨trade.quantity, trade.unitPrice, sequence⟩ where
  quantity_nonneg := sound.quantity_pos.le
  unitCost_nonneg := sound.price_nonneg
  cost_le := by
    rcases room with noPlaces | inRange
    · subst noPlaces
      have near :=
        abs_le.mp (Decimal.mul?_rounds product 0 (Nat.zero_le _) (.inl rfl))
      have costLe := abs_le.mp cost.abs_value_le
      have half := Decimal.halfUnit_mul 0
      rw [pow_zero, mul_one] at half ⊢
      linarith
    · have inUnits :
          trade.quantity.value * trade.unitPrice.value * 10 ^ places ≤
            |limit| * 10 ^ places :=
        mul_le_mul_of_nonneg_right (withinLimit.trans (le_abs_self limit))
          (by positivity)
      have largest : |limit| * 10 ^ places ≤ Decimal.maxCoefficient := inRange
      linarith

/-- A purchase adds what its lot costs, rounded twice. -/
theorem afterBuy?_drifts
    (placesLe : places ≤ Decimal.maxScale)
    (drifts : position.balance.Drifts places earlier)
    (isBuy : entry.trade.side = .buy)
    (sound : entry.trade.Sound)
    (room :
      Decimal.HasRoom (costLimit places (earlier ++ [entry])) places)
    (found :
      position.afterBuy? entry.trade.quantity entry.trade.unitPrice
        entry.sequence = some balance) :
    balance.Drifts places (earlier ++ [entry]) := by
  obtain ⟨cost, held, totalCost, product, -, added, totals⟩ :=
    afterBuy?_eq_some.mp found
  obtain ⟨average, rfl, averageNonneg⟩ := averageCost_nonneg_of_ofTotals? totals
  have costsLe : Lot.costs position.lots ≤ Share.cost (shares earlier) :=
    drifts.costs_le
  have near :
      |position.totalCost.value - Lot.costs position.lots| +
          2 * position.lots.length * Decimal.halfUnit places ≤
        14 * earlier.length * Decimal.halfUnit places :=
    drifts.near
  have costsNonneg : 0 ≤ Lot.costs position.lots :=
    Lot.costs_nonneg drifts.lots_bounded
  have half := (Decimal.halfUnit_pos places).le
  have lotsNonneg : 0 ≤ position.lots.length * Decimal.halfUnit places := by
    positivity
  have costNonneg : 0 ≤ entry.trade.quantity.value * entry.trade.unitPrice.value :=
    mul_nonneg sound.quantity_pos.le sound.price_nonneg
  have limit := costLimit_append_buy earlier entry places isBuy
  have nearBounds := abs_le.mp (le_sub_iff_add_le.mpr near)
  have costNear :=
    Decimal.mul?_rounds product places placesLe (room.of_abs_le (by
      rw [abs_of_nonneg costNonneg, limit]
      linarith))
  have costBounds := abs_le.mp costNear
  have totalNear :=
    (Decimal.add?_roundsClosely added).rounds places placesLe (room.of_abs_le (by
      rw [abs_le, limit]
      constructor <;> linarith))
  have totalBounds := abs_le.mp totalNear
  refine ⟨?_, ?_, ?_, averageNonneg⟩
  · intro lot member
    rcases List.mem_append.mp member with isOld | isNew
    · exact drifts.lots_bounded lot isOld
    · rw [List.mem_singleton.mp isNew]
      exact bounded_of_mul? sound room (by rw [limit]; linarith) product _
  · rw [Lot.costs_append, Lot.costs_cons, Lot.costs_nil, add_zero,
      cost_shares_append_buy _ _ isBuy]
    linarith
  · rw [Lot.costs_append, Lot.costs_cons, Lot.costs_nil, add_zero, budget_append,
      List.length_append, List.length_singleton, Nat.cast_add, Nat.cast_one,
      ← le_sub_iff_add_le, abs_le]
    constructor <;> linarith

/-- A sale subtracts what it takes from the lots, up to rounding. -/
theorem afterSell_drifts
    (placesLe : places ≤ Decimal.maxScale)
    (drifts : position.balance.Drifts places earlier)
    (isSell : entry.trade.side = .sell)
    (room :
      Decimal.HasRoom (costLimit places (earlier ++ [entry])) places)
    {tradeId : String}
    {requested : Decimal}
    (found : position.afterSell tradeId requested = .ok balance) :
    balance.Drifts places (earlier ++ [entry]) := by
  obtain ⟨-, released, left, totalCost, held, taken, subtracted, -, totals⟩ :=
    afterSell_eq_ok.mp found
  obtain ⟨average, rfl, averageNonneg⟩ := averageCost_nonneg_of_ofTotals? totals
  have costsLe : Lot.costs position.lots ≤ Share.cost (shares earlier) :=
    drifts.costs_le
  have near :
      |position.totalCost.value - Lot.costs position.lots| +
          2 * position.lots.length * Decimal.halfUnit places ≤
        14 * earlier.length * Decimal.halfUnit places :=
    drifts.near
  have half := (Decimal.halfUnit_pos places).le
  have limit := costLimit_append_sell earlier entry places isSell
  have distance := abs_nonneg (position.totalCost.value - Lot.costs position.lots)
  obtain ⟨leftBounded, leftLe, leftNear⟩ :
      Near places position.lots left .zero released :=
    take_near placesLe drifts.lots_bounded room
      (by
        rw [Decimal.value_zero, abs_zero, limit]
        change 0 + Lot.costs position.lots +
          2 * position.lots.length * Decimal.halfUnit places ≤ _
        linarith)
      taken
  rw [Decimal.value_zero, sub_zero] at leftNear
  have leftNonneg := Lot.costs_nonneg leftBounded
  have leftCount : 0 ≤ left.length * Decimal.halfUnit places := by positivity
  have nearBounds := abs_le.mp (le_sub_iff_add_le.mpr near)
  have leftBounds := abs_le.mp (le_sub_iff_add_le.mpr leftNear)
  have totalNear :=
    (Decimal.sub?_roundsClosely subtracted).rounds places placesLe
      (room.of_abs_le (by
        rw [abs_le, limit]
        constructor <;> linarith))
  have totalBounds := abs_le.mp totalNear
  refine ⟨leftBounded, ?_, ?_, averageNonneg⟩
  · rw [shares_append_sell _ _ isSell]
    exact leftLe.trans costsLe
  · rw [budget_append, ← le_sub_iff_add_le, abs_le]
    constructor <;> linarith

theorem afterTrade_drifts
    (placesLe : places ≤ Decimal.maxScale)
    (drifts : position.balance.Drifts places earlier)
    (room :
      Decimal.HasRoom (costLimit places (earlier ++ [entry])) places)
    (found :
      position.afterTrade entry.sequence entry.trade = .ok balance) :
    balance.Drifts places (earlier ++ [entry]) := by
  obtain ⟨sound, ⟨isBuy, bought⟩ | ⟨isSell, soldOff⟩⟩ := afterTrade_eq_ok.mp found
  · exact afterBuy?_drifts placesLe drifts isBuy sound room bought
  · exact afterSell_drifts placesLe drifts isSell room soldOff

/-- Closing a position drops what it has drifted. -/
theorem settle_drifts
    {entries : List Entry}
    (drifts : balance.Drifts places entries)
    (position : Position) :
    (position.settle balance).balance.Drifts places entries := by
  unfold settle
  by_cases isPositive : balance.quantity.IsPositive
  · rw [if_pos isPositive]
    exact drifts
  · rw [if_neg isPositive]
    have half := (Decimal.halfUnit_pos places).le
    refine ⟨by simp [Position.balance],
      (Lot.costs_nonneg drifts.lots_bounded).trans drifts.costs_le, ?_,
      fun _ => Decimal.value_zero.ge⟩
    simp only [Position.balance, Decimal.value_zero, Lot.costs_nil, sub_self,
      abs_zero, List.length_nil, Nat.cast_zero, mul_zero, zero_mul, add_zero]
    positivity

theorem empty_drifts
    (key : GroupKey) :
    (empty key).balance.Drifts places [] where
  lots_bounded := by simp [empty, Position.balance]
  costs_le := le_rfl
  near := by simp [empty, Position.balance]
  averageCost_nonneg _ := Decimal.value_zero.ge

/-- One more trade drifts by no more than seven units. -/
theorem apply_drifts
    {next : Position}
    (placesLe : places ≤ Decimal.maxScale)
    (drifts : position.balance.Drifts places earlier)
    (room :
      Decimal.HasRoom (costLimit places (earlier ++ [entry])) places)
    (applied : position.apply entry.sequence entry.trade = .ok next) :
    next.balance.Drifts places (earlier ++ [entry]) := by
  obtain ⟨balance, after, rfl⟩ := apply_eq_ok.mp applied
  rw [named_balance]
  exact settle_drifts (afterTrade_drifts placesLe drifts room after) position

end Step

end Position

namespace Ledger

open Position

/-- Further trades cost something or nothing. -/
private theorem costLimit_le_append
    {places : Nat}
    {earlier later : List Entry}
    (sound : ∀ entry ∈ later, entry.trade.Sound) :
    costLimit places earlier ≤ costLimit places (earlier ++ later) := by
  have laterNonneg : 0 ≤ Share.cost (shares later) :=
    (positive_shares sound).cost_nonneg (unitCost_nonneg_shares sound)
  have laterCount : 0 ≤ later.length * Decimal.halfUnit places :=
    mul_nonneg (Nat.cast_nonneg _) (Decimal.halfUnit_pos places).le
  have both :
      Share.cost (shares (earlier ++ later)) =
        Share.cost (shares earlier) + Share.cost (shares later) := by
    rw [shares_append, Share.cost_append]
  rw [costLimit, costLimit, both, List.length_append, Nat.cast_add]
  linarith

/-- A whole history drifts by no more than seven units a trade. -/
theorem drifts_of_replay
    {places : Nat}
    (placesLe : places ≤ Decimal.maxScale)
    {earlier rest : List Entry}
    {position final : Position}
    (drifts : position.balance.Drifts places earlier)
    (room : Decimal.HasRoom (costLimit places (earlier ++ rest)) places)
    (replays : replay position rest = .ok final) :
    final.balance.Drifts places (earlier ++ rest) := by
  -- the history grows at its end while the entries still to come shrink
  induction rest generalizing earlier position with
  | nil =>
      rw [replay_nil, Except.ok.injEq] at replays
      rw [← replays, List.append_nil]
      exact drifts
  | cons entry rest inductionHypothesis =>
      obtain ⟨next, applied, restReplays⟩ := replay_cons_eq_ok.mp replays
      have regroup :
          earlier ++ entry :: rest = (earlier ++ [entry]) ++ rest := by
        simp
      rw [regroup] at room ⊢
      have limitNonneg : 0 ≤ costLimit places (earlier ++ [entry]) := by
        refine drifts.costLimit_nonneg.trans (costLimit_le_append ?_)
        simpa using sound_of_apply applied
      refine inductionHypothesis
        (apply_drifts placesLe drifts (room.of_abs_le ?_) applied) room restReplays
      rw [abs_of_nonneg limitNonneg]
      exact costLimit_le_append (sound_of_replay restReplays)

/--
The cost basis of every accepted ledger: in any place that the costs of a group
have room for, and always in the place of whole units, the total cost of its
position is within seven units a trade of what the lots have cost.  So it is
not negative where the lots have cost as much, and the average cost has its
sign.
-/
theorem totalCost_drift_le
    {trades : List Trade}
    {found : List Position}
    (accepted : positions trades = .ok found)
    {position : Position}
    (member : position ∈ found)
    {places : Nat}
    (placesLe : places ≤ Decimal.maxScale)
    (room :
      places = 0 ∨
        Share.cost (shares (group trades position.key)) * 10 ^ places +
            7 * (group trades position.key).length ≤
          Decimal.maxCoefficient) :
    |position.totalCost.value - Lot.costs position.lots| * 10 ^ places ≤
        7 * (group trades position.key).length ∧
      (¬ position.totalCost.IsNegative → ¬ position.averageCost.IsNegative) ∧
        (7 * (group trades position.key).length ≤
            Lot.costs position.lots * 10 ^ places →
          ¬ position.totalCost.IsNegative ∧ ¬ position.averageCost.IsNegative) := by
  have replays := ((mem_positions accepted).mp member).1
  have start : (empty position.key).balance.Drifts places [] :=
    empty_drifts position.key
  set entries := group trades position.key
  have limitNonneg : 0 ≤ costLimit places ([] ++ entries) :=
    start.costLimit_nonneg.trans (costLimit_le_append (sound_of_replay replays))
  have hasRoom : Decimal.HasRoom (costLimit places ([] ++ entries)) places := by
    refine room.imp_right fun fits => ?_
    rw [Decimal.InRange, abs_of_nonneg limitNonneg, costLimit_mul]
    exact fits
  have drifts := drifts_of_replay placesLe start hasRoom replays
  have averageNonneg :
      ¬ position.totalCost.IsNegative → ¬ position.averageCost.IsNegative := by
    rw [Decimal.isNegative_iff, Decimal.isNegative_iff, not_lt, not_lt]
    exact drifts.averageCost_nonneg
  refine ⟨drifts.near_inUnits, averageNonneg, fun enough => ?_⟩
  have totalNonneg : ¬ position.totalCost.IsNegative := by
    rw [Decimal.isNegative_iff, not_lt]
    exact drifts.totalCost_nonneg enough
  exact ⟨totalNonneg, averageNonneg totalNonneg⟩

/-! ## A total cost below zero -/

/-- A sale of one and a half shares on a day. -/
def smallSale
    (day : Int) :
    Trade :=
  sampleTrade .sell .stock "AAPL" (sampleDecimal 15 1) .zero day

/-- Seven shares are bought, and one and a half are sold on each of four days. -/
def fourSales
    (unitPrice : Decimal) :
    List Trade :=
  [sampleTrade .buy .stock "AAPL" (sampleDecimal 7 0) unitPrice 1,
    smallSale 2, smallSale 3, smallSale 4, smallSale 5]

/-- The one share that is left, with a total cost. -/
def leftOfFourSales
    (unitPrice totalCost : Decimal) :
    Position where
  key :=
    ⟨.stock, "AAPL", "USD"⟩
  tickerName :=
    ""
  lots :=
    [⟨sampleDecimal 10 1, unitPrice, 0⟩]
  quantity :=
    sampleDecimal 10 1
  totalCost :=
    totalCost
  averageCost :=
    totalCost

private theorem keys_fourSales
    (unitPrice : Decimal) :
    keys (fourSales unitPrice) = [⟨.stock, "AAPL", "USD"⟩] := by
  cbv

private theorem group_fourSales
    (unitPrice : Decimal) :
    group (fourSales unitPrice) ⟨.stock, "AAPL", "USD"⟩ =
      [⟨0, sampleTrade .buy .stock "AAPL" (sampleDecimal 7 0) unitPrice 1⟩,
        ⟨1, smallSale 2⟩, ⟨2, smallSale 3⟩, ⟨3, smallSale 4⟩,
        ⟨4, smallSale 5⟩] := by
  cbv

private theorem positions_fourSales
    {unitPrice totalCost : Decimal}
    (replays :
      replay (.empty ⟨.stock, "AAPL", "USD"⟩)
          [⟨0, sampleTrade .buy .stock "AAPL" (sampleDecimal 7 0) unitPrice 1⟩,
            ⟨1, smallSale 2⟩, ⟨2, smallSale 3⟩, ⟨3, smallSale 4⟩,
            ⟨4, smallSale 5⟩] =
        .ok (leftOfFourSales unitPrice totalCost)) :
    positions (fourSales unitPrice) = .ok [leftOfFourSales unitPrice totalCost] := by
  rw [positions, allPositions, keys_fourSales]
  simp only [List.mapM_cons, group_fourSales, replays]
  rfl

/-- At a price of a thousand and one units the four sales take two units too
many, far fewer than are left, so the sign is as it should be. -/
theorem totalCost_drift_le_fourSales :
    let unitPrice := sampleDecimal 1001 28
    let left := leftOfFourSales unitPrice (sampleDecimal 999 28)
    positions (fourSales unitPrice) = .ok [left] ∧
      Share.cost (shares (group (fourSales unitPrice) left.key)) * 10 ^ 28 +
          7 * (group (fourSales unitPrice) left.key).length ≤
        Decimal.maxCoefficient ∧
      7 * (group (fourSales unitPrice) left.key).length ≤
        Lot.costs left.lots * 10 ^ 28 ∧
      ¬ left.totalCost.IsNegative ∧ ¬ left.averageCost.IsNegative := by
  intro unitPrice left
  have accepted : positions (fourSales unitPrice) = .ok [left] :=
    positions_fourSales (by decide +kernel)
  have isGroup : group (fourSales unitPrice) left.key = _ :=
    group_fourSales unitPrice
  have room :
      Share.cost (shares (group (fourSales unitPrice) left.key)) * 10 ^ 28 +
          7 * (group (fourSales unitPrice) left.key).length ≤
        Decimal.maxCoefficient := by
    rw [isGroup]
    decide +kernel
  have enough :
      7 * (group (fourSales unitPrice) left.key).length ≤
        Lot.costs left.lots * 10 ^ 28 := by
    rw [isGroup]
    decide +kernel
  obtain ⟨-, -, signs⟩ :=
    totalCost_drift_le accepted (List.mem_singleton_self left)
      (show 28 ≤ Decimal.maxScale from le_rfl) (.inr room)
  exact ⟨accepted, room, enough, signs enough⟩

/-- At a price of one unit each sale of one and a half shares takes two units, so
the four sales take eight of the seven units that have been paid. -/
theorem totalCost_below_zero :
    ¬ ∀ trades found,
      positions trades = .ok found →
        ∀ position ∈ found,
          ¬ position.totalCost.IsNegative ∧ ¬ position.averageCost.IsNegative := by
  intro neverNegative
  have accepted :
      positions (fourSales (sampleDecimal 1 28)) =
        .ok [leftOfFourSales (sampleDecimal 1 28) (-sampleDecimal 1 28)] :=
    positions_fourSales (by decide +kernel)
  have notNegative :=
    (neverNegative _ _ accepted _ (List.mem_singleton_self _)).1
  exact notNegative (by decide +kernel)

end Ledger

end NetWorth
