import Mathlib
import NetWorth.Proofs.Decimal.Quotient
import NetWorth.Proofs.Ledger.Groups
import NetWorth.Proofs.Ledger.History

/-!
# Replaying without rounding

While a history fits the range of decimals, its position tracks it: the lots
are what first in, first out leaves of the purchases, the totals are the exact
totals of these lots, and the average is their quotient.  Each acceptable entry
keeps this relation, and any other entry is refused for a reason that is read
off the history.
-/

namespace NetWorth

open Ledger

/-- The parts of a position that trades change. -/
def Position.balance
    (position : Position) :
    Position.Balance where
  lots :=
    position.lots
  quantity :=
    position.quantity
  totalCost :=
    position.totalCost
  averageCost :=
    position.averageCost

/-- The lot that a purchase opens. -/
def Entry.lot
    (entry : Entry) :
    Lot where
  quantity :=
    entry.trade.quantity
  unitCost :=
    entry.trade.unitPrice
  sequence :=
    entry.sequence

/-- A lot of a sound purchase, written with few enough places. -/
structure Lot.Sound
    (quantityScale priceScale : Nat)
    (lot : Lot) :
    Prop where
  quantity_pos : 0 < lot.quantity.value
  unitCost_nonneg : 0 ≤ lot.unitCost.value
  quantity_scale_le : lot.quantity.scale ≤ quantityScale
  unitCost_scale_le : lot.unitCost.scale ≤ priceScale

/-- A balance that is exactly what a history leaves. -/
structure Position.Balance.Tracks
    (quantityScale priceScale : Nat)
    (entries : List Entry)
    (balance : Position.Balance) :
    Prop where
  lots : balance.lots.map Lot.share = openShares entries
  lots_sound :
    ∀ lot ∈ balance.lots, lot.Sound quantityScale priceScale
  quantity :
    balance.quantity.Represents (bought entries - sold entries)
      quantityScale
  totalCost :
    balance.totalCost.Represents (Share.cost (openShares entries))
      (quantityScale + priceScale)
  averageCost :
    balance.quantity.IsPositive →
      balance.totalCost.div? balance.quantity = some balance.averageCost

/-- Why an entry cannot follow a history, as the history itself says it. -/
inductive Offence
    (key : GroupKey)
    (earlier : List Entry)
    (entry : Entry) :
    LedgerError → Prop where
  | quantity :
      entry.trade.quantity.value ≤ 0 →
      Offence key earlier entry
        (.nonPositiveQuantity key entry.trade.id entry.trade.quantity)
  | price :
      0 < entry.trade.quantity.value →
      entry.trade.unitPrice.value < 0 →
      Offence key earlier entry
        (.negativeUnitPrice key entry.trade.id entry.trade.unitPrice)
  | holding
      (available shortfall : Decimal) :
      entry.trade.Sound →
      entry.trade.side = .sell →
      available.value = bought earlier - sold earlier →
      available.value < entry.trade.quantity.value →
      shortfall.value = entry.trade.quantity.value - available.value →
      Offence key earlier entry
        (.insufficientHolding key entry.trade.quantity available shortfall)

namespace Lot.Sound

variable {quantityScale priceScale : Nat} {lots : List Lot}

theorem positive_shares
    (sound : ∀ lot ∈ lots, lot.Sound quantityScale priceScale) :
    Share.Positive (lots.map Lot.share) := by
  intro share member
  obtain ⟨lot, lotMember, rfl⟩ := List.mem_map.mp member
  exact (sound lot lotMember).quantity_pos

theorem shares_unitCost_nonneg
    (sound : ∀ lot ∈ lots, lot.Sound quantityScale priceScale) :
    ∀ share ∈ lots.map Lot.share, 0 ≤ share.unitCost.value := by
  intro share member
  obtain ⟨lot, lotMember, rfl⟩ := List.mem_map.mp member
  exact (sound lot lotMember).unitCost_nonneg

end Lot.Sound

namespace Position

variable {quantityScale priceScale : Nat}

/-- Taking from one lot releases the exact cost of what is taken. -/
private theorem release_exact
    (placesLe : quantityScale + priceScale ≤ Decimal.maxScale)
    {lot : Lot}
    (sound : lot.Sound quantityScale priceScale)
    {requested released : Decimal}
    {amount before limit : ℚ}
    (request : requested.Represents amount quantityScale)
    (amountNonneg : 0 ≤ amount)
    (release :
      released.Represents before (quantityScale + priceScale))
    (beforeNonneg : 0 ≤ before)
    (withinLimit :
      before + lot.quantity.value * lot.unitCost.value ≤ limit)
    (limitInRange :
      Decimal.InRange limit (quantityScale + priceScale)) :
    ∃ sum,
      ((lot.quantity.least requested).mul? lot.unitCost).bind
          released.add? = some sum ∧
        sum.Represents
          (before + min lot.quantity.value amount * lot.unitCost.value)
          (quantityScale + priceScale) := by
  have whole : lot.quantity.Represents lot.quantity.value quantityScale :=
    ⟨rfl, sound.quantity_scale_le⟩
  have unit : lot.unitCost.Represents lot.unitCost.value priceScale :=
    ⟨rfl, sound.unitCost_scale_le⟩
  have partNonneg : 0 ≤ min lot.quantity.value amount :=
    le_min sound.quantity_pos.le amountNonneg
  have costNonneg :
      0 ≤ min lot.quantity.value amount * lot.unitCost.value :=
    mul_nonneg partNonneg sound.unitCost_nonneg
  have costLe :
      min lot.quantity.value amount * lot.unitCost.value ≤
        lot.quantity.value * lot.unitCost.value :=
    mul_le_mul_of_nonneg_right (min_le_left _ _) sound.unitCost_nonneg
  obtain ⟨cost, costEq, costExact⟩ :=
    Decimal.mul?_exact (whole.least request) unit placesLe
      (limitInRange.of_nonneg_of_le costNonneg (by linarith))
  obtain ⟨sum, sumEq, sumExact⟩ :=
    Decimal.add?_exact release costExact placesLe
      (limitInRange.of_nonneg_of_le (by linarith) (by linarith))
  exact ⟨sum, by rw [costEq, Option.bind_some, sumEq], sumExact⟩

/-- A sale that ends in the first lot leaves the rest of this lot. -/
private theorem take_part
    (placesLe : quantityScale ≤ Decimal.maxScale)
    {lot : Lot}
    (sound : lot.Sound quantityScale priceScale)
    (inRange : Decimal.InRange lot.quantity.value quantityScale)
    {requested released sum : Decimal}
    {amount : ℚ}
    (request : requested.Represents amount quantityScale)
    (amountPos : 0 < amount)
    (less : amount < lot.quantity.value)
    (sumEq :
      ((lot.quantity.least requested).mul? lot.unitCost).bind
        released.add? = some sum)
    (rest : List Lot) :
    ∃ left : Decimal,
      take requested released (lot :: rest) =
          .ok (sum, { lot with quantity := left } :: rest) ∧
        left.Represents (lot.quantity.value - amount) quantityScale := by
  have isPositive : requested.IsPositive := by
    rw [Decimal.isPositive_iff, request.value_eq]
    exact amountPos
  have whole : lot.quantity.Represents lot.quantity.value quantityScale :=
    ⟨rfl, sound.quantity_scale_le⟩
  have part := whole.least request
  have onlyPart : lot.quantity.least requested < lot.quantity := by
    rw [Decimal.lt_iff_value_lt, part.value_eq]
    exact min_lt_of_right_lt less
  rw [min_eq_right less.le] at part
  obtain ⟨left, leftEq, leftExact⟩ :=
    Decimal.sub?_exact whole part placesLe
      (inRange.of_nonneg_of_le (by linarith) (by linarith))
  refine ⟨left, ?_, leftExact⟩
  rw [take, if_pos isPositive]
  simp only [sumEq, if_pos onlyPart, leftEq]

/-- A sale that the first lot does not cover goes on with the other lots. -/
private theorem take_whole
    (placesLe : quantityScale ≤ Decimal.maxScale)
    {lot : Lot}
    (sound : lot.Sound quantityScale priceScale)
    {requested released sum : Decimal}
    {amount : ℚ}
    (request : requested.Represents amount quantityScale)
    (amountInRange : Decimal.InRange amount quantityScale)
    (enough : lot.quantity.value ≤ amount)
    (sumEq :
      ((lot.quantity.least requested).mul? lot.unitCost).bind
        released.add? = some sum)
    (rest : List Lot) :
    ∃ missing : Decimal,
      take requested released (lot :: rest) = take missing sum rest ∧
        missing.Represents (amount - lot.quantity.value)
          quantityScale := by
  have quantityPos := sound.quantity_pos
  have isPositive : requested.IsPositive := by
    rw [Decimal.isPositive_iff, request.value_eq]
    exact quantityPos.trans_le enough
  have whole : lot.quantity.Represents lot.quantity.value quantityScale :=
    ⟨rfl, sound.quantity_scale_le⟩
  have part := whole.least request
  have wholeLot : ¬ lot.quantity.least requested < lot.quantity := by
    rw [Decimal.lt_iff_value_lt, part.value_eq, not_lt]
    exact le_min le_rfl enough
  rw [min_eq_left enough] at part
  obtain ⟨missing, missingEq, missingExact⟩ :=
    Decimal.sub?_exact request part placesLe
      (amountInRange.of_nonneg_of_le (by linarith) (by linarith))
  refine ⟨missing, ?_, missingExact⟩
  rw [take, if_pos isPositive]
  simp only [sumEq, if_neg wholeLot, missingEq]

/-- Taking from lots takes from their shares and releases the cost. -/
theorem take_exact
    (placesLe : quantityScale + priceScale ≤ Decimal.maxScale)
    {lots : List Lot}
    (sound : ∀ lot ∈ lots, lot.Sound quantityScale priceScale)
    (quantityInRange :
      Decimal.InRange (Share.total (lots.map Lot.share)) quantityScale)
    {requested released : Decimal}
    {amount before : ℚ}
    (request : requested.Represents amount quantityScale)
    (amountNonneg : 0 ≤ amount)
    (covered : amount ≤ Share.total (lots.map Lot.share))
    (release :
      released.Represents before (quantityScale + priceScale))
    (beforeNonneg : 0 ≤ before)
    (costInRange :
      Decimal.InRange (before + Share.cost (lots.map Lot.share))
        (quantityScale + priceScale)) :
    ∃ total left,
      take requested released lots = .ok (total, left) ∧
        left.map Lot.share =
          Share.consume amount (lots.map Lot.share) ∧
        (∀ lot ∈ left, lot.Sound quantityScale priceScale) ∧
        total.Represents
          (before + Share.cost (lots.map Lot.share) -
            Share.cost (Share.consume amount (lots.map Lot.share)))
          (quantityScale + priceScale) := by
  -- what is asked for and what is released change from lot to lot
  induction lots generalizing requested released amount before with
  | nil =>
      refine ⟨released, [], rfl, rfl, sound, ?_⟩
      simpa [Share.consume] using release
  | cons lot rest inductionHypothesis =>
      have lotSound := sound lot (by simp)
      have restSound :
          ∀ later ∈ rest, later.Sound quantityScale priceScale :=
        fun later member => sound later (by simp [member])
      have quantityPos := lotSound.quantity_pos
      have quantityPlacesLe := (Nat.le_add_right _ _).trans placesLe
      have restTotal :=
        (Lot.Sound.positive_shares restSound).total_nonneg
      have restCost :=
        (Lot.Sound.positive_shares restSound).cost_nonneg
          (Lot.Sound.shares_unitCost_nonneg restSound)
      rcases amountNonneg.eq_or_lt with nothing | amountPos
      · -- nothing is asked for any more
        subst nothing
        have notPositive : ¬ requested.IsPositive := by
          rw [Decimal.isPositive_iff, request.value_eq]
          exact lt_irrefl _
        have untouched :=
          (Lot.Sound.positive_shares sound).consume_zero
        refine ⟨released, lot :: rest, ?_, untouched.symm, sound, ?_⟩
        · rw [take, if_neg notPositive]
        · rw [untouched, add_sub_cancel_right]
          exact release
      simp only [List.map_cons, Share.total_cons, Share.cost_cons,
        Share.consume, Lot.share] at quantityInRange covered costInRange ⊢
      obtain ⟨sum, sumEq, sumExact⟩ :=
        release_exact placesLe lotSound request amountNonneg release
          beforeNonneg (by linarith) costInRange
      by_cases less : amount < lot.quantity.value
      · obtain ⟨left, taken, leftExact⟩ :=
          take_part quantityPlacesLe lotSound
            (quantityInRange.of_nonneg_of_le quantityPos.le (by linarith))
            request amountPos less sumEq rest
        rw [min_eq_right less.le] at sumExact
        simp only [if_pos less]
        refine ⟨sum, { lot with quantity := left } :: rest, taken, ?_, ?_,
          ?_⟩
        · simp [Lot.share, leftExact.value_eq]
        · intro later member
          rcases List.mem_cons.mp member with isHead | inRest
          · subst later
            refine ⟨?_, lotSound.unitCost_nonneg, leftExact.scale_le,
              lotSound.unitCost_scale_le⟩
            rw [leftExact.value_eq]
            exact sub_pos.mpr less
          · exact restSound later inRest
        · convert sumExact using 1
          rw [Share.cost_cons]
          ring
      · have enough := not_lt.mp less
        obtain ⟨missing, takenOn, missingExact⟩ :=
          take_whole quantityPlacesLe lotSound request
            (quantityInRange.of_nonneg_of_le amountNonneg covered) enough
            sumEq rest
        rw [min_eq_left enough] at sumExact
        have costNonneg :
            0 ≤ lot.quantity.value * lot.unitCost.value :=
          mul_nonneg quantityPos.le lotSound.unitCost_nonneg
        obtain ⟨total, left, taken, leftShares, leftSound, totalExact⟩ :=
          inductionHypothesis restSound
            (quantityInRange.of_nonneg_of_le restTotal (by linarith))
            missingExact (by linarith) (by linarith) sumExact
            (by linarith) (by rwa [add_assoc])
        simp only [if_neg less]
        refine ⟨total, left, takenOn.trans taken, leftShares, leftSound, ?_⟩
        rwa [add_assoc] at totalExact

/-- A quantity and a cost that are those of the lots have an average. -/
private theorem ofTotals?_exact
    {lots : List Lot}
    (sound : ∀ lot ∈ lots, lot.Sound quantityScale priceScale)
    {quantity totalCost : Decimal}
    (quantityEq : quantity.value = Share.total (lots.map Lot.share))
    (costEq : totalCost.value = Share.cost (lots.map Lot.share)) :
    ∃ average,
      Balance.ofTotals? lots quantity totalCost =
          some ⟨lots, quantity, totalCost, average⟩ ∧
        (quantity.IsPositive →
          totalCost.div? quantity = some average) := by
  by_cases isPositive : quantity.IsPositive
  · have positive := Lot.Sound.positive_shares sound
    have quantityPos := Decimal.isPositive_iff.mp isPositive
    have divisorNe : ¬ quantity.IsZero := fun isZero =>
      quantityPos.ne' (Decimal.isZero_iff.mp isZero)
    have costNonneg :=
      positive.cost_nonneg (Lot.Sound.shares_unitCost_nonneg sound)
    have bounded :
        |totalCost.value / quantity.value| ≤ Decimal.maxCoefficient := by
      rw [abs_of_nonneg
        (div_nonneg (costEq ▸ costNonneg) quantityPos.le),
        div_le_iff₀ quantityPos, costEq, quantityEq]
      exact Share.cost_le_mul_total positive
    obtain ⟨average, averageEq⟩ :=
      Option.isSome_iff_exists.mp
        (Decimal.div?_isSome divisorNe bounded)
    exact ⟨average, by simp [Balance.ofTotals?, isPositive, averageEq],
      fun _ => averageEq⟩
  · exact ⟨.zero, by simp [Balance.ofTotals?, isPositive],
      fun isPositive' => absurd isPositive' isPositive⟩

/-- Lots and totals that belong to a history make a balance that tracks it. -/
theorem ofTotals?_tracks
    {entries : List Entry}
    (acceptable : Acceptable entries)
    {lots : List Lot}
    (lotsEq : lots.map Lot.share = openShares entries)
    (sound : ∀ lot ∈ lots, lot.Sound quantityScale priceScale)
    {quantity totalCost : Decimal}
    (quantityExact :
      quantity.Represents (bought entries - sold entries) quantityScale)
    (costExact :
      totalCost.Represents (Share.cost (openShares entries))
        (quantityScale + priceScale)) :
    ∃ balance,
      Balance.ofTotals? lots quantity totalCost = some balance ∧
        balance.Tracks quantityScale priceScale entries := by
  have quantityEq : quantity.value = Share.total (lots.map Lot.share) := by
    rw [quantityExact.value_eq, lotsEq, total_openShares acceptable]
  obtain ⟨average, found, averageEq⟩ :=
    ofTotals?_exact sound quantityEq (by rw [costExact.value_eq, lotsEq])
  exact ⟨_, found, lotsEq, sound, quantityExact, costExact, averageEq⟩

section Step

variable {earlier : List Entry} {entry : Entry} {position : Position}

/-- A purchase is tracked. -/
theorem afterBuy?_tracks
    (tracks :
      position.balance.Tracks quantityScale priceScale earlier)
    (acceptable : Acceptable (earlier ++ [entry]))
    (fits : PurchasesFitAt quantityScale priceScale (earlier ++ [entry]))
    (isBuy : entry.trade.side = .buy) :
    ∃ balance,
      position.afterBuy? entry.trade.quantity entry.trade.unitPrice
          entry.sequence = some balance ∧
        balance.Tracks quantityScale priceScale
          (earlier ++ [entry]) := by
  obtain ⟨before, sound, -⟩ := acceptable_append_singleton.mp acceptable
  have heldAfter := held_append_buy earlier entry isBuy
  have costAfter := cost_openShares_append_buy before isBuy sound
  have heldInRange := fits.held_inRange acceptable
  have costInRange := fits.openCost_inRange acceptable.sound
  rw [heldAfter] at heldInRange
  rw [costAfter] at costInRange
  have isLast : entry ∈ purchases (earlier ++ [entry]) := by
    simp [purchases, isBuy]
  have quantityIs := fits.quantity_represents (List.mem_of_mem_filter isLast)
  have priceIs := fits.price_represents isLast
  obtain ⟨cost, costEq, costExact⟩ :=
    Decimal.mul?_exact quantityIs priceIs fits.places_le
      (costInRange.of_nonneg_of_le
        (mul_nonneg sound.quantity_pos.le sound.price_nonneg)
        (le_add_of_nonneg_left (cost_openShares_nonneg before.sound)))
  obtain ⟨held, heldEq, heldExact⟩ :=
    Decimal.add?_exact tracks.quantity quantityIs fits.quantityScale_le
      heldInRange
  obtain ⟨total, totalEq, totalExact⟩ :=
    Decimal.add?_exact tracks.totalCost costExact fits.places_le costInRange
  rw [← heldAfter] at heldExact
  rw [← costAfter] at totalExact
  have lotsEq :
      (position.lots ++ [entry.lot]).map Lot.share =
        openShares (earlier ++ [entry]) := by
    rw [openShares_append_buy before isBuy sound, ← tracks.lots,
      List.map_append]
    rfl
  have lotsSound :
      ∀ lot ∈ position.lots ++ [entry.lot],
        lot.Sound quantityScale priceScale := by
    intro lot member
    rcases List.mem_append.mp member with isEarlier | isNew
    · exact tracks.lots_sound lot isEarlier
    · rw [List.mem_singleton.mp isNew]
      exact ⟨sound.quantity_pos, sound.price_nonneg,
        quantityIs.scale_le, priceIs.scale_le⟩
  obtain ⟨balance, found, balanceTracks⟩ :=
    ofTotals?_tracks acceptable lotsEq lotsSound heldExact totalExact
  refine ⟨balance, ?_, balanceTracks⟩
  change position.quantity.add? _ = _ at heldEq
  change position.totalCost.add? _ = _ at totalEq
  simp only [afterBuy?, costEq, heldEq, totalEq, Option.bind_eq_bind,
    Option.bind_some]
  exact found

/-- A sale of no more than is held is tracked. -/
theorem afterSell_tracks
    (tracks :
      position.balance.Tracks quantityScale priceScale earlier)
    (acceptable : Acceptable (earlier ++ [entry]))
    (fits : PurchasesFitAt quantityScale priceScale earlier)
    (fitsAfter : PurchasesFitAt quantityScale priceScale (earlier ++ [entry]))
    (isSell : entry.trade.side = .sell)
    (tradeId : String) :
    ∃ balance,
      position.afterSell tradeId entry.trade.quantity = .ok balance ∧
        balance.Tracks quantityScale priceScale
          (earlier ++ [entry]) := by
  obtain ⟨before, sound, -⟩ := acceptable_append_singleton.mp acceptable
  have heldAfter := held_append_sell earlier entry isSell
  have sharesAfter :
      openShares (earlier ++ [entry]) =
        Share.consume entry.trade.quantity.value (openShares earlier) :=
    openShares_append_sell isSell sound
  have heldInRange := fits.held_inRange before
  have heldAfterInRange := fitsAfter.held_inRange acceptable
  have costAfterInRange := fitsAfter.openCost_inRange acceptable.sound
  rw [heldAfter] at heldAfterInRange
  rw [sharesAfter] at costAfterInRange
  have enough :
      entry.trade.quantity.value ≤ bought earlier - sold earlier := by
    have covered := sub_nonneg.mpr acceptable.covered
    rw [heldAfter] at covered
    exact sub_nonneg.mp covered
  have isLast : entry ∈ earlier ++ [entry] := by simp
  have quantityIs := fitsAfter.quantity_represents isLast
  have nothingYet :
      Decimal.zero.Represents 0 (quantityScale + priceScale) :=
    ⟨Decimal.value_zero, Nat.zero_le _⟩
  obtain ⟨released, left, taken, leftShares, leftSound, releasedExact⟩ :=
    take_exact fits.places_le tracks.lots_sound
      (by rwa [tracks.lots, total_openShares before])
      quantityIs sound.quantity_pos.le
      (by rwa [tracks.lots, total_openShares before])
      nothingYet le_rfl
      (by
        rw [tracks.lots, zero_add]
        exact fits.openCost_inRange before.sound)
  rw [tracks.lots] at leftShares releasedExact
  rw [zero_add] at releasedExact
  obtain ⟨cost, costEq, costExact⟩ :=
    Decimal.sub?_exact tracks.totalCost releasedExact fits.places_le
      (by rwa [sub_sub_cancel])
  obtain ⟨held, heldEq, heldExact⟩ :=
    Decimal.sub?_exact tracks.quantity quantityIs fits.quantityScale_le
      heldAfterInRange
  rw [← heldAfter] at heldExact
  rw [sub_sub_cancel, ← sharesAfter] at costExact
  obtain ⟨balance, found, balanceTracks⟩ :=
    ofTotals?_tracks acceptable (leftShares.trans sharesAfter.symm)
      leftSound heldExact costExact
  refine ⟨balance, ?_, balanceTracks⟩
  have notShort : ¬ position.quantity < entry.trade.quantity := by
    have heldValue := tracks.quantity.value_eq
    change position.quantity.value = _ at heldValue
    rw [Decimal.lt_iff_value_lt, heldValue]
    exact not_lt.mpr enough
  change take entry.trade.quantity .zero position.lots = _ at taken
  change position.totalCost.sub? _ = _ at costEq
  change position.quantity.sub? _ = _ at heldEq
  simp only [afterSell, notShort, if_false, taken, costEq, heldEq, found]

/-- A sale of more than is held is refused with what it falls short by. -/
theorem afterSell_insufficient
    (tracks :
      position.balance.Tracks quantityScale priceScale earlier)
    (acceptable : Acceptable earlier)
    (fits : FitsAt quantityScale priceScale (earlier ++ [entry]))
    (isSell : entry.trade.side = .sell)
    (sound : entry.trade.Sound)
    (uncovered :
      bought earlier - sold earlier < entry.trade.quantity.value)
    (tradeId : String) :
    ∃ error,
      position.afterSell tradeId entry.trade.quantity = .error error ∧
        Offence position.key earlier entry error := by
  have soldNonneg := sold_nonneg acceptable.sound
  have covered := acceptable.covered
  have quantityPos := sound.quantity_pos
  have tradedInRange := fits.traded_inRange
  rw [bought_append_sell _ _ isSell, sold_append_sell _ _ isSell]
    at tradedInRange
  have isLast : entry ∈ earlier ++ [entry] := by simp
  have purchasesFit :=
    fits.purchasesFitAt (List.forall_mem_append.mpr
      ⟨acceptable.sound, List.forall_mem_singleton.mpr sound⟩)
  obtain ⟨shortfall, shortfallEq, shortfallExact⟩ :=
    Decimal.sub?_exact (purchasesFit.quantity_represents isLast) tracks.quantity
      purchasesFit.quantityScale_le
      (tradedInRange.of_nonneg_of_le (by linarith) (by linarith))
  have heldValue : position.quantity.value = bought earlier - sold earlier :=
    tracks.quantity.value_eq
  have tooMuch : position.quantity < entry.trade.quantity := by
    rw [Decimal.lt_iff_value_lt, heldValue]
    exact uncovered
  refine ⟨.insufficientHolding position.key entry.trade.quantity
    position.quantity shortfall, ?_, ?_⟩
  · change entry.trade.quantity.sub? position.quantity = _ at shortfallEq
    simp only [afterSell, tooMuch, if_true, shortfallEq]
  · apply Offence.holding _ _ sound isSell heldValue
    · rw [heldValue]
      exact uncovered
    · rw [shortfallExact.value_eq, heldValue]

@[simp] theorem named_balance
    (position : Position)
    (tickerName : String) :
    (position.named tickerName).balance = position.balance := by
  unfold named
  split <;> rfl

/-- Closing a position forgets nothing that its history has left. -/
theorem settle_tracks
    {entries : List Entry}
    (acceptable : Acceptable entries)
    {balance : Balance}
    (tracks : balance.Tracks quantityScale priceScale entries)
    (position : Position) :
    (position.settle balance).balance.Tracks quantityScale priceScale
      entries := by
  unfold settle
  by_cases isPositive : balance.quantity.IsPositive
  · rw [if_pos isPositive]
    exact tracks
  · rw [if_neg isPositive]
    have nothingHeld : bought entries - sold entries = 0 := by
      rw [Decimal.isPositive_iff, tracks.quantity.value_eq]
        at isPositive
      exact le_antisymm (not_lt.mp isPositive)
        (sub_nonneg.mpr acceptable.covered)
    have nothingOpen : openShares entries = [] := by
      apply Share.consume_eq_nil (positive_shares acceptable.sound)
      rw [total_shares]
      linarith
    refine ⟨?_, by simp [Position.balance], ?_, ?_, ?_⟩
    · rw [nothingOpen]
      rfl
    · rw [nothingHeld]
      exact ⟨Decimal.value_zero, Nat.zero_le _⟩
    · rw [nothingOpen]
      exact ⟨Decimal.value_zero, Nat.zero_le _⟩
    · intro zeroPositive
      exact absurd zeroPositive Decimal.not_isPositive_zero

theorem empty_tracks
    (key : GroupKey) :
    (empty key).balance.Tracks quantityScale priceScale [] where
  lots := rfl
  lots_sound := by simp [empty, Position.balance]
  quantity := ⟨by simp [empty, Position.balance, bought, sold,
    purchases, sales], Nat.zero_le _⟩
  totalCost := ⟨by simp [empty, Position.balance, openShares, shares,
    purchases, Share.consume], Nat.zero_le _⟩
  averageCost zeroPositive := absurd zeroPositive Decimal.not_isPositive_zero

/-- The trade of one entry: it is tracked if it is acceptable after the history
before it, and otherwise it is refused for its offence. -/
theorem afterTrade_cases
    (tracks :
      position.balance.Tracks quantityScale priceScale earlier)
    (acceptable : Acceptable earlier)
    (fits : FitsAt quantityScale priceScale earlier)
    (fitsAfter : FitsAt quantityScale priceScale (earlier ++ [entry])) :
    (Acceptable (earlier ++ [entry]) ∧
      ∃ balance,
        position.afterTrade entry.sequence entry.trade = .ok balance ∧
          balance.Tracks quantityScale priceScale
            (earlier ++ [entry])) ∨
    (¬ Acceptable (earlier ++ [entry]) ∧
      ∃ error,
        position.afterTrade entry.sequence entry.trade = .error error ∧
          Offence position.key earlier entry error) := by
  -- the checks come in the order in which offences count
  by_cases quantityPos : entry.trade.quantity.IsPositive
  case neg =>
    have notPos := quantityPos
    rw [Decimal.isPositive_iff] at notPos
    refine .inr ⟨fun extended => notPos
      (acceptable_append_singleton.mp extended).2.1.quantity_pos,
      _, ?_, .quantity (not_lt.mp notPos)⟩
    simp only [afterTrade, quantityPos, not_false_eq_true, if_true]
  by_cases priceNeg : entry.trade.unitPrice.IsNegative
  case pos =>
    have neg := Decimal.isNegative_iff.mp priceNeg
    refine .inr ⟨fun extended => neg.not_ge
      (acceptable_append_singleton.mp extended).2.1.price_nonneg,
      _, ?_, .price (Decimal.isPositive_iff.mp quantityPos) neg⟩
    simp only [afterTrade, quantityPos, not_true_eq_false, if_false,
      priceNeg, if_true]
  have sound : entry.trade.Sound :=
    ⟨Decimal.isPositive_iff.mp quantityPos,
      not_lt.mp (Decimal.isNegative_iff.not.mp priceNeg)⟩
  simp only [afterTrade, quantityPos, not_true_eq_false, if_false, priceNeg]
  cases side : entry.trade.side with
  | buy =>
      have extended := acceptable.append_buy side sound
      obtain ⟨balance, found, balanceTracks⟩ :=
        afterBuy?_tracks tracks extended (fitsAfter.purchasesFitAt extended.sound) side
      refine .inl ⟨extended, balance, ?_, balanceTracks⟩
      simp only [found]
  | sell =>
      by_cases extended : Acceptable (earlier ++ [entry])
      · exact .inl ⟨extended,
          afterSell_tracks tracks extended (fits.purchasesFitAt acceptable.sound)
            (fitsAfter.purchasesFitAt extended.sound) side _⟩
      · have uncovered :
            bought earlier - sold earlier <
              entry.trade.quantity.value := by
          by_contra enough
          exact extended (acceptable.append_sell side sound (not_lt.mp enough))
        exact .inr ⟨extended,
          afterSell_insufficient tracks acceptable fitsAfter side sound
            uncovered _⟩

/-- One entry: it is tracked if it is acceptable after the history before it,
and otherwise it is refused for its offence. -/
theorem apply_cases
    (tracks :
      position.balance.Tracks quantityScale priceScale earlier)
    (acceptable : Acceptable earlier)
    (fits : FitsAt quantityScale priceScale earlier)
    (fitsAfter : FitsAt quantityScale priceScale (earlier ++ [entry])) :
    (Acceptable (earlier ++ [entry]) ∧
      ∃ next,
        position.apply entry.sequence entry.trade = .ok next ∧
          next.key = position.key ∧
          next.balance.Tracks quantityScale priceScale
            (earlier ++ [entry])) ∨
    (¬ Acceptable (earlier ++ [entry]) ∧
      ∃ error,
        position.apply entry.sequence entry.trade = .error error ∧
          Offence position.key earlier entry error) := by
  rcases afterTrade_cases tracks acceptable fits fitsAfter with
      ⟨extended, balance, after, balanceTracks⟩ |
      ⟨notExtended, error, after, offence⟩
  · refine .inl ⟨extended,
      (position.settle balance).named entry.trade.tickerName,
      by simp only [apply, after], by simp, ?_⟩
    rw [named_balance]
    exact settle_tracks extended balanceTracks position
  · exact .inr ⟨notExtended, error, by simp only [apply, after], offence⟩

end Step

end Position

namespace Ledger

/-- `error` is the offence of the first entry that cannot follow the entries
before it. -/
def FirstOffence
    (key : GroupKey)
    (entries : List Entry)
    (error : LedgerError) :
    Prop :=
  ∃ earlier entry later,
    entries = earlier ++ entry :: later ∧
      Acceptable earlier ∧
      Offence key earlier entry error

/-- A whole history: it is tracked if it is acceptable, and otherwise it is
refused for its first offence. -/
theorem replay_cases
    {quantityScale priceScale : Nat}
    {earlier rest : List Entry}
    {position : Position}
    (tracks :
      position.balance.Tracks quantityScale priceScale earlier)
    (acceptable : Acceptable earlier)
    (fits :
      ∀ first, first <+: earlier ++ rest →
        FitsAt quantityScale priceScale first) :
    (Acceptable (earlier ++ rest) ∧
      ∃ final,
        replay position rest = .ok final ∧
          final.key = position.key ∧
          final.balance.Tracks quantityScale priceScale
            (earlier ++ rest)) ∨
    (¬ Acceptable (earlier ++ rest) ∧
      ∃ error,
        replay position rest = .error error ∧
          FirstOffence position.key (earlier ++ rest) error) := by
  -- the history grows at its end while the entries still to come shrink
  induction rest generalizing earlier position with
  | nil =>
      rw [List.append_nil]
      exact .inl ⟨acceptable, position, rfl, rfl, tracks⟩
  | cons entry rest inductionHypothesis =>
      have regroup :
          earlier ++ entry :: rest = (earlier ++ [entry]) ++ rest := by
        simp
      have begins : earlier ++ [entry] <+: earlier ++ entry :: rest := by
        rw [regroup]
        exact List.prefix_append _ _
      rw [replay_cons]
      rcases Position.apply_cases tracks acceptable
          (fits _ (List.prefix_append _ _)) (fits _ begins) with
          ⟨extended, next, applied, nextKey, nextTracks⟩ |
          ⟨notExtended, error, refused, offence⟩
      · rw [applied, ← nextKey, regroup]
        rw [regroup] at fits
        exact inductionHypothesis nextTracks extended fits
      · refine .inr ⟨fun whole => notExtended (whole.of_prefix begins),
          error, ?_, earlier, entry, rest, rfl, acceptable, offence⟩
        rw [refused]
        rfl

/-- The history of a group from its beginning. -/
theorem replay_empty_cases
    (key : GroupKey)
    {entries : List Entry}
    (fits : FitsExactly abs entries) :
    (Acceptable entries ∧
      ∃ final,
        replay (.empty key) entries = .ok final ∧
          final.key = key ∧
          final.balance.Tracks (quantityPlaces entries)
            (pricePlaces entries) entries) ∨
    (¬ Acceptable entries ∧
      ∃ error,
        replay (.empty key) entries = .error error ∧
          FirstOffence key entries error) :=
  @replay_cases _ _ [] entries _ (Position.empty_tracks key)
    acceptable_nil fun _ begins => fits.fitsAt_of_prefix begins

end Ledger

end NetWorth
