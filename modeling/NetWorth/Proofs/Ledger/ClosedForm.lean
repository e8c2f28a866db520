import Mathlib
import NetWorth.Proofs.Ledger.ExactReplay
import NetWorth.Proofs.Ledger.Steps

/-!
# The positions of an accepted ledger

An accepted ledger whose groups fit the range of decimals has a position for
each group that has bought more than it has sold.  The lots of the position
follow from the purchases and from the quantity sold alone.
-/

namespace NetWorth

/-- A position accepts sound trades only. -/
theorem Position.sound_of_apply
    {position next : Position}
    {sequence : Nat}
    {trade : Trade}
    (applied : position.apply sequence trade = .ok next) :
    trade.Sound := by
  obtain ⟨balance, after, -⟩ := apply_eq_ok.mp applied
  exact (afterTrade_eq_ok.mp after).1

namespace Ledger

/-- A history that can be replayed holds sound trades only. -/
theorem sound_of_replay
    {start final : Position}
    {entries : List Entry}
    (replays : replay start entries = .ok final) :
    ∀ entry ∈ entries, entry.trade.Sound := by
  induction entries generalizing start with
  | nil =>
      simp
  | cons entry rest inductionHypothesis =>
      obtain ⟨next, applied, restReplays⟩ := replay_cons_eq_ok.mp replays
      intro other member
      rcases List.mem_cons.mp member with isHead | inRest
      · rw [isHead]
        exact Position.sound_of_apply applied
      · exact inductionHypothesis restReplays other inRest

/-- Sound trades count the same by their magnitude. -/
theorem FitsExactly.of_sound
    {entries : List Entry}
    (fits : FitsExactly id entries)
    (sound : ∀ entry ∈ entries, entry.trade.Sound) :
    FitsExactly abs entries where
  places_le := fits.places_le
  quantities_le := by
    convert fits.quantities_le using 3
    apply List.map_congr_left
    intro entry member
    exact abs_of_pos (sound entry member).quantity_pos
  costs_le := by
    convert fits.costs_le using 3
    apply List.map_congr_left
    intro entry purchased
    have entrySound := sound entry (List.mem_of_mem_filter purchased)
    exact abs_of_nonneg
      (mul_nonneg entrySound.quantity_pos.le entrySound.price_nonneg)

theorem fitsExactly_nil
    (measure : ℚ → ℚ) :
    FitsExactly measure [] where
  places_le := Nat.zero_le _
  quantities_le := by simp
  costs_le := by simp [purchases]

/-- All groups of a ledger fit if those of its keys do. -/
theorem fitsExactly_group
    {measure : ℚ → ℚ}
    {trades : List Trade}
    (fits : ∀ key ∈ keys trades, FitsExactly measure (group trades key))
    (key : GroupKey) :
    FitsExactly measure (group trades key) := by
  by_cases isKey : key ∈ keys trades
  · exact fits key isKey
  · rw [group_eq_nil isKey]
    exact fitsExactly_nil measure

/-- What a position holds when its purchases are sold first in, first out. -/
structure FirstInFirstOut
    (entries : List Entry)
    (position : Position) :
    Prop where
  lots :
    position.lots.map Lot.share =
      Share.remainder (sold entries) (shares entries)
  quantity_eq :
    position.quantity.value = bought entries - sold entries
  quantity_eq_sum :
    position.quantity.value =
      (position.lots.map (·.quantity.value)).sum
  totalCost_eq_sum :
    position.totalCost.value =
      (position.lots.map fun lot =>
        lot.quantity.value * lot.unitCost.value).sum
  averageCost :
    position.totalCost.div? position.quantity =
      some position.averageCost

/-- An open position that tracks an acceptable history holds what first in,
first out leaves. -/
theorem firstInFirstOut_of_tracks
    {quantityScale priceScale : Nat}
    {entries : List Entry}
    {position : Position}
    (tracks : position.balance.Tracks quantityScale priceScale entries)
    (acceptable : Acceptable entries)
    (isPositive : position.quantity.IsPositive) :
    FirstInFirstOut entries position := by
  have lotsOpen : position.lots.map Lot.share = openShares entries :=
    tracks.lots
  have heldValue : position.quantity.value = bought entries - sold entries :=
    tracks.quantity.value_eq
  have costValue :
      position.totalCost.value = Share.cost (openShares entries) :=
    tracks.totalCost.value_eq
  refine ⟨?_, heldValue, ?_, ?_, tracks.averageCost isPositive⟩
  · rw [lotsOpen, openShares_eq_remainder acceptable.sound]
  · rw [heldValue, ← total_openShares acceptable, ← lotsOpen]
    simp [Share.total, Lot.share, Function.comp_def]
  · rw [costValue, ← lotsOpen]
    simp [Share.cost, Lot.share, Function.comp_def]

section Accepted

variable {trades : List Trade} {found : List Position}

/-- In an accepted ledger the history of each group is acceptable, and the
position of the group tracks it. -/
private theorem exists_tracking
    (accepted : positions trades = .ok found)
    (fits : ∀ key, FitsExactly id (group trades key))
    (key : GroupKey) :
    Acceptable (group trades key) ∧
      ∃ final,
        replayed trades key = .ok final ∧
          final.key = key ∧
          final.balance.Tracks (quantityPlaces (group trades key))
            (pricePlaces (group trades key)) (group trades key) := by
  obtain ⟨final, replays⟩ := exists_replayed accepted key
  have sound := sound_of_replay replays
  rcases replay_empty_cases key ((fits key).of_sound sound) with
      tracked | ⟨-, error, refused, -⟩
  · exact tracked
  · rw [replayed, refused] at replays
    cases replays

/--
The positions of an accepted ledger: there is one for exactly the keys whose
group has bought more than it has sold, and it holds what first in, first out
leaves of the purchases.
-/
theorem positions_firstInFirstOut
    (accepted : positions trades = .ok found)
    (fits : ∀ key, FitsExactly id (group trades key)) :
    (found.map (·.key)).Nodup ∧
      ∀ key,
        ((∃ position ∈ found, position.key = key) ↔
          sold (group trades key) < bought (group trades key)) ∧
        ∀ position ∈ found,
          position.key = key →
            FirstInFirstOut (group trades key) position := by
  refine ⟨nodup_positions_keys accepted, fun key => ?_⟩
  obtain ⟨acceptable, final, replays, finalKey, tracks⟩ :=
    exists_tracking accepted fits key
  have heldPositive :
      final.quantity.IsPositive ↔
        sold (group trades key) < bought (group trades key) := by
    have heldValue : final.quantity.value = _ := tracks.quantity.value_eq
    rw [Decimal.isPositive_iff, heldValue, sub_pos]
  have isFinal
      (position : Position)
      (member : position ∈ found)
      (positionKey : position.key = key) :
      position = final := by
    have positionReplays := ((mem_positions accepted).mp member).1
    rw [positionKey, replays, Except.ok.injEq] at positionReplays
    exact positionReplays.symm
  constructor
  · rw [← heldPositive]
    constructor
    · rintro ⟨position, member, positionKey⟩
      rw [← isFinal position member positionKey]
      exact ((mem_positions accepted).mp member).2
    · intro isPositive
      refine ⟨final, ?_, finalKey⟩
      rw [mem_positions accepted, finalKey]
      exact ⟨replays, isPositive⟩
  · intro position member positionKey
    have isPositive := ((mem_positions accepted).mp member).2
    rw [isFinal position member positionKey] at isPositive ⊢
    exact firstInFirstOut_of_tracks tracks acceptable isPositive

end Accepted

/-! ## A sale across lots -/

/-- The decimal with this magnitude and scale. -/
def sampleDecimal
    (magnitude scale : Nat) :
    Decimal :=
  (Decimal.ofParts? false magnitude scale).getD .zero

/-- An unnamed trade in dollars on a day. -/
def sampleTrade
    (side : TradeSide)
    (assetClass : AssetClass)
    (ticker : String)
    (quantity unitPrice : Decimal)
    (day : Int) :
    Trade :=
  Trade.ofOrigin ⟨"t", "u", "a", .epoch⟩ side assetClass ticker quantity
    unitPrice "usd" ((Date.ofDay? day).getD Instant.epoch.date)

/--
Purchases of 1.0 and of 0.5 shares on one day and the sale of 1.2 shares that
takes from both, listed out of order, among the two trades of a group that is
closed again.
-/
def spanningSale :
    List Trade :=
  [sampleTrade .buy .crypto "btc" .one .hundred 2,
    sampleTrade .sell .stock "AAPL" (sampleDecimal 12 1) .zero 3,
    sampleTrade .buy .stock " aapl" (sampleDecimal 10 1)
      (sampleDecimal 15 1) 1,
    sampleTrade .sell .crypto " BTC" .one .zero 4,
    sampleTrade .buy .stock "Aapl" (sampleDecimal 5 1)
      (sampleDecimal 7 0) 1]

/-- The 0.3 shares that are left, of the second purchase. -/
def leftOfSpanningSale :
    Position where
  key :=
    ⟨.stock, "AAPL", "USD"⟩
  tickerName :=
    ""
  lots :=
    [⟨sampleDecimal 3 1, sampleDecimal 7 0, 4⟩]
  quantity :=
    sampleDecimal 3 1
  totalCost :=
    sampleDecimal 210 2
  averageCost :=
    sampleDecimal 70 1

private theorem keys_spanningSale :
    keys spanningSale =
      [⟨.stock, "AAPL", "USD"⟩, ⟨.crypto, "BTC", "USD"⟩] := by
  cbv

private theorem group_spanningSale_stock :
    group spanningSale ⟨.stock, "AAPL", "USD"⟩ =
      [⟨2, spanningSale[2]⟩, ⟨4, spanningSale[4]⟩,
        ⟨1, spanningSale[1]⟩] := by
  cbv

private theorem group_spanningSale_crypto :
    group spanningSale ⟨.crypto, "BTC", "USD"⟩ =
      [⟨0, spanningSale[0]⟩, ⟨3, spanningSale[3]⟩] := by
  cbv

theorem positions_spanningSale :
    positions spanningSale = .ok [leftOfSpanningSale] := by
  have stock :
      replay (.empty ⟨.stock, "AAPL", "USD"⟩)
          [⟨2, spanningSale[2]⟩, ⟨4, spanningSale[4]⟩,
            ⟨1, spanningSale[1]⟩] =
        .ok leftOfSpanningSale := by
    decide +kernel
  have crypto :
      replay (.empty ⟨.crypto, "BTC", "USD"⟩)
          [⟨0, spanningSale[0]⟩, ⟨3, spanningSale[3]⟩] =
        .ok (.empty ⟨.crypto, "BTC", "USD"⟩) := by
    decide +kernel
  rw [positions, allPositions, keys_spanningSale]
  simp only [List.mapM_cons, group_spanningSale_stock,
    group_spanningSale_crypto, stock, crypto]
  rfl

private theorem spanningSale_fits
    (key : GroupKey) :
    FitsExactly id (group spanningSale key) := by
  apply fitsExactly_group
  intro listed isKey
  rw [keys_spanningSale, List.mem_pair] at isKey
  rcases isKey with rfl | rfl
  · rw [group_spanningSale_stock]
    exact ⟨by decide, by decide +kernel, by decide +kernel⟩
  · rw [group_spanningSale_crypto]
    exact ⟨by decide, by decide +kernel, by decide +kernel⟩

/-- Only the stock is still held: 0.3 shares of the purchase listed last. -/
theorem positions_firstInFirstOut_spanningSale :
    positions spanningSale = .ok [leftOfSpanningSale] ∧
      (∀ key, FitsExactly id (group spanningSale key)) ∧
      (∀ key,
        leftOfSpanningSale.key = key ↔
          sold (group spanningSale key) <
            bought (group spanningSale key)) ∧
      FirstInFirstOut (group spanningSale leftOfSpanningSale.key)
        leftOfSpanningSale := by
  obtain ⟨-, forms⟩ :=
    positions_firstInFirstOut positions_spanningSale spanningSale_fits
  refine ⟨positions_spanningSale, spanningSale_fits, fun key => ?_, ?_⟩
  · simpa using (forms key).1
  · exact (forms _).2 _ (by simp) rfl

end Ledger

end NetWorth
