import Mathlib
import NetWorth.Proofs.Decimal.Exact
import NetWorth.Proofs.Ledger.FirstInFirstOut

/-!
# Histories of a group

What the entries of one group come to, as exact numbers: how much has been
bought and sold, which histories are acceptable, and when all of their sums
and products fit the range of decimals.  Nothing here refers to a replay.
-/

namespace NetWorth

/-- Something is traded, at a price that is not negative. -/
structure Trade.Sound
    (trade : Trade) :
    Prop where
  quantity_pos : 0 < trade.quantity.value
  price_nonneg : 0 ≤ trade.unitPrice.value

namespace Ledger

/-- The purchases of a history, in order. -/
def purchases
    (entries : List Entry) :
    List Entry :=
  entries.filter fun entry => entry.trade.side = .buy

/-- The sales of a history, in order. -/
def sales
    (entries : List Entry) :
    List Entry :=
  entries.filter fun entry => entry.trade.side = .sell

/-- The quantity of all purchases. -/
def bought
    (entries : List Entry) :
    ℚ :=
  ((purchases entries).map (·.trade.quantity.value)).sum

/-- The quantity of all sales. -/
def sold
    (entries : List Entry) :
    ℚ :=
  ((sales entries).map (·.trade.quantity.value)).sum

/-- What the purchases bring in. -/
def shares
    (entries : List Entry) :
    List Share :=
  (purchases entries).map Entry.share

/-- What is left of the purchases once the sales have taken from the front. -/
def openShares
    (entries : List Entry) :
    List Share :=
  Share.consume (sold entries) (shares entries)

/-- At no point has more been sold than bought. -/
def Solvent
    (entries : List Entry) :
    Prop :=
  ∀ earlier, earlier <+: entries → sold earlier ≤ bought earlier

/-- Sound trades that never sell what has not been bought. -/
structure Acceptable
    (entries : List Entry) :
    Prop where
  sound : ∀ entry ∈ entries, entry.trade.Sound
  solvent : Solvent entries

/-- The largest scale among decimals. -/
def largestScale
    (decimals : List Decimal) :
    Nat :=
  (decimals.map (·.scale)).foldr max 0

/-- The largest scale of the quantities. -/
def quantityPlaces
    (entries : List Entry) :
    Nat :=
  largestScale (entries.map (·.trade.quantity))

/-- The largest scale of the prices. -/
def pricePlaces
    (entries : List Entry) :
    Nat :=
  largestScale (entries.map (·.trade.unitPrice))

/--
The sums of all quantities and of all purchase costs fit 96 bits at the
largest scales.  `measure` says how a quantity or a cost counts: as it is, or
by its magnitude.
-/
structure FitsExactly
    (measure : ℚ → ℚ)
    (entries : List Entry) :
    Prop where
  places_le :
    quantityPlaces entries + pricePlaces entries ≤ Decimal.maxScale
  quantities_le :
    (entries.map fun entry => measure entry.trade.quantity.value).sum *
        10 ^ quantityPlaces entries ≤
      Decimal.maxCoefficient
  costs_le :
    ((purchases entries).map fun entry =>
        measure
          (entry.trade.quantity.value *
            entry.trade.unitPrice.value)).sum *
        10 ^ (quantityPlaces entries + pricePlaces entries) ≤
      Decimal.maxCoefficient

/-- A history whose sums fit 96 bits at scales that are fixed beforehand. -/
structure FitsAt
    (quantityScale priceScale : Nat)
    (entries : List Entry) :
    Prop where
  places_le : quantityScale + priceScale ≤ Decimal.maxScale
  quantity_scale_le :
    ∀ entry ∈ entries, entry.trade.quantity.scale ≤ quantityScale
  price_scale_le :
    ∀ entry ∈ entries, entry.trade.unitPrice.scale ≤ priceScale
  traded_inRange :
    Decimal.InRange (bought entries + sold entries) quantityScale
  cost_inRange :
    Decimal.InRange (Share.cost (shares entries))
      (quantityScale + priceScale)

/-- A history whose purchases fit 96 bits at scales that are fixed beforehand.
Of its sales, only the quantities count. -/
structure PurchasesFitAt
    (quantityScale priceScale : Nat)
    (entries : List Entry) :
    Prop where
  places_le : quantityScale + priceScale ≤ Decimal.maxScale
  quantity_scale_le :
    ∀ entry ∈ entries, entry.trade.quantity.scale ≤ quantityScale
  price_scale_le :
    ∀ entry ∈ purchases entries, entry.trade.unitPrice.scale ≤ priceScale
  bought_inRange :
    Decimal.InRange (bought entries) quantityScale
  cost_inRange :
    Decimal.InRange (Share.cost (shares entries))
      (quantityScale + priceScale)

theorem le_largestScale
    {decimals : List Decimal}
    {a : Decimal}
    (member : a ∈ decimals) :
    a.scale ≤ largestScale decimals := by
  induction decimals with
  | nil =>
      simp at member
  | cons head rest inductionHypothesis =>
      rcases List.mem_cons.mp member with isHead | inRest
      · subst head
        exact le_max_left _ _
      · exact (inductionHypothesis inRest).trans (le_max_right _ _)

theorem total_shares
    (entries : List Entry) :
    Share.total (shares entries) = bought entries := by
  simp [Share.total, shares, bought, Entry.share, Function.comp_def]

theorem cost_shares
    (entries : List Entry) :
    Share.cost (shares entries) =
      ((purchases entries).map fun entry =>
        entry.trade.quantity.value * entry.trade.unitPrice.value).sum := by
  simp [Share.cost, shares, Entry.share, Function.comp_def]

/-- The purchases of a history come before those of what follows it. -/
theorem shares_append
    (earlier later : List Entry) :
    shares (earlier ++ later) = shares earlier ++ shares later := by
  rw [shares, purchases, List.filter_append, List.map_append]
  rfl

theorem bought_append
    (earlier later : List Entry) :
    bought (earlier ++ later) = bought earlier + bought later := by
  rw [← total_shares, shares_append, Share.total_append, total_shares, total_shares]

/-! ## One more entry -/

section OneMore

variable (entries : List Entry) (entry : Entry)

theorem shares_append_buy
    (isBuy : entry.trade.side = .buy) :
    shares (entries ++ [entry]) = shares entries ++ [entry.share] := by
  simp [shares, purchases, isBuy]

theorem shares_append_sell
    (isSell : entry.trade.side = .sell) :
    shares (entries ++ [entry]) = shares entries := by
  simp [shares, purchases, isSell]

theorem bought_append_buy
    (isBuy : entry.trade.side = .buy) :
    bought (entries ++ [entry]) =
      bought entries + entry.trade.quantity.value := by
  simp [bought, purchases, isBuy]

theorem bought_append_sell
    (isSell : entry.trade.side = .sell) :
    bought (entries ++ [entry]) = bought entries := by
  simp [bought, purchases, isSell]

theorem sold_append_buy
    (isBuy : entry.trade.side = .buy) :
    sold (entries ++ [entry]) = sold entries := by
  simp [sold, sales, isBuy]

theorem sold_append_sell
    (isSell : entry.trade.side = .sell) :
    sold (entries ++ [entry]) =
      sold entries + entry.trade.quantity.value := by
  simp [sold, sales, isSell]

theorem held_append_buy
    (isBuy : entry.trade.side = .buy) :
    bought (entries ++ [entry]) - sold (entries ++ [entry]) =
      bought entries - sold entries + entry.trade.quantity.value := by
  rw [bought_append_buy _ _ isBuy, sold_append_buy _ _ isBuy]
  ring

theorem held_append_sell
    (isSell : entry.trade.side = .sell) :
    bought (entries ++ [entry]) - sold (entries ++ [entry]) =
      bought entries - sold entries - entry.trade.quantity.value := by
  rw [bought_append_sell _ _ isSell, sold_append_sell _ _ isSell]
  ring

end OneMore

/-- Purchases and sales together are all that is traded. -/
theorem bought_add_sold
    (entries : List Entry) :
    bought entries + sold entries =
      (entries.map (·.trade.quantity.value)).sum := by
  induction entries using List.reverseRecOn with
  | nil =>
      simp [bought, sold, purchases, sales]
  | append_singleton earlier entry inductionHypothesis =>
      rw [List.map_append, List.sum_append, ← inductionHypothesis]
      cases side : entry.trade.side with
      | buy =>
          rw [bought_append_buy _ _ side, sold_append_buy _ _ side]
          simp only [List.map_cons, List.map_nil, List.sum_singleton]
          ring
      | sell =>
          rw [bought_append_sell _ _ side, sold_append_sell _ _ side]
          simp only [List.map_cons, List.map_nil, List.sum_singleton]
          ring

/-! ## Acceptable histories -/

/-- A history is acceptable up to a further entry if it was so far and the
further entry fits. -/
theorem acceptable_append_singleton
    {earlier : List Entry}
    {entry : Entry} :
    Acceptable (earlier ++ [entry]) ↔
      Acceptable earlier ∧ entry.trade.Sound ∧
        sold (earlier ++ [entry]) ≤ bought (earlier ++ [entry]) := by
  constructor
  · rintro ⟨sound, solvent⟩
    exact ⟨⟨fun other member => sound other (by simp [member]),
        fun first begins =>
          solvent first (begins.trans (List.prefix_append _ _))⟩,
      sound entry (by simp), solvent _ List.prefix_rfl⟩
  · rintro ⟨⟨sound, solvent⟩, entrySound, covered⟩
    refine ⟨?_, ?_⟩
    · intro other member
      rcases List.mem_append.mp member with inEarlier | isLast
      · exact sound other inEarlier
      · rw [List.mem_singleton.mp isLast]
        exact entrySound
    · intro first begins
      rcases List.prefix_concat_iff.mp begins with isAll | inEarlier
      · rw [isAll]
        exact covered
      · exact solvent first inEarlier

/-- A sound purchase can follow any acceptable history. -/
theorem Acceptable.append_buy
    {earlier : List Entry}
    {entry : Entry}
    (acceptable : Acceptable earlier)
    (isBuy : entry.trade.side = .buy)
    (sound : entry.trade.Sound) :
    Acceptable (earlier ++ [entry]) := by
  refine acceptable_append_singleton.mpr ⟨acceptable, sound, ?_⟩
  rw [sold_append_buy _ _ isBuy, bought_append_buy _ _ isBuy]
  exact (acceptable.solvent _ List.prefix_rfl).trans
    (le_add_of_nonneg_right sound.quantity_pos.le)

/-- A sound sale can follow if it sells no more than is held. -/
theorem Acceptable.append_sell
    {earlier : List Entry}
    {entry : Entry}
    (acceptable : Acceptable earlier)
    (isSell : entry.trade.side = .sell)
    (sound : entry.trade.Sound)
    (enough :
      entry.trade.quantity.value ≤ bought earlier - sold earlier) :
    Acceptable (earlier ++ [entry]) := by
  refine acceptable_append_singleton.mpr ⟨acceptable, sound, ?_⟩
  rw [← sub_nonneg, held_append_sell _ _ isSell]
  exact sub_nonneg.mpr enough

theorem acceptable_nil :
    Acceptable [] where
  sound := by simp
  solvent := by
    intro earlier begins
    rw [List.prefix_nil.mp begins]
    exact le_rfl

/-- The beginning of an acceptable history is acceptable. -/
theorem Acceptable.of_prefix
    {earlier entries : List Entry}
    (acceptable : Acceptable entries)
    (begins : earlier <+: entries) :
    Acceptable earlier where
  sound entry member := acceptable.sound entry (begins.subset member)
  solvent first firstBegins :=
    acceptable.solvent first (firstBegins.trans begins)

theorem Acceptable.covered
    {entries : List Entry}
    (acceptable : Acceptable entries) :
    sold entries ≤ bought entries :=
  acceptable.solvent _ List.prefix_rfl

section Sound

variable {entries : List Entry}

theorem positive_shares
    (sound : ∀ entry ∈ entries, entry.trade.Sound) :
    Share.Positive (shares entries) := by
  intro share member
  obtain ⟨entry, purchased, rfl⟩ := List.mem_map.mp member
  exact (sound entry (List.mem_of_mem_filter purchased)).quantity_pos

theorem unitCost_nonneg_shares
    (sound : ∀ entry ∈ entries, entry.trade.Sound) :
    ∀ share ∈ shares entries, 0 ≤ share.unitCost.value := by
  intro share member
  obtain ⟨entry, purchased, rfl⟩ := List.mem_map.mp member
  exact (sound entry (List.mem_of_mem_filter purchased)).price_nonneg

/-- What some of the trades come to is not negative. -/
private theorem sum_quantity_filter_nonneg
    (sound : ∀ entry ∈ entries, entry.trade.Sound)
    (counts : Entry → Bool) :
    0 ≤ ((entries.filter counts).map (·.trade.quantity.value)).sum := by
  apply List.sum_nonneg
  intro quantity member
  obtain ⟨entry, counted, rfl⟩ := List.mem_map.mp member
  exact (sound entry (List.mem_of_mem_filter counted)).quantity_pos.le

theorem bought_nonneg
    (sound : ∀ entry ∈ entries, entry.trade.Sound) :
    0 ≤ bought entries :=
  sum_quantity_filter_nonneg sound _

theorem sold_nonneg
    (sound : ∀ entry ∈ entries, entry.trade.Sound) :
    0 ≤ sold entries :=
  sum_quantity_filter_nonneg sound _

theorem openShares_eq_remainder
    (sound : ∀ entry ∈ entries, entry.trade.Sound) :
    openShares entries =
      Share.remainder (sold entries) (shares entries) :=
  Share.consume_eq_remainder (positive_shares sound) (sold_nonneg sound)

theorem cost_openShares_nonneg
    (sound : ∀ entry ∈ entries, entry.trade.Sound) :
    0 ≤ Share.cost (openShares entries) :=
  ((positive_shares sound).consume _).cost_nonneg
    (Share.unitCost_consume (0 ≤ ·.value) (unitCost_nonneg_shares sound) _)

theorem cost_openShares_le
    (sound : ∀ entry ∈ entries, entry.trade.Sound) :
    Share.cost (openShares entries) ≤ Share.cost (shares entries) :=
  Share.cost_consume_le (positive_shares sound)
    (unitCost_nonneg_shares sound) (sold_nonneg sound)

/-- The open shares hold what has been bought and not been sold. -/
theorem total_openShares
    (acceptable : Acceptable entries) :
    Share.total (openShares entries) = bought entries - sold entries := by
  rw [openShares, Share.total_consume (sold_nonneg acceptable.sound),
    total_shares]
  rw [total_shares]
  exact acceptable.covered

/-- A purchase opens one more share. -/
theorem openShares_append_buy
    (acceptable : Acceptable entries)
    {entry : Entry}
    (isBuy : entry.trade.side = .buy)
    (sound : entry.trade.Sound) :
    openShares (entries ++ [entry]) =
      openShares entries ++ [entry.share] := by
  rw [openShares, shares_append_buy _ _ isBuy, sold_append_buy _ _ isBuy]
  apply Share.consume_append sound.quantity_pos
    (sold_nonneg acceptable.sound)
  rw [total_shares]
  exact acceptable.covered

theorem cost_openShares_append_buy
    (acceptable : Acceptable entries)
    {entry : Entry}
    (isBuy : entry.trade.side = .buy)
    (sound : entry.trade.Sound) :
    Share.cost (openShares (entries ++ [entry])) =
      Share.cost (openShares entries) +
        entry.trade.quantity.value * entry.trade.unitPrice.value := by
  rw [openShares_append_buy acceptable isBuy sound, Share.cost_append,
    Share.cost_cons, Share.cost_nil, add_zero]
  rfl

/-- A sale takes from the open shares. -/
theorem openShares_append_sell
    {entry : Entry}
    (isSell : entry.trade.side = .sell)
    (sound : entry.trade.Sound) :
    openShares (entries ++ [entry]) =
      Share.consume entry.trade.quantity.value (openShares entries) := by
  rw [openShares, shares_append_sell _ _ isSell,
    sold_append_sell _ _ isSell, openShares]
  exact (Share.consume_consume sound.quantity_pos.le).symm

end Sound

/-! ## Ranges -/

/-- Magnitudes of a part of a list sum up to no more than those of the list. -/
private theorem sum_map_abs_le
    {part entries : List Entry}
    (sublist : part.Sublist entries)
    (amount : Entry → ℚ) :
    (part.map fun entry => |amount entry|).sum ≤
      (entries.map fun entry => |amount entry|).sum := by
  apply List.Sublist.sum_le_sum (sublist.map _)
  intro magnitude member
  obtain ⟨entry, -, rfl⟩ := List.mem_map.mp member
  exact abs_nonneg _

/-- A sum is no larger than the sum of the magnitudes. -/
private theorem abs_sum_map_le
    (entries : List Entry)
    (amount : Entry → ℚ) :
    |(entries.map amount).sum| ≤
      (entries.map fun entry => |amount entry|).sum := by
  induction entries with
  | nil =>
      simp
  | cons entry rest inductionHypothesis =>
      simp only [List.map_cons, List.sum_cons]
      exact (abs_add_le _ _).trans
        (add_le_add_right inductionHypothesis _)

/-- What fits with its sales fits without them. -/
theorem FitsAt.purchasesFitAt
    {quantityScale priceScale : Nat}
    {entries : List Entry}
    (fits : FitsAt quantityScale priceScale entries)
    (sound : ∀ entry ∈ entries, entry.trade.Sound) :
    PurchasesFitAt quantityScale priceScale entries where
  places_le := fits.places_le
  quantity_scale_le := fits.quantity_scale_le
  price_scale_le entry purchased :=
    fits.price_scale_le entry (List.mem_of_mem_filter purchased)
  bought_inRange :=
    fits.traded_inRange.of_nonneg_of_le (bought_nonneg sound)
      (le_add_of_nonneg_right (sold_nonneg sound))
  cost_inRange := fits.cost_inRange

namespace PurchasesFitAt

variable {quantityScale priceScale : Nat} {entries : List Entry}

theorem quantityScale_le
    (fits : PurchasesFitAt quantityScale priceScale entries) :
    quantityScale ≤ Decimal.maxScale :=
  (Nat.le_add_right _ _).trans fits.places_le

theorem quantity_represents
    (fits : PurchasesFitAt quantityScale priceScale entries)
    {entry : Entry}
    (member : entry ∈ entries) :
    entry.trade.quantity.Represents entry.trade.quantity.value
      quantityScale :=
  ⟨rfl, fits.quantity_scale_le entry member⟩

theorem price_represents
    (fits : PurchasesFitAt quantityScale priceScale entries)
    {entry : Entry}
    (purchased : entry ∈ purchases entries) :
    entry.trade.unitPrice.Represents entry.trade.unitPrice.value
      priceScale :=
  ⟨rfl, fits.price_scale_le entry purchased⟩

/-- What is held is part of what has been bought. -/
theorem held_inRange
    (fits : PurchasesFitAt quantityScale priceScale entries)
    (acceptable : Acceptable entries) :
    Decimal.InRange (bought entries - sold entries) quantityScale :=
  fits.bought_inRange.of_nonneg_of_le
    (sub_nonneg.mpr acceptable.covered)
    (sub_le_self _ (sold_nonneg acceptable.sound))

/-- What is held has cost no more than all purchases. -/
theorem openCost_inRange
    (fits : PurchasesFitAt quantityScale priceScale entries)
    (sound : ∀ entry ∈ entries, entry.trade.Sound) :
    Decimal.InRange (Share.cost (openShares entries))
      (quantityScale + priceScale) :=
  fits.cost_inRange.of_nonneg_of_le (cost_openShares_nonneg sound)
    (cost_openShares_le sound)

/-- The beginning of a history has bought no more than all of it. -/
theorem of_prefix
    (fits : PurchasesFitAt quantityScale priceScale entries)
    (sound : ∀ entry ∈ entries, entry.trade.Sound)
    {earlier : List Entry}
    (begins : earlier <+: entries) :
    PurchasesFitAt quantityScale priceScale earlier := by
  obtain ⟨later, rfl⟩ := begins
  obtain ⟨earlierSound, laterSound⟩ := List.forall_mem_append.mp sound
  refine ⟨fits.places_le, fun entry member => ?_, fun entry purchased => ?_, ?_, ?_⟩
  · exact fits.quantity_scale_le entry (List.mem_append_left _ member)
  · refine fits.price_scale_le entry ?_
    rw [purchases, List.filter_append]
    exact List.mem_append_left _ purchased
  · refine fits.bought_inRange.of_nonneg_of_le (bought_nonneg earlierSound) ?_
    rw [bought_append]
    exact le_add_of_nonneg_right (bought_nonneg laterSound)
  · have costsNonneg
        {part : List Entry}
        (partSound : ∀ entry ∈ part, entry.trade.Sound) :
        0 ≤ Share.cost (shares part) :=
      (positive_shares partSound).cost_nonneg (unitCost_nonneg_shares partSound)
    refine fits.cost_inRange.of_nonneg_of_le (costsNonneg earlierSound) ?_
    rw [shares_append, Share.cost_append]
    exact le_add_of_nonneg_right (costsNonneg laterSound)

end PurchasesFitAt

/-- Each beginning of a history that fits the range fits it too. -/
theorem FitsExactly.fitsAt_of_prefix
    {earlier entries : List Entry}
    (fits : FitsExactly abs entries)
    (begins : earlier <+: entries) :
    FitsAt (quantityPlaces entries) (pricePlaces entries) earlier where
  places_le := fits.places_le
  quantity_scale_le entry member :=
    le_largestScale
      (List.mem_map.mpr ⟨entry, begins.subset member, rfl⟩)
  price_scale_le entry member :=
    le_largestScale
      (List.mem_map.mpr ⟨entry, begins.subset member, rfl⟩)
  traded_inRange := by
    refine le_trans ?_ fits.quantities_le
    rw [bought_add_sold]
    exact mul_le_mul_of_nonneg_right
      ((abs_sum_map_le _ _).trans (sum_map_abs_le begins.sublist _))
      (by positivity)
  cost_inRange := by
    refine le_trans ?_ fits.costs_le
    rw [cost_shares]
    exact mul_le_mul_of_nonneg_right
      ((abs_sum_map_le _ _).trans
        (sum_map_abs_le (begins.sublist.filter _) _))
      (by positivity)

end Ledger

end NetWorth
