import Mathlib
import NetWorth.Holding.Records
import NetWorth.Proofs.Json.Codec

/-!
# Holdings read back

Holdings come back from JSON.  A value in the display currency that is missing
is written as `null`, and read as missing.
-/

namespace NetWorth.Holding

open Json.Record (ofJson?_bind required_bind optional_bind)

/-- The decimals of a holding. -/
def decimals
    (h : Holding) :
    List Decimal :=
  [h.quantity, h.averageCost, h.totalCost, h.currentPrice, h.totalValue,
    h.gainLoss, h.gainLossPercentage] ++ h.displayValue.toList

/-- The holding with the minus signs of its zeros left out. -/
def unsigned
    (h : Holding) :
    Holding :=
  { h with
    quantity := h.quantity.unsignedZero
    averageCost := h.averageCost.unsignedZero
    totalCost := h.totalCost.unsignedZero
    currentPrice := h.currentPrice.unsignedZero
    totalValue := h.totalValue.unsignedZero
    displayValue := h.displayValue.map Decimal.unsignedZero
    gainLoss := h.gainLoss.unsignedZero
    gainLossPercentage := h.gainLossPercentage.unsignedZero }

/-- Holdings as JSON. -/
def codec :
    Json.Codec Holding where
  encode :=
    toJson
  decode? :=
    ofJson?
  decimals :=
    decimals
  unsigned :=
    unsigned

private theorem ofJson?_toJson
    (h : Holding) :
    ofJson? h.toJson = some h.unsigned := by
  rw [ofJson?,
    ofJson?_bind fieldNames h.toJson rfl (.refl _) rfl,
    required_bind rfl (Json.text?_str _),
    required_bind rfl (Json.text?_str _),
    required_bind rfl (Json.assetClass?_ofAssetClass _),
    required_bind rfl (Json.text?_str _),
    required_bind rfl (Json.decimal?_ofDecimal _),
    required_bind rfl (Json.decimal?_ofDecimal _),
    required_bind rfl (Json.decimal?_ofDecimal _),
    required_bind rfl (Json.decimal?_ofDecimal _),
    required_bind rfl (Json.decimal?_ofDecimal _),
    optional_bind rfl (Json.Record.nullable_ofDecimal _),
    required_bind rfl (Json.decimal?_ofDecimal _),
    required_bind rfl (Json.decimal?_ofDecimal _)]
  rfl

/-- A holding comes back. -/
theorem faithful
    (h : Holding) :
    codec.Faithful h := by
  refine .of_wordy ?_ (ofJson?_toJson h) ?_
  · refine Json.wordy_of_plain ?_
    cases h.displayValue <;> rfl
  · obtain ⟨_, _, _, _, _, _, _, _, _, displayValue, _, _⟩ := h
    cases displayValue <;>
      simp [codec, unsigned, decimals, Decimal.unsignedZero_eq_self_iff,
        and_assoc, and_comm]

end NetWorth.Holding
