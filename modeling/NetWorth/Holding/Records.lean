import NetWorth.Holding.Basic
import NetWorth.Json.Field
/-!
# Holding records

Holdings as JSON.
-/

namespace NetWorth.Holding

/-- The fields of a holding in order. -/
def fieldNames : List String :=
  ["ticker", "ticker_name", "asset_class", "currency", "quantity", "average_cost", "total_cost",
    "current_price", "total_value", "total_value_in_display_currency", "gain_loss",
    "gain_loss_percentage"]

def toJson (h : Holding) : Json :=
  .obj [("ticker", .str h.ticker), ("ticker_name", .str h.tickerName),
    ("asset_class", .ofAssetClass h.assetClass), ("currency", .str h.currency),
    ("quantity", .ofDecimal h.quantity), ("average_cost", .ofDecimal h.averageCost),
    ("total_cost", .ofDecimal h.totalCost), ("current_price", .ofDecimal h.currentPrice),
    ("total_value", .ofDecimal h.totalValue),
    ("total_value_in_display_currency", (h.displayValue.map .ofDecimal).getD .null),
    ("gain_loss", .ofDecimal h.gainLoss),
    ("gain_loss_percentage", .ofDecimal h.gainLossPercentage)]

def ofJson? (j : Json) : Option Holding := do
  let r ← Json.Record.ofJson? fieldNames j
  return {
    ticker := ← r.required "ticker" Json.text?
    tickerName := ← r.required "ticker_name" Json.text?
    assetClass := ← r.required "asset_class" Json.assetClass?
    currency := ← r.required "currency" Json.text?
    quantity := ← r.required "quantity" Json.decimal?
    averageCost := ← r.required "average_cost" Json.decimal?
    totalCost := ← r.required "total_cost" Json.decimal?
    currentPrice := ← r.required "current_price" Json.decimal?
    totalValue := ← r.required "total_value" Json.decimal?
    displayValue := ← r.optional "total_value_in_display_currency" Json.decimal?
    gainLoss := ← r.required "gain_loss" Json.decimal?
    gainLossPercentage := ← r.required "gain_loss_percentage" Json.decimal? }

end NetWorth.Holding
