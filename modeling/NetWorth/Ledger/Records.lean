import NetWorth.Json.Field
import NetWorth.Ledger.GroupKey
/-!
# Ledger records

Trades, accounts and group keys as JSON.
-/

namespace NetWorth

/-- Reads the side of a trade from its name. -/
def Json.tradeSide? (j : Json) : Option TradeSide :=
  j.choice?.bind TradeSide.ofName?

namespace Trade

/-- The fields of a trade in order. -/
def fieldNames : List String :=
  ["id", "user_id", "account_id", "type", "asset_class", "ticker", "ticker_name", "quantity",
    "unit_price", "currency", "trade_date", "created_at"]

def toJson (t : Trade) : Json :=
  .obj [("id", .str t.id), ("user_id", .str t.userId), ("account_id", .str t.accountId),
    ("type", .str t.side.name), ("asset_class", .ofAssetClass t.assetClass),
    ("ticker", .str t.ticker), ("ticker_name", .str t.tickerName),
    ("quantity", .ofDecimal t.quantity), ("unit_price", .ofDecimal t.unitPrice),
    ("currency", .str t.currency), ("trade_date", .ofDate t.date),
    ("created_at", .ofInstant t.createdAt)]

/-- Reads a trade; `origin` supplies the identifiers and the time that are missing. -/
def ofJson? (origin : Origin) (j : Json) : Option Trade := do
  let r ← Json.Record.ofJson? fieldNames j
  return {
    id := ← r.withDefault "id" origin.id Json.text?
    userId := ← r.withDefault "user_id" origin.userId Json.text?
    accountId := ← r.withDefault "account_id" origin.accountId Json.text?
    side := ← r.required "type" Json.tradeSide?
    assetClass := ← r.required "asset_class" Json.assetClass?
    ticker := ← r.required "ticker" Json.text?
    tickerName := ← r.withDefault "ticker_name" "" Json.text?
    quantity := ← r.required "quantity" Json.decimal?
    unitPrice := ← r.required "unit_price" Json.decimal?
    currency := ← r.required "currency" Json.text?
    date := ← r.required "trade_date" Json.date?
    createdAt := ← r.withDefault "created_at" origin.createdAt Json.instant? }

end Trade

namespace Account

/-- The fields of an account in order. -/
def fieldNames : List String := ["id", "user_id", "name", "currency", "balance"]

def toJson (a : Account) : Json :=
  .obj [("id", .str a.id), ("user_id", .str a.userId), ("name", .str a.name),
    ("currency", .str a.currency), ("balance", .ofDecimal a.balance)]

def ofJson? (j : Json) : Option Account := do
  let r ← Json.Record.ofJson? fieldNames j
  return {
    id := ← r.required "id" Json.text?
    userId := ← r.required "user_id" Json.text?
    name := ← r.required "name" Json.text?
    currency := ← r.required "currency" Json.text?
    balance := ← r.required "balance" Json.decimal? }

end Account

namespace GroupKey

/-- The fields of a group key in order. -/
def fieldNames : List String := ["asset_class", "ticker", "currency"]

def toJson (key : GroupKey) : Json :=
  .obj [("asset_class", .ofAssetClass key.assetClass), ("ticker", .str key.ticker),
    ("currency", .str key.currency)]

def ofJson? (j : Json) : Option GroupKey := do
  let r ← Json.Record.ofJson? fieldNames j
  return {
    assetClass := ← r.required "asset_class" Json.assetClass?
    ticker := ← r.required "ticker" Json.text?
    currency := ← r.required "currency" Json.text? }

end GroupKey

end NetWorth
