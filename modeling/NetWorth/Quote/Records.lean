import NetWorth.Json.Field
import NetWorth.Quote.Basic
/-!
# Quote records

Quotes and cached quotes as JSON.  A cached quote has the fields of its quote and one more.
-/

namespace NetWorth

namespace Quote

/-- The fields of a quote in order. -/
def fieldNames : List String :=
  ["asset_class", "symbol", "name", "price", "currency", "observed_at", "source"]

/-- The members of a quote. -/
def members (q : Quote) : List (String × Json) :=
  [("asset_class", .ofAssetClass q.assetClass), ("symbol", .str q.symbol), ("name", .str q.name),
    ("price", .ofDecimal q.price), ("currency", .str q.currency),
    ("observed_at", .ofInstant q.observedAt), ("source", .str q.source)]

def toJson (q : Quote) : Json :=
  .obj q.members

/-- Reads a quote from the fields of a record. -/
def ofRecord? (r : Json.Record) : Option Quote := do
  return {
    assetClass := ← r.required "asset_class" Json.assetClass?
    symbol := ← r.required "symbol" Json.text?
    name := ← r.required "name" Json.text?
    price := ← r.required "price" Json.decimal?
    currency := ← r.required "currency" Json.text?
    observedAt := ← r.required "observed_at" Json.instant?
    source := ← r.required "source" Json.text? }

def ofJson? (j : Json) : Option Quote := do
  ofRecord? (← Json.Record.ofJson? fieldNames j)

end Quote

namespace CachedQuote

/-- The fields of a cached quote in order. -/
def fieldNames : List String := Quote.fieldNames ++ ["expires_at"]

def toJson (entry : CachedQuote) : Json :=
  .obj (entry.quote.members ++ [("expires_at", .ofInstant entry.expiresAt)])

def ofJson? (j : Json) : Option CachedQuote := do
  let r ← Json.Record.ofJson? fieldNames j
  return {
    quote := ← Quote.ofRecord? r
    expiresAt := ← r.required "expires_at" Json.instant? }

end CachedQuote

end NetWorth
