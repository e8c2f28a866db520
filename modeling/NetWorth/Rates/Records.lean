import NetWorth.Json.Field
import NetWorth.Rates.RateBook
/-!
# Rate records

Rate tables and stored rates as JSON.
-/

namespace NetWorth

/-- Reads the rates of a table; a code that is written twice keeps the later rate. -/
def Json.rates? (j : Json) : Option (List (String × Decimal)) := do
  let entries ← (← j.members?).mapM fun (code, value) => do return (code, ← value.decimal?)
  return (Table.ofList entries).entries

namespace RateTable

/-- The fields of a rate table in order. -/
def fieldNames : List String := ["base", "rates", "updated_at"]

def toJson (t : RateTable) : Json :=
  .obj ([("base", .str t.base),
    ("rates", .obj (t.rates.entries.map fun (code, rate) => (code, .ofDecimal rate)))] ++
    Json.memberIfSome "updated_at" .ofInstant t.updatedAt)

def ofJson? (j : Json) : Option RateTable := do
  let r ← Json.Record.ofJson? fieldNames j
  let base ← r.required "base" Json.text?
  let rates ← r.withDefault "rates" [] Json.rates?
  let updatedAt ← r.withDefault "updated_at" none (Json.Record.nullable Json.instant?)
  return ofRates base rates updatedAt

end RateTable

namespace StoredRate

/-- The fields of a stored rate in order. -/
def fieldNames : List String := ["base", "target", "rate", "updated_at"]

def toJson (s : StoredRate) : Json :=
  .obj [("base", .str s.base), ("target", .str s.target), ("rate", .ofDecimal s.rate),
    ("updated_at", .ofInstant s.updatedAt)]

def ofJson? (j : Json) : Option StoredRate := do
  let r ← Json.Record.ofJson? fieldNames j
  return {
    base := ← r.required "base" Json.text?
    target := ← r.required "target" Json.text?
    rate := ← r.required "rate" Json.decimal?
    updatedAt := ← r.required "updated_at" Json.instant? }

end StoredRate

end NetWorth
