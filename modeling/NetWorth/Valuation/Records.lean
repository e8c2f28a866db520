import NetWorth.Json.Field
import NetWorth.Valuation.Basic
/-!
# Valuation records

Valuations, their items, snapshots and account summaries as JSON.
-/

namespace NetWorth

namespace SkippedItem

/-- The fields of a skipped item in order. -/
def fieldNames : List String := ["label", "amount", "currency"]

def toJson (s : SkippedItem) : Json :=
  .obj [("label", .str s.label), ("amount", .ofDecimal s.amount), ("currency", .str s.currency)]

def ofJson? (j : Json) : Option SkippedItem := do
  let r ← Json.Record.ofJson? fieldNames j
  return {
    label := ← r.required "label" Json.text?
    amount := ← r.required "amount" Json.decimal?
    currency := ← r.required "currency" Json.text? }

end SkippedItem

namespace LineItem

/-- The fields of a holding's line in order. -/
def holdingFields : List String := ["key", "amount", "currency", "converted"]

/-- The fields of an account's line in order. -/
def accountFields : List String := ["account_id", "name", "amount", "currency", "converted"]

def toJson : LineItem → Json
  | holding key amount currency converted =>
    .obj [("kind", .str "holding"), ("key", .str key), ("amount", .ofDecimal amount),
      ("currency", .str currency), ("converted", .ofDecimal converted)]
  | account accountId name amount currency converted =>
    .obj [("kind", .str "account"), ("account_id", .str accountId), ("name", .str name),
      ("amount", .ofDecimal amount), ("currency", .str currency),
      ("converted", .ofDecimal converted)]

/-- Splits an item into its kind, which is given once or stands first, and its other fields. -/
def splitKind? : Json → Option (String × Json)
  | .obj members =>
    match members.filter (·.1 == "kind") with
    | [(_, .str kind)] => some (kind, .obj (members.filter (·.1 != "kind")))
    | _ => none
  | .arr (.str kind :: rest) => some (kind, .arr rest)
  | _ => none

/-- Reads an item by its kind.  Every part of it counts, because its kind may be written last. -/
def ofJson? : Json → Option LineItem := Json.whole? Json.maxDepth fun j => do
  let (kind, fields) ← splitKind? j
  if kind = "holding" then
    let r ← Json.Record.ofJson? holdingFields fields
    return .holding (← r.required "key" Json.text?) (← r.required "amount" Json.decimal?)
      (← r.required "currency" Json.text?) (← r.required "converted" Json.decimal?)
  else if kind = "account" then
    let r ← Json.Record.ofJson? accountFields fields
    return .account (← r.required "account_id" Json.text?) (← r.required "name" Json.text?)
      (← r.required "amount" Json.decimal?) (← r.required "currency" Json.text?)
      (← r.required "converted" Json.decimal?)
  else none

end LineItem

namespace Valuation

/-- The fields of a valuation in order. -/
def fieldNames : List String :=
  ["user_id", "currency", "total_value", "line_items", "skipped", "as_of"]

def toJson (v : Valuation) : Json :=
  .obj ([("user_id", .str v.userId), ("currency", .str v.currency),
    ("total_value", .ofDecimal v.totalValue), ("line_items", .arr (v.lineItems.map (·.toJson)))] ++
    (if v.skipped.isEmpty then [] else [("skipped", .arr (v.skipped.map (·.toJson)))]) ++
    [("as_of", .ofInstant v.asOf)])

def ofJson? (j : Json) : Option Valuation := do
  let r ← Json.Record.ofJson? fieldNames j
  return {
    userId := ← r.required "user_id" Json.text?
    currency := ← r.required "currency" Json.text?
    totalValue := ← r.required "total_value" Json.decimal?
    lineItems := ← r.required "line_items"
      (Json.whole? (Json.maxDepth - 1) (Json.list? LineItem.ofJson?))
    skipped := ← r.withDefault "skipped" [] (Json.list? SkippedItem.ofJson?)
    asOf := ← r.required "as_of" Json.instant? }

end Valuation

namespace Snapshot

/-- The fields of a snapshot in order. -/
def fieldNames : List String := ["user_id", "date", "total_value", "currency"]

def toJson (s : Snapshot) : Json :=
  .obj [("user_id", .str s.userId), ("date", .ofDate s.date),
    ("total_value", .ofDecimal s.totalValue), ("currency", .str s.currency)]

def ofJson? (j : Json) : Option Snapshot := do
  let r ← Json.Record.ofJson? fieldNames j
  return {
    userId := ← r.required "user_id" Json.text?
    date := ← r.required "date" Json.date?
    totalValue := ← r.required "total_value" Json.decimal?
    currency := ← r.required "currency" Json.text? }

end Snapshot

namespace AccountSummary

/-- The fields of an account summary in order. -/
def fieldNames : List String :=
  ["account_id", "name", "currency", "balance", "balance_in_display_currency"]

def toJson (s : AccountSummary) : Json :=
  .obj ([("account_id", .str s.accountId), ("name", .str s.name), ("currency", .str s.currency),
    ("balance", .ofDecimal s.balance)] ++
    Json.memberIfSome "balance_in_display_currency" .ofDecimal s.displayBalance)

def ofJson? (j : Json) : Option AccountSummary := do
  let r ← Json.Record.ofJson? fieldNames j
  return {
    accountId := ← r.required "account_id" Json.text?
    name := ← r.required "name" Json.text?
    currency := ← r.required "currency" Json.text?
    balance := ← r.required "balance" Json.decimal?
    displayBalance := ← r.optional "balance_in_display_currency" Json.decimal? }

end AccountSummary

end NetWorth
