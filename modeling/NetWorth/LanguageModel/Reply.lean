import NetWorth.Json.Reading
import NetWorth.Json.Record
import NetWorth.Quote.Source
import NetWorth.Table
/-!
# Replies of a language model

A model replies in prose that should be one JSON object.  It may be wrapped in a code fence, it may
report that there is no such symbol, and it may be wrong about the currency, which on a stock market
is fixed.
-/

namespace NetWorth.LanguageModel

/-- The name of the provider. -/
def provider : String := "gemini"

/-- The mark that opens and closes a code fence. -/
def fence : List Char := "```".toList

/-- The contents of a text that is a code fence as a whole, without the name of the language; any
other text as it is.  Blanks at both ends are removed. -/
def stripFence (text : String) : String :=
  let cs := Text.trimChars text.toList
  if fence.isPrefixOf cs ∧ fence.isSuffixOf cs ∧ 2 * fence.length ≤ cs.length then
    let inner := (cs.drop fence.length).take (cs.length - 2 * fence.length)
    String.ofList (Text.trimChars (inner.dropWhile Char.isAlpha))
  else String.ofList cs

/-- An object in which each name keeps its last value. -/
def lastValues : Json → Json
  | .obj members => .obj (Table.ofList members).entries
  | j => j

/-- The record that a model is asked for. -/
structure Ticker where
  price : Decimal
  symbol : Option String
  name : Option String
  currency : String

/-- Reads the record that a model is asked for. -/
def Ticker.ofJson? (j : Json) : Option Ticker := do
  let r ← Json.Record.ofJson? ["price", "symbol", "name", "currency"] (lastValues j)
  return {
    price := ← r.required "price" Json.decimal?
    symbol := ← r.optional "symbol" Json.text?
    name := ← r.optional "name" Json.text?
    currency := ← r.required "currency" Json.text? }

/-- The symbol that a ticker gives, or the one that was asked for. -/
def Ticker.symbolOr (ticker : Ticker) (asked : String) : String :=
  let symbol := normalCode (ticker.symbol.getD "")
  if symbol.isEmpty then asked else symbol

/-- What the prose of a reply means; `expected` is the currency of the market where there is one. -/
def answerText (assetClass : AssetClass) (symbol : String) (expected : Option String)
    (now : Instant) (text : String) : PriceAnswer :=
  match Json.parse? (stripFence text) with
  | none => .error (.unavailable provider "model reply is not JSON")
  | some j =>
    if (j.get? "error").isSome then .error (.invalidSymbol assetClass symbol)
    else
      match Ticker.ofJson? j with
      | none => .error (.unavailable provider "malformed model reply")
      | some ticker =>
        let currency := normalCode ticker.currency
        if ∃ c ∈ expected, currency ≠ c then .error (.invalidSymbol assetClass symbol)
        else if ¬ ticker.price.IsPositive then
          .error (.unavailable provider ("non-positive price " ++ ticker.price.toText))
        else
          let symbol := ticker.symbolOr symbol
          .ok { assetClass, symbol, name := ticker.name.getD symbol, price := ticker.price,
                currency, observedAt := now, source := provider }

/-- The text of one part of a candidate. -/
def partText? (j : Json) : Option (Option String) := do
  (← Json.Record.ofJson? ["text"] j).optional "text" Json.text?

/-- The text of the contents of a candidate. -/
def contentText? (j : Json) : Option String := do
  let r ← Json.Record.ofJson? ["parts"] j
  let parts ← r.withDefault "parts" [] (Json.list? partText?)
  return String.join parts.reduceOption

/-- The text of a candidate, which may have no contents. -/
def candidateText? (j : Json) : Option String := do
  let r ← Json.Record.ofJson? ["content"] j
  return (← r.optional "content" contentText?).getD ""

/-- The text of the first candidate of a reply. -/
def text? (j : Json) : Option String := do
  let r ← Json.Record.ofJson? ["candidates"] j
  let candidates ← r.withDefault "candidates" [] (Json.list? candidateText?)
  return candidates.head?.getD ""

end NetWorth.LanguageModel
