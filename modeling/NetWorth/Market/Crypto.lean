import NetWorth.Decimal.Reading
import NetWorth.Json.Record
import NetWorth.Text.Quoted
import NetWorth.Web.Basic
import NetWorth.Web.Encoding
/-!
# The crypto market

Prices of crypto assets in units of a coin that stands for the dollar.  A symbol is asked for as the
first half of a pair with that coin; a refused request means that there is no such pair.
-/

namespace NetWorth.Market

/-- The ticker of the crypto market at an address. -/
structure CryptoFeed where
  address : String

namespace CryptoFeed

/-- The name of the provider. -/
def provider : String := "binance"

/-- The coin that prices are counted in. -/
def coin : String := "USDT"

/-- The public ticker. -/
def standard : CryptoFeed := ⟨"https://data-api.binance.vision"⟩

/-- The request for the price of a symbol. -/
def request (feed : CryptoFeed) (symbol : String) : Web.Request :=
  .get (Web.Encoding.withQuery (Web.Encoding.dropSlashes feed.address ++ "/api/v3/ticker/price")
    [("symbol", symbol ++ coin)]) []

/-- The price in the ticker's record, as it is written. -/
def price? (j : Json) : Option String := do
  let r ← Json.Record.ofJson? ["symbol", "price"] j
  let _ ← r.required "symbol" Json.text?
  r.required "price" Json.text?

/-- The status that refuses a pair. -/
def refusal? (symbol : String) (status : Nat) : Option PriceError :=
  if status = 400 then some (.invalidSymbol .crypto symbol) else none

/-- What the ticker's reply to the request for a symbol means. -/
def answer (symbol : String) (now : Instant) (sent : Except String Web.Reply) : PriceAnswer := do
  let written ← Web.read provider "ticker" (refusal? symbol) price? sent
  match Decimal.ofChars? (Text.trimChars written.toList) with
  | none => .error (.unavailable provider ("invalid price " ++ Text.quoted written))
  | some price =>
    .ok { assetClass := .crypto, symbol, name := symbol, price, currency := coin, observedAt := now,
          source := provider }

/-- Asks for the price of a symbol in any spelling. -/
def quote {m : Type → Type} [Monad m] (feed : CryptoFeed) (web : Web.Connection m)
    (symbol : String) : m PriceAnswer := do
  let symbol := normalCode symbol
  if symbol.isEmpty then return .error (.invalidSymbol .crypto symbol)
  else
    let sent ← web.send (feed.request symbol)
    return answer symbol (← web.clock.now) sent

end CryptoFeed

end NetWorth.Market
