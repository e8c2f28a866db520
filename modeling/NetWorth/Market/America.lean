import NetWorth.Json.Record
import NetWorth.Web.Basic
import NetWorth.Web.Encoding
/-!
# The American market

Prices of stocks that are listed in America, in dollars.  The service wants a key, and answers an
unknown symbol with an empty list.
-/

namespace NetWorth.Market

/-- The stock service at an address, with the key for it if there is one. -/
structure AmericanFeed where
  address : String
  key : Option String

namespace AmericanFeed

/-- The name of the provider. -/
def provider : String := "fmp"

/-- The address of the public service. -/
def standardAddress : String := "https://financialmodelingprep.com"

/-- The request for the price of a symbol. -/
def request (feed : AmericanFeed) (key symbol : String) : Web.Request :=
  .get (Web.Encoding.withQuery (Web.Encoding.dropSlashes feed.address ++ "/stable/quote")
    [("symbol", symbol), ("apikey", key)]) []

/-- One line of the reply. -/
structure Listing where
  symbol : String
  name : Option String
  price : Decimal

/-- Reads one line of the reply. -/
def Listing.ofJson? (j : Json) : Option Listing := do
  let r ← Json.Record.ofJson? ["symbol", "name", "price"] j
  return {
    symbol := ← r.required "symbol" Json.text?
    name := ← r.withDefault "name" none (Json.Record.nullable Json.text?)
    price := ← r.required "price" Json.decimal? }

/-- What the reply to the request for a symbol means. -/
def answer (symbol : String) (now : Instant) (sent : Except String Web.Reply) : PriceAnswer := do
  match ← Web.read provider "quote" (fun _ => none) (Json.list? Listing.ofJson?) sent with
  | [] => .error (.invalidSymbol .stock symbol)
  | listing :: _ =>
    .ok { assetClass := .stock, symbol := listing.symbol, name := listing.name.getD listing.symbol,
          price := listing.price, currency := "USD", observedAt := now, source := provider }

/-- Asks for the price of a symbol in any spelling. -/
def quote {m : Type → Type} [Monad m] (feed : AmericanFeed) (web : Web.Connection m)
    (symbol : String) : m PriceAnswer := do
  let symbol := normalCode symbol
  if symbol.isEmpty then return .error (.invalidSymbol .stock symbol)
  else
    match feed.key with
    | none => return .error (.unavailable provider "no API key configured")
    | some key =>
      let sent ← web.send (feed.request key symbol)
      return answer symbol (← web.clock.now) sent

end AmericanFeed

end NetWorth.Market
