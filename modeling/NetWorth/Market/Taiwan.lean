import NetWorth.Decimal.Reading
import NetWorth.Json.Record
import NetWorth.Web.Basic
import NetWorth.Web.Encoding
/-!
# The Taiwan market

Prices of stocks that are listed in Taiwan, in its dollars.  The exchange is asked through a relay,
as a browser would.  An empty list, and a price that is not a positive number, mean that there is no
price for the symbol.
-/

namespace NetWorth.Market

/-- The relay at an address. -/
structure TaiwanFeed where
  address : String

namespace TaiwanFeed

/-- The name of the provider. -/
def provider : String := "twse"

/-- The public relay. -/
def standard : TaiwanFeed := ⟨"https://api.allorigins.win"⟩

/-- The address of the exchange for a symbol, which differs from one millisecond to the next. -/
def exchangeAddress (symbol : String) (now : Instant) : String :=
  "https://mis.twse.com.tw/stock/api/getStockInfo.jsp?ex_ch=tse_" ++ symbol ++ ".tw&_=" ++
    toString now.totalMillis

/-- The name of a browser. -/
def browser : String :=
  "Mozilla/5.0 (Windows NT 10.0; Win64; x64) AppleWebKit/537.36 (KHTML, like Gecko) " ++
    "Chrome/124.0 Safari/537.36"

/-- The request for the price of a symbol. -/
def request (feed : TaiwanFeed) (symbol : String) (now : Instant) : Web.Request :=
  .get (Web.Encoding.dropSlashes feed.address ++ "/raw?url=" ++
    Web.Encoding.percent (exchangeAddress symbol now)) [("User-Agent", browser)]

/-- One line of the reply: the name and the price as they are written. -/
structure Listing where
  name : Option String
  price : Option String

/-- Reads one line of the reply. -/
def Listing.ofJson? (j : Json) : Option Listing := do
  let r ← Json.Record.ofJson? ["c", "n", "z"] j
  let _ ← r.optional "c" Json.text?
  let name ← r.optional "n" Json.text?
  let price ← r.optional "z" Json.text?
  return { name, price }

/-- Reads the lines of the reply. -/
def listings? (j : Json) : Option (List Listing) := do
  let r ← Json.Record.ofJson? ["msgArray"] j
  r.withDefault "msgArray" [] (Json.list? Listing.ofJson?)

/-- The price of a line, if it is a positive number. -/
def Listing.positivePrice? (listing : Listing) : Option Decimal := do
  let written ← listing.price
  let price ← Decimal.ofChars? (Text.trimChars written.toList)
  if price.IsPositive then some price else none

/-- What the reply to the request for a symbol means. -/
def answer (symbol : String) (now : Instant) (sent : Except String Web.Reply) : PriceAnswer := do
  let listings ← Web.read provider "stock info" (fun _ => none) listings? sent
  let priced := listings.head?.bind fun listing =>
    listing.positivePrice?.map fun price => (listing, price)
  match priced with
  | none => .error (.invalidSymbol .stock symbol)
  | some (listing, price) =>
    .ok { assetClass := .stock, symbol, name := listing.name.getD symbol, price := price.trimZeros,
          currency := "TWD", observedAt := now, source := provider }

/-- Asks for the price of a symbol in any spelling. -/
def quote {m : Type → Type} [Monad m] (feed : TaiwanFeed) (web : Web.Connection m)
    (symbol : String) : m PriceAnswer := do
  let symbol := normalCode symbol
  if symbol.isEmpty then return .error (.invalidSymbol .stock symbol)
  else
    let sent ← web.send (feed.request symbol (← web.clock.now))
    return answer symbol (← web.clock.now) sent

end TaiwanFeed

end NetWorth.Market
