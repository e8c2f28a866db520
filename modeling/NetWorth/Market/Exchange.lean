import NetWorth.Market.America
import NetWorth.Market.Crypto
import NetWorth.Market.Taiwan
/-!
# The markets together

One source over the three markets: the class of the asset and the form of the symbol decide which of
them is asked.
-/

namespace NetWorth.Market

/-- The feeds of the three markets. -/
structure Exchange where
  america : AmericanFeed
  taiwan : TaiwanFeed
  crypto : CryptoFeed

namespace Exchange

/-- The public services, with a key for the American one. -/
def standard (key : Option String) : Exchange :=
  ⟨⟨AmericanFeed.standardAddress, key⟩, .standard, .standard⟩

/-- The markets as a source. -/
def source {m : Type → Type} [Monad m] (exchange : Exchange) (web : Web.Connection m) :
    PriceSource m where
  name := "exchange"
  price assetClass symbol :=
    match assetClass with
    | .crypto => exchange.crypto.quote web symbol
    | .stock =>
      if isTaiwanListed symbol then exchange.taiwan.quote web symbol
      else exchange.america.quote web symbol

end Exchange

end NetWorth.Market
