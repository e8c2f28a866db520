import NetWorth.Asset
import NetWorth.Decimal.Basic
import NetWorth.Time.Instant
/-!
# Trades and accounts

The rows of a ledger: one purchase or sale each, and the flat balances that are kept beside it.
-/

namespace NetWorth

/-- Whether a trade adds to a position or takes from it. -/
inductive TradeSide where
  | buy
  | sell
deriving DecidableEq

/-- The name of a side. -/
def TradeSide.name : TradeSide → String
  | buy => "buy"
  | sell => "sell"

/-- The side with exactly this name. -/
def TradeSide.ofName? (s : String) : Option TradeSide :=
  [buy, sell].find? (·.name == s)

/-- One purchase or sale. -/
structure Trade where
  id : String
  userId : String
  accountId : String
  side : TradeSide
  assetClass : AssetClass
  ticker : String
  tickerName : String
  quantity : Decimal
  unitPrice : Decimal
  currency : String
  date : Date
  createdAt : Instant
deriving DecidableEq

/-- What a trade gets where the ledger does not say it: identifiers and the time of entry. -/
structure Trade.Origin where
  id : String
  userId : String
  accountId : String
  createdAt : Instant

/-- A new trade without a name for its ticker. -/
def Trade.ofOrigin (origin : Trade.Origin) (side : TradeSide) (assetClass : AssetClass)
    (ticker : String) (quantity unitPrice : Decimal) (currency : String) (date : Date) : Trade :=
  { id := origin.id, userId := origin.userId, accountId := origin.accountId, side, assetClass,
    ticker, tickerName := "", quantity, unitPrice, currency, date, createdAt := origin.createdAt }

/-- A flat balance, which is not derived from trades. -/
structure Account where
  id : String
  userId : String
  name : String
  currency : String
  balance : Decimal
deriving DecidableEq

end NetWorth
