import NetWorth.Quote.Basic
/-!
# Price sources

A source answers a request for the price of a symbol with a quote or with one of two errors.  An
invalid symbol is final; an unavailable provider may be made up for by another one.  Sources run in
any monad, so that the same chain can be run, traced or stepped through.
-/

namespace NetWorth

/-- Why there is no price. -/
inductive PriceError where
  /-- The symbol does not exist, whoever is asked. -/
  | invalidSymbol (assetClass : AssetClass) (symbol : String)
  /-- The provider could not answer this time. -/
  | unavailable (provider message : String)
deriving DecidableEq

/-- The message of a failed look-up. -/
def PriceError.message : PriceError → String
  | invalidSymbol assetClass symbol => "invalid symbol: " ++ assetClass.name ++ " " ++ symbol
  | unavailable provider message => "price provider " ++ provider ++ " unavailable: " ++ message

/-- The answer to a request. -/
abbrev PriceAnswer := Except PriceError Quote

/-- A named source of prices. -/
structure PriceSource (m : Type → Type) where
  name : String
  price : AssetClass → String → m PriceAnswer

/-- Reads the current time. -/
structure Clock (m : Type → Type) where
  now : m Instant

end NetWorth
