import NetWorth.Asset
import NetWorth.Decimal.Basic
import NetWorth.Time.Instant
/-!
# Quotes

A quote is a price at one time; a cached quote is a quote with the time at which it expires.
-/

namespace NetWorth

/-- The price of one symbol at one time, with the name of the provider that gave it. -/
structure Quote where
  assetClass : AssetClass
  symbol : String
  name : String
  price : Decimal
  currency : String
  observedAt : Instant
  source : String
deriving DecidableEq

/-- A quote that is kept until it expires. -/
structure CachedQuote where
  quote : Quote
  expiresAt : Instant
deriving DecidableEq

/-- A cached quote is served only before it expires. -/
def CachedQuote.IsFresh (entry : CachedQuote) (now : Instant) : Prop :=
  now < entry.expiresAt

instance (entry : CachedQuote) (now : Instant) : Decidable (entry.IsFresh now) :=
  inferInstanceAs (Decidable (now < entry.expiresAt))

end NetWorth
