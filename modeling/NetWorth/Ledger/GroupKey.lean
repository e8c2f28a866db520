import NetWorth.Ledger.Trade
/-!
# Group keys

The identity of a position.  One ticker held in two currencies makes two positions.
-/

namespace NetWorth

/-- What the trades of one position have in common. -/
structure GroupKey where
  assetClass : AssetClass
  ticker : String
  currency : String
deriving DecidableEq

namespace GroupKey

/-- The key with the normal forms of a ticker and a currency code. -/
def normal (assetClass : AssetClass) (ticker currency : String) : GroupKey :=
  ⟨assetClass, normalCode ticker, normalCode currency⟩

/-- The key of the position that a trade belongs to. -/
def ofTrade (trade : Trade) : GroupKey :=
  normal trade.assetClass trade.ticker trade.currency

/-- The written form. -/
def toText (key : GroupKey) : String :=
  key.assetClass.name ++ "_" ++ key.ticker ++ "_" ++ key.currency

/-- Keys come in order of class, ticker and currency; texts are compared by code points. -/
instance : Ord GroupKey where
  compare a b :=
    (compare a.assetClass.rank b.assetClass.rank).then
      ((compare a.ticker b.ticker).then (compare a.currency b.currency))

/-- Whether one key comes before another or is the same. -/
def le (a b : GroupKey) : Bool :=
  (compare a b).isLE

/-- The different keys of a list in ascending order. -/
def sortDistinct (keys : List GroupKey) : List GroupKey :=
  keys.eraseDups.mergeSort le

end GroupKey

end NetWorth
