import NetWorth.Holding.Basic
/-!
# Valuations

What a person owns in one currency: a total with the items it is made of and those left out, its
daily snapshots, and the summaries of accounts.
-/

namespace NetWorth

/-- An amount that is left out of a total because it could not be converted or added. -/
structure SkippedItem where
  label : String
  amount : Decimal
  currency : String
deriving DecidableEq

/-- A converted amount that takes part in a total. -/
inductive LineItem where
  | holding (key : String) (amount : Decimal) (currency : String) (converted : Decimal)
  | account (accountId name : String) (amount : Decimal) (currency : String) (converted : Decimal)
deriving DecidableEq

namespace LineItem

/-- The amount in the currency of the total. -/
def converted : LineItem → Decimal
  | holding _ _ _ converted => converted
  | account _ _ _ _ converted => converted

/-- The item as it is listed when it is left out. -/
def skipped : LineItem → SkippedItem
  | holding key amount currency _ => ⟨key, amount, currency⟩
  | account _ name amount currency _ => ⟨name, amount, currency⟩

end LineItem

/-- The total of one user at one time. -/
structure Valuation where
  userId : String
  currency : String
  totalValue : Decimal
  lineItems : List LineItem
  skipped : List SkippedItem
  asOf : Instant
deriving DecidableEq

/-- The total of one user on one day. -/
structure Snapshot where
  userId : String
  date : Date
  totalValue : Decimal
  currency : String
deriving DecidableEq

/-- The balance of an account in its own and in the display currency. -/
structure AccountSummary where
  accountId : String
  name : String
  currency : String
  balance : Decimal
  /-- Missing when there is no rate to the display currency. -/
  displayBalance : Option Decimal
deriving DecidableEq

end NetWorth
