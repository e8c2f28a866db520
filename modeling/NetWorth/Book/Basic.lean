import NetWorth.Ledger.Trade
import NetWorth.Valuation.Basic
/-!
# Books

What is kept for users: their trades and accounts, the currency that they want totals in, and the
daily snapshots of their totals.
-/

namespace NetWorth

/-- The calls of a book; each may fail with a cause. -/
structure Book (m : Type → Type) where
  /-- The trades of a user, in the order in which they were added. -/
  trades : String → m (Except String (List Trade))
  accounts : String → m (Except String (List Account))
  /-- The display currency of a user, if one has been set. -/
  displayCurrency : String → m (Except String (Option String))
  users : m (Except String (List String))
  /-- Keeps a snapshot in place of the one of the same user and day. -/
  putSnapshot : Snapshot → m (Except String Unit)
  /-- The snapshots of a user from one day to another, both included, the oldest first. -/
  snapshots : String → Date → Date → m (Except String (List Snapshot))

end NetWorth
