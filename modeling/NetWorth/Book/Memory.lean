import NetWorth.Book.Basic
import NetWorth.Table
/-!
# Books in memory

A book as a value.  A user is known by being added, by a profile, a trade or an account.
-/

namespace NetWorth

/-- Everything that a book keeps. -/
structure MemoryBook where
  /-- The known users, in ascending order. -/
  users : List String
  currencies : Table String String
  trades : Table String (List Trade)
  accounts : Table String (List Account)
  snapshots : Table (String × Date) Snapshot

namespace MemoryBook

def empty : MemoryBook := ⟨[], .empty, .empty, .empty, .empty⟩

/-- Puts a name into its place in an ascending list, once. -/
def insertUser (user : String) : List String → List String
  | [] => [user]
  | other :: rest =>
    if user < other then user :: other :: rest
    else if user = other then other :: rest
    else other :: insertUser user rest

def addUser (b : MemoryBook) (user : String) : MemoryBook :=
  { b with users := insertUser user b.users }

/-- Sets the display currency of a user. -/
def setDisplayCurrency (b : MemoryBook) (user currency : String) : MemoryBook :=
  { b.addUser user with currencies := b.currencies.insert user (normalCode currency) }

def tradesOf (b : MemoryBook) (user : String) : List Trade :=
  (b.trades.get? user).getD []

/-- Adds a trade after those of its user. -/
def appendTrade (b : MemoryBook) (trade : Trade) : MemoryBook :=
  { b.addUser trade.userId with
    trades := b.trades.insert trade.userId (b.tradesOf trade.userId ++ [trade]) }

def appendTrades (b : MemoryBook) (trades : List Trade) : MemoryBook :=
  trades.foldl appendTrade b

def accountsOf (b : MemoryBook) (user : String) : List Account :=
  (b.accounts.get? user).getD []

/-- Puts an account in place of the one with its identifier, or at the end. -/
def replaceAccount (account : Account) : List Account → List Account
  | [] => [account]
  | other :: rest =>
    if other.id = account.id then account :: rest else other :: replaceAccount account rest

def saveAccount (b : MemoryBook) (account : Account) : MemoryBook :=
  { b.addUser account.userId with
    accounts :=
      b.accounts.insert account.userId (replaceAccount account (b.accountsOf account.userId)) }

def putSnapshot (b : MemoryBook) (snapshot : Snapshot) : MemoryBook :=
  { b with snapshots := b.snapshots.insert (snapshot.userId, snapshot.date) snapshot }

/-- The order of the rows of snapshots: users in ascending order, and for each user one day after
the other. -/
def rowLe (x y : String × Date) : Bool :=
  x.1 < y.1 || (x.1 == y.1 && x.2 ≤ y.2)

/-- The rows of snapshots in their order. -/
def sortedRows (b : MemoryBook) : List ((String × Date) × Snapshot) :=
  b.snapshots.entries.mergeSort fun x y => rowLe x.1 y.1

/-- The rows of snapshots from one row to another. -/
def rowsWithin (b : MemoryBook) (first last : String × Date) : List ((String × Date) × Snapshot) :=
  (b.sortedRows.dropWhile fun row => !rowLe first row.1).takeWhile fun row => rowLe row.1 last

/-- The snapshots of a user from one day to another, the oldest first. -/
def snapshotsOf (b : MemoryBook) (user : String) (first last : Date) : List Snapshot :=
  if last < first then []
  else (b.rowsWithin (user, first) (user, last)).map (·.2)

/-- A book in memory never fails. -/
def book : Book (StateM MemoryBook) where
  trades user := return .ok ((← get).tradesOf user)
  accounts user := return .ok ((← get).accountsOf user)
  displayCurrency user := return .ok ((← get).currencies.get? user)
  users := return .ok (← get).users
  putSnapshot snapshot := do
    modify (·.putSnapshot snapshot)
    return .ok ()
  snapshots user first last := return .ok ((← get).snapshotsOf user first last)

end MemoryBook

end NetWorth
