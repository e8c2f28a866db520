import NetWorth.Book.Basic
import NetWorth.Holding.Aggregate
import NetWorth.Rates.RateBook
import NetWorth.Valuation.Fold
/-!
# Valuing users

Holdings, accounts and totals of the users of a book, and the daily run that keeps a snapshot for
each of them.
-/

namespace NetWorth

/-- What a service was doing when a call failed. -/
inductive Activity where
  | loadProfile (user : String)
  | loadRates (currency : String)
  | loadTrades (user : String)
  | loadAccounts (user : String)
  | listUsers
  | storeSnapshot (user : String)
  | loadSnapshots (user : String)
deriving DecidableEq

/-- How a failed activity is reported. -/
def Activity.failure : Activity → String
  | loadProfile user => "Failed to load profile for user " ++ user
  | loadRates currency => "Failed to load exchange rates for " ++ currency
  | loadTrades user => "Failed to load trades for user " ++ user
  | loadAccounts user => "Failed to load accounts for user " ++ user
  | listUsers => "Failed to list users"
  | storeSnapshot user => "Failed to store daily value for user " ++ user
  | loadSnapshots user => "Failed to load daily values for user " ++ user

/-- Why a service has no answer. -/
inductive ServiceError where
  | ledger (error : LedgerError)
  | failed (activity : Activity) (cause : String)
deriving DecidableEq

/-- The message of a failed service. -/
def ServiceError.message : ServiceError → String
  | ledger error => error.message
  | failed activity cause => activity.failure ++ ": " ++ cause

/-- What the services work on. -/
structure Services (m : Type → Type) where
  book : Book m
  rates : RateSource m
  prices : PriceSource m
  clock : Clock m
  /-- The currency for users who have set none, in normal form. -/
  defaultCurrency : String

namespace Services

variable {m : Type → Type} [Monad m]

/-- Calls a book or a rate source on behalf of an activity. -/
def during (activity : Activity) (call : m (Except String α)) : ExceptT ServiceError m α := do
  match ← call with
  | .ok a => return a
  | .error cause => throw (.failed activity cause)

/-- The currency that a user wants totals in. -/
def displayCurrency (s : Services m) (user : String) : ExceptT ServiceError m String := do
  let currency ← during (.loadProfile user) (s.book.displayCurrency user)
  let code := normalCode (currency.getD "")
  return if code.isEmpty then s.defaultCurrency else code

/-- The rates for a currency. -/
def ratesFor (s : Services m) (currency : String) : ExceptT ServiceError m RateTable :=
  during (.loadRates currency) (s.rates.ratesFor currency)

/-- The holdings of a user. -/
def holdings (s : Services m) (user : String) : ExceptT ServiceError m (List Holding) := do
  let currency ← s.displayCurrency user
  let rates ← s.ratesFor currency
  let trades ← during (.loadTrades user) (s.book.trades user)
  match ← (aggregate s.prices trades currency rates : m _) with
  | .ok table => return table.values
  | .error e => throw (.ledger e)

/-- The summary of an account. -/
def summarize (rates : RateTable) (account : Account) : AccountSummary :=
  { accountId := account.id
    name := account.name
    currency := normalCode account.currency
    balance := account.balance
    displayBalance := (rates.toBase account.balance account.currency).toOption }

/-- The accounts of a user with their balances in the display currency. -/
def accountSummaries (s : Services m) (user : String) :
    ExceptT ServiceError m (List AccountSummary) := do
  let rates ← s.ratesFor (← s.displayCurrency user)
  let accounts ← during (.loadAccounts user) (s.book.accounts user)
  return accounts.map (summarize rates)

/-- The total of a user's holdings and accounts. -/
def valuate (s : Services m) (user : String) : ExceptT ServiceError m Valuation := do
  let currency ← s.displayCurrency user
  let holdings ← s.holdings user
  let accounts ← during (.loadAccounts user) (s.book.accounts user)
  let rates ← s.ratesFor currency
  return Valuation.fold user holdings accounts rates (← s.clock.now)

/-- Keeps a user's total as the snapshot of a day. -/
def recordUser (s : Services m) (date : Date) (user : String) : ExceptT ServiceError m Unit := do
  let valuation ← s.valuate user
  during (.storeSnapshot user)
    (s.book.putSnapshot ⟨user, date, valuation.totalValue, valuation.currency⟩)

/-- Records users in turn and counts those that succeed; one that fails does not stop the others. -/
def recordEach (s : Services m) (date : Date) : List String → m Nat
  | [] => return 0
  | user :: rest => do
    let recorded ← match ← (s.recordUser date user).run with
      | .ok () => pure 1
      | .error _ => pure 0
    return recorded + (← recordEach s date rest)

/-- Keeps a snapshot of every user for a day; answers how many there are. -/
def recordDay (s : Services m) (date : Date) : ExceptT ServiceError m Nat := do
  let users ← during .listUsers s.book.users
  s.recordEach date users

/-- Keeps the snapshots of the current day. -/
def recordToday (s : Services m) : ExceptT ServiceError m Nat := do
  let now ← (s.clock.now : m Instant)
  s.recordDay now.date

/-- The snapshots of a user from one day to another. -/
def snapshots (s : Services m) (user : String) (first last : Date) :
    ExceptT ServiceError m (List Snapshot) :=
  during (.loadSnapshots user) (s.book.snapshots user first last)

end Services

end NetWorth
