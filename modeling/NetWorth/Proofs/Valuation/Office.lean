import Mathlib
import NetWorth.Proofs.Book.Memory
import NetWorth.Proofs.Holding.Lookups
import NetWorth.Proofs.Valuation.Calls

/-!
# Services on a book in memory

Services whose book and rates are kept in memory, in a world that they ask for
prices and for the time.  A book in memory never fails, so a user has a total
unless the ledger is refused.  While the prices stay as they are, the total
depends on the book alone.
-/

namespace NetWorth

/-- Services on a book in memory at stored rates. -/
structure Office
    (World : Type) where
  prices : PriceSource (StateM World)
  clock : Clock (StateM World)
  rateBook : RateBook
  defaultCurrency : String

namespace Office

variable {World : Type}

/-- What the services of an office change. -/
structure State
    (World : Type) where
  world : World
  book : MemoryBook

/-- A step in the world. -/
def onWorld
    {Result : Type}
    (step : StateM World Result) :
    StateM (State World) Result := do
  let state ← get
  let (result, world) := step.run state.world
  set { state with world }
  return result

/-- A step on the book. -/
def onBook
    {Result : Type}
    (step : StateM MemoryBook Result) :
    StateM (State World) Result := do
  let state ← get
  let (result, book) := step.run state.book
  set { state with book }
  return result

/-- The services of an office. -/
def services
    (office : Office World) :
    Services (StateM (State World)) where
  book :=
    { trades user := onBook (MemoryBook.book.trades user)
      accounts user := onBook (MemoryBook.book.accounts user)
      displayCurrency user := onBook (MemoryBook.book.displayCurrency user)
      users := onBook MemoryBook.book.users
      putSnapshot snapshot := onBook (MemoryBook.book.putSnapshot snapshot)
      snapshots user first last :=
        onBook (MemoryBook.book.snapshots user first last) }
  rates :=
    ⟨fun currency => return .ok (office.rateBook.ratesFor currency)⟩
  prices :=
    { name := office.prices.name
      price assetClass symbol :=
        onWorld (office.prices.price assetClass symbol) }
  clock :=
    ⟨onWorld office.clock.now⟩
  defaultCurrency :=
    office.defaultCurrency

/-! ## Steady prices -/

/-- The worlds that requests for prices and readings of the clock lead to. -/
inductive Reached
    (office : Office World)
    (start : World) :
    World → Prop where
  | start :
      Reached office start start
  | priced
      {world : World}
      (before : Reached office start world)
      (assetClass : AssetClass)
      (symbol : String) :
      Reached office start
        ((office.prices.price assetClass symbol).run world).2
  | timed
      {world : World}
      (before : Reached office start world) :
      Reached office start (office.clock.now.run world).2

/-- Prices that are the same in all worlds to come. -/
def Steady
    (office : Office World)
    (start : World)
    (answers : AssetClass → String → PriceAnswer) :
    Prop :=
  ∀ world,
    Reached office start world →
      ∀ assetClass symbol,
        ((office.prices.price assetClass symbol).run world).1 =
          answers assetClass symbol

/-! ## What users own -/

variable
  (office : Office World)
  (book : MemoryBook)
  (answers : AssetClass → String → PriceAnswer)
  (user : String)

/-- The currency that the totals of a user are in. -/
def currencyOf :
    String :=
  let code := normalCode ((book.currencies.get? user).getD "")
  if code.isEmpty then office.defaultCurrency else code

/-- The rates for that currency. -/
def ratesOf :
    RateTable :=
  office.rateBook.ratesFor (office.currencyOf book user)

/-- The holdings of a user, unless the ledger is refused. -/
def holdingsOf :
    Except ServiceError (List Holding) :=
  match Ledger.positions (book.tradesOf user) with
  | .error error => .error (.ledger error)
  | .ok found =>
      .ok (holdingTable (office.currencyOf book user)
        (office.ratesOf book user)
        (found.zip (found.map fun position =>
          answers position.key.assetClass position.key.ticker))).values

/-- The total of a user at a time, unless the ledger is refused. -/
def valuationOf
    (asOf : Instant) :
    Except ServiceError Valuation :=
  (office.holdingsOf book answers user).map fun holdings =>
    Valuation.fold user holdings (book.accountsOf user)
      (office.ratesOf book user) asOf

/-! ## Runs of the services -/

section Runs

variable {office answers} {start world : World}

theorem displayCurrency_outcome :
    Services.outcome (office.services.displayCurrency user) ⟨world, book⟩ =
      (.ok (office.currencyOf book user), ⟨world, book⟩) :=
  rfl

theorem ratesFor_outcome
    (currency : String) :
    Services.outcome (office.services.ratesFor currency) ⟨world, book⟩ =
      (.ok (office.rateBook.ratesFor currency), ⟨world, book⟩) :=
  rfl

theorem trades_outcome
    (activity : Activity) :
    Services.outcome
        (Services.during activity (office.services.book.trades user))
        ⟨world, book⟩ =
      (.ok (book.tradesOf user), ⟨world, book⟩) :=
  rfl

theorem accounts_outcome
    (activity : Activity) :
    Services.outcome
        (Services.during activity (office.services.book.accounts user))
        ⟨world, book⟩ =
      (.ok (book.accountsOf user), ⟨world, book⟩) :=
  rfl

/-- Steady prices answer look-ups alike, and leave the book. -/
theorem answers_run
    (steady : office.Steady start answers)
    (reached : Reached office start world)
    (positions : List Position) :
    ∃ after,
      Reached office start after ∧
        (office.services.prices.answers positions).run ⟨world, book⟩ =
          (positions.map fun position =>
              answers position.key.assetClass position.key.ticker,
            ⟨after, book⟩) := by
  induction positions generalizing world with
  | nil => exact ⟨world, reached, rfl⟩
  | cons position rest inductionHypothesis =>
      have answered :=
        steady world reached position.key.assetClass position.key.ticker
      obtain ⟨after, reachedAfter, restRun⟩ := inductionHypothesis
        (reached.priced position.key.assetClass position.key.ticker)
      refine ⟨after, reachedAfter, ?_⟩
      have asked :
          (office.services.prices.price position.key.assetClass
              position.key.ticker).run ⟨world, book⟩ =
            let asked :=
              (office.prices.price position.key.assetClass
                position.key.ticker).run world
            (asked.1, ⟨asked.2, book⟩) :=
        rfl
      rw [PriceSource.answers_cons_run, asked]
      dsimp only
      rw [restRun, answered, List.map_cons]

theorem holdings_outcome
    (steady : office.Steady start answers)
    (reached : Reached office start world) :
    ∃ after,
      Reached office start after ∧
        Services.outcome (office.services.holdings user) ⟨world, book⟩ =
          (office.holdingsOf book answers user, ⟨after, book⟩) := by
  rw [Services.holdings,
    Services.outcome_bind_ok (displayCurrency_outcome book user),
    Services.outcome_bind_ok (ratesFor_outcome book _),
    Services.outcome_bind_ok (trades_outcome book user _)]
  unfold holdingsOf
  cases replayed : Ledger.positions (book.tradesOf user) with
  | error error =>
      refine ⟨world, reached, ?_⟩
      rw [Services.outcome_lift_bind
        (aggregate_run_of_refused _ _ _ _ replayed)]
      rfl
  | ok found =>
      obtain ⟨after, reachedAfter, answered⟩ :=
        answers_run book steady reached found
      refine ⟨after, reachedAfter, ?_⟩
      rw [Services.outcome_lift_bind
        (aggregate_run_of_accepted _ _ _ _ replayed), answered]
      rfl

/-- A user is valued by what is in the book, at the time that is read. -/
theorem valuate_outcome
    (steady : office.Steady start answers)
    (reached : Reached office start world) :
    ∃ after asOf,
      Reached office start after ∧
        Services.outcome (office.services.valuate user) ⟨world, book⟩ =
          (office.valuationOf book answers user asOf, ⟨after, book⟩) := by
  obtain ⟨held, reachedHeld, holdingsRun⟩ :=
    holdings_outcome book user steady reached
  unfold valuationOf
  rw [Services.valuate,
    Services.outcome_bind_ok (displayCurrency_outcome book user)]
  cases found : office.holdingsOf book answers user with
  | error error =>
      rw [found] at holdingsRun
      exact ⟨held, .epoch, reachedHeld,
        Services.outcome_bind_error holdingsRun _⟩
  | ok holdings =>
      rw [found] at holdingsRun
      refine ⟨_, (office.clock.now.run held).1, reachedHeld.timed, ?_⟩
      rw [Services.outcome_bind_ok holdingsRun,
        Services.outcome_bind_ok (accounts_outcome book user _),
        Services.outcome_bind_ok (ratesFor_outcome book _)]
      rfl

end Runs

end Office

end NetWorth
