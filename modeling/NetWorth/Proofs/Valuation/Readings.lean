import Mathlib
import NetWorth.Proofs.Book.Memory
import NetWorth.Proofs.Holding.Isolation
import NetWorth.Proofs.Valuation.Calls
import NetWorth.Proofs.Valuation.Turns

/-!
# Totals of records that others change

To value a user the records are read six times, and between two readings others
may change them.  The display currency and the rates are read twice each.  The
total is in the currency of the first reading and at the rates of the last one,
which are for that same currency.  The others are read for the values at which
holdings are shown, and of those the total takes no notice.
-/

namespace NetWorth

/-! ## Records and changes -/

/-- What is kept for all users, and the rates. -/
structure Records where
  book : MemoryBook
  rateBook : RateBook

namespace Records

/-- What somebody can do to records. -/
inductive Change where
  | ofBook (update : MemoryBook.Update)
  | upsertRate (base target : String) (rate : Decimal) (updatedAt : Instant)

/-- Makes a change. -/
def change
    (records : Records) :
    Change → Records
  | .ofBook update =>
      { records with book := records.book.update update }
  | .upsertRate base target rate updatedAt =>
      { records with
        rateBook := records.rateBook.upsert base target rate updatedAt }

/-- Makes changes one after the other. -/
def changeAll
    (records : Records)
    (changes : List Change) :
    Records :=
  changes.foldl change records

/-- A step on the book among the records. -/
def onBook
    {Result : Type}
    (step : StateM MemoryBook Result) :
    StateM Records Result := do
  let records ← get
  let (result, book) := step.run records.book
  set { records with book }
  return result

/-- A call that services make of the records. -/
inductive Call where
  | displayCurrency (user : String)
  | trades (user : String)
  | accounts (user : String)
  | users
  | putSnapshot (snapshot : Snapshot)
  | snapshots (user : String) (first last : Date)
  | ratesFor (currency : String)

end Records

/-! ## What a total takes notice of -/

/-- A holding without its value in the display currency. -/
def Holding.native
    (holding : Holding) :
    Holding :=
  { holding with displayValue := none }

@[simp] theorem Holding.key_native
    (holding : Holding) :
    holding.native.key = holding.key :=
  rfl

@[simp] theorem Holding.totalValue_native
    (holding : Holding) :
    holding.native.totalValue = holding.totalValue :=
  rfl

@[simp] theorem Holding.currency_native
    (holding : Holding) :
    holding.native.currency = holding.currency :=
  rfl

/-- A position is worth the same in its own currency, whatever it is shown
for. -/
theorem Position.native_valued
    (position : Position)
    (currency otherCurrency : String)
    (rates otherRates : RateTable)
    (answer : PriceAnswer) :
    (position.valued currency rates answer).native =
      (position.valued otherCurrency otherRates answer).native := by
  unfold Holding.native valued
  rfl

/-- A total takes no notice of the values at which holdings are shown. -/
theorem Valuation.fold_map_native
    (user : String)
    (holdings : List Holding)
    (accounts : List Account)
    (rates : RateTable)
    (asOf : Instant) :
    fold user (holdings.map Holding.native) accounts rates asOf =
      fold user holdings accounts rates asOf := by
  have sorted :
      sortHoldings (holdings.map Holding.native) =
        (sortHoldings holdings).map Holding.native :=
    (List.map_mergeSort (f := Holding.native) fun _ _ _ _ => rfl).symm
  have sameLine :
      holdingLine rates ∘ Holding.native = holdingLine rates := by
    funext holding
    simp only [Function.comp_apply, holdingLine, Holding.key_native,
      Holding.totalValue_native, Holding.currency_native]
  unfold fold
  rw [sorted, List.map_map, sameLine]

/-- The currency and the rates of holdings only matter for the values at which
they are shown. -/
theorem map_native_holdingTable
    {trades : List Trade}
    {found : List Position}
    {answers : List PriceAnswer}
    (accepted : Ledger.positions trades = .ok found)
    (answered : answers.length = found.length)
    (currency otherCurrency : String)
    (rates otherRates : RateTable) :
    (holdingTable currency rates (found.zip answers)).values.map
        Holding.native =
      (holdingTable otherCurrency otherRates (found.zip answers)).values.map
        Holding.native := by
  unfold Table.values
  rw [entries_holdingTable accepted answered,
    entries_holdingTable accepted answered,
    List.map_map, List.map_map, List.map_map, List.map_map]
  exact List.map_congr_left fun asked _ =>
    asked.1.native_valued _ _ _ _ asked.2

/-- The rates for a base are quoted against it. -/
theorem RateBook.base_ratesFor
    (rateBook : RateBook)
    (base : String) :
    (rateBook.ratesFor base).base = normalCode base := by
  suffices keepsBase :
      ∀ (stored : List StoredRate) (table : RateTable),
        (stored.foldl addStored table).base = table.base from
    keepsBase _ _
  intro stored
  induction stored with
  | nil => exact fun _ => rfl
  | cons first rest inductionHypothesis =>
      exact fun table => inductionHypothesis (addStored table first)

/--
Services on records that others change.  The changes with a number are made
after the calls before it and before the call with that number.  The default
currency may be given in any spelling.
-/
structure SharedOffice
    (World : Type) where
  prices : PriceSource (StateM World)
  clock : Clock (StateM World)
  defaultCurrency : String
  meanwhile : Nat → List Records.Change

namespace SharedOffice

variable {World : Type}

/-- What the services of an office work on, and the calls that they have made of
the records. -/
structure State
    (World : Type) where
  world : World
  records : Records
  calls : List Records.Call

/-- A step in the world. -/
def onWorld
    {Result : Type}
    (step : StateM World Result) :
    StateM (State World) Result := do
  let state ← get
  let (result, world) := step.run state.world
  set { state with world }
  return result

/-- A call of the records, as they have become by then. -/
def call
    {Result : Type}
    (office : SharedOffice World)
    (made : Records.Call)
    (step : StateM Records Result) :
    StateM (State World) Result := do
  let state ← get
  let (result, records) := step.run
    (state.records.changeAll (office.meanwhile state.calls.length))
  set { state with records, calls := state.calls ++ [made] }
  return result

/-- The services of an office. -/
def services
    (office : SharedOffice World) :
    Services (StateM (State World)) where
  book :=
    { trades user :=
        office.call (.trades user)
          (Records.onBook (MemoryBook.book.trades user))
      accounts user :=
        office.call (.accounts user)
          (Records.onBook (MemoryBook.book.accounts user))
      displayCurrency user :=
        office.call (.displayCurrency user)
          (Records.onBook (MemoryBook.book.displayCurrency user))
      users :=
        office.call .users (Records.onBook MemoryBook.book.users)
      putSnapshot snapshot :=
        office.call (.putSnapshot snapshot)
          (Records.onBook (MemoryBook.book.putSnapshot snapshot))
      snapshots user first last :=
        office.call (.snapshots user first last)
          (Records.onBook (MemoryBook.book.snapshots user first last)) }
  rates :=
    ⟨fun currency =>
      office.call (.ratesFor currency) do
        return .ok ((← get).rateBook.ratesFor currency)⟩
  prices :=
    { name := office.prices.name
      price assetClass symbol :=
        onWorld (office.prices.price assetClass symbol) }
  clock :=
    ⟨onWorld office.clock.now⟩
  defaultCurrency :=
    normalCode office.defaultCurrency

/-! ## What is read -/

variable (office : SharedOffice World)

/-- The currency that the totals of a user are in. -/
def currencyOf
    (book : MemoryBook)
    (user : String) :
    String :=
  let code := normalCode ((book.currencies.get? user).getD "")
  if code.isEmpty then normalCode office.defaultCurrency else code

/-- The currency of totals is in normal form. -/
@[simp] theorem normalCode_currencyOf
    (book : MemoryBook)
    (user : String) :
    normalCode (office.currencyOf book user) = office.currencyOf book user := by
  unfold currencyOf
  dsimp only
  split
  case isTrue => exact normalCode_normalCode _
  case isFalse => exact normalCode_normalCode _

variable (start : Records)

/-- The records that a reading meets, if all calls before it have been readings;
the first one has the number one. -/
def seen :
    Nat → Records
  | 0 => start
  | earlier + 1 => (seen earlier).changeAll (office.meanwhile earlier)

/-- The state after readings. -/
def after
    (world : World)
    (readings : List Records.Call) :
    State World where
  world :=
    world
  records :=
    office.seen start readings.length
  calls :=
    readings

variable
  (user : String)
  (world : World)
  (readings : List Records.Call)

theorem displayCurrency_outcome :
    Services.outcome (office.services.displayCurrency user)
        (office.after start world readings) =
      (.ok (office.currencyOf
          (office.seen start (readings.length + 1)).book user),
        office.after start world (readings ++ [.displayCurrency user])) := by
  simp only [after, List.length_append]
  rfl

theorem ratesFor_outcome
    (currency : String) :
    Services.outcome (office.services.ratesFor currency)
        (office.after start world readings) =
      (.ok ((office.seen start (readings.length + 1)).rateBook.ratesFor
          currency),
        office.after start world (readings ++ [.ratesFor currency])) := by
  simp only [after, List.length_append]
  rfl

theorem trades_outcome
    (activity : Activity) :
    Services.outcome
        (Services.during activity (office.services.book.trades user))
        (office.after start world readings) =
      (.ok ((office.seen start (readings.length + 1)).book.tradesOf user),
        office.after start world (readings ++ [.trades user])) := by
  simp only [after, List.length_append]
  rfl

theorem accounts_outcome
    (activity : Activity) :
    Services.outcome
        (Services.during activity (office.services.book.accounts user))
        (office.after start world readings) =
      (.ok ((office.seen start (readings.length + 1)).book.accountsOf user),
        office.after start world (readings ++ [.accounts user])) := by
  simp only [after, List.length_append]
  rfl

/-- Look-ups read no records. -/
theorem answers_run
    (positions : List Position) :
    (office.services.prices.answers positions).run
        (office.after start world readings) =
      let asked := (office.prices.answers positions).run world
      (asked.1, office.after start asked.2 readings) := by
  induction positions generalizing world with
  | nil => rfl
  | cons position rest inductionHypothesis =>
      have asked :
          (office.services.prices.price position.key.assetClass
              position.key.ticker).run (office.after start world readings) =
            let asked :=
              (office.prices.price position.key.assetClass
                position.key.ticker).run world
            (asked.1, office.after start asked.2 readings) :=
        rfl
      rw [PriceSource.answers_cons_run, asked, PriceSource.answers_cons_run]
      simp only [inductionHypothesis]

/-- The readings that the holdings of a user take, the second of them for a
currency. -/
def holdingReadings
    (currency : String) :
    List Records.Call :=
  [.displayCurrency user, .ratesFor currency, .trades user]

/-- A ledger that is refused ends the readings. -/
theorem holdings_outcome_of_refused
    {error : LedgerError}
    (refused :
      Ledger.positions
          ((office.seen start (readings.length + 3)).book.tradesOf user) =
        .error error) :
    Services.outcome (office.services.holdings user)
        (office.after start world readings) =
      (.error (.ledger error),
        office.after start world
          (readings ++ holdingReadings user
            (office.currencyOf
              (office.seen start (readings.length + 1)).book user))) := by
  rw [Services.holdings,
    Services.outcome_bind_ok (displayCurrency_outcome ..),
    Services.outcome_bind_ok (ratesFor_outcome ..),
    Services.outcome_bind_ok (trades_outcome ..)]
  simp only [List.length_append, List.length_singleton, List.append_assoc]
  rw [Services.outcome_lift_bind (aggregate_run_of_refused _ _ _ _ refused)]
  rfl

/-- A ledger that is accepted is valued in the currency, and at the rates, that
have been read for it. -/
theorem holdings_outcome_of_accepted
    {found : List Position}
    (accepted :
      Ledger.positions
          ((office.seen start (readings.length + 3)).book.tradesOf user) =
        .ok found) :
    let currency :=
      office.currencyOf (office.seen start (readings.length + 1)).book user
    let rates :=
      (office.seen start (readings.length + 2)).rateBook.ratesFor currency
    let asked := (office.prices.answers found).run world
    Services.outcome (office.services.holdings user)
        (office.after start world readings) =
      (.ok (holdingTable currency rates (found.zip asked.1)).values,
        office.after start asked.2
          (readings ++ holdingReadings user currency)) := by
  dsimp only
  rw [Services.holdings,
    Services.outcome_bind_ok (displayCurrency_outcome ..),
    Services.outcome_bind_ok (ratesFor_outcome ..),
    Services.outcome_bind_ok (trades_outcome ..)]
  simp only [List.length_append, List.length_singleton, List.append_assoc]
  rw [Services.outcome_lift_bind (aggregate_run_of_accepted _ _ _ _ accepted),
    answers_run]
  rfl

/-! ## The total -/

/-- The total that is drawn from a ledger, accounts and rates. -/
def drawn
    (trades : List Trade)
    (accounts : List Account)
    (rates : RateTable) :
    Except ServiceError Valuation :=
  match Ledger.positions trades with
  | .error error => .error (.ledger error)
  | .ok found =>
      let asked := (office.prices.answers found).run world
      .ok (Valuation.fold user
        (holdingTable rates.base rates (found.zip asked.1)).values accounts
        rates (office.clock.now.run asked.2).1)

/-- All readings that the total of a user takes. -/
def totalReadings
    (currency between : String) :
    List Records.Call :=
  .displayCurrency user :: holdingReadings user between ++
    [.accounts user, .ratesFor currency]

/-- A user whose ledger is refused has no total. -/
theorem valuate_outcome_of_refused
    {error : LedgerError}
    (refused :
      Ledger.positions ((office.seen start 4).book.tradesOf user) =
        .error error) :
    Services.outcome (office.services.valuate user)
        (office.after start world []) =
      (.error (.ledger error),
        office.after start world
          (.displayCurrency user ::
            holdingReadings user
              (office.currencyOf (office.seen start 2).book user))) := by
  have failed :
      Services.outcome (office.services.holdings user)
          (office.after start world [.displayCurrency user]) =
        (.error (.ledger error),
          office.after start world
            (.displayCurrency user ::
              holdingReadings user
                (office.currencyOf (office.seen start 2).book user))) :=
    office.holdings_outcome_of_refused start user world _ refused
  rw [Services.valuate, Services.outcome_bind_ok (displayCurrency_outcome ..)]
  exact Services.outcome_bind_error failed _

/-- A user whose ledger is accepted has a total, of the holdings that are valued
on the way. -/
theorem valuate_outcome_of_accepted
    {found : List Position}
    (accepted :
      Ledger.positions ((office.seen start 4).book.tradesOf user) =
        .ok found) :
    let currency := office.currencyOf (office.seen start 1).book user
    let between := office.currencyOf (office.seen start 2).book user
    let asked := (office.prices.answers found).run world
    let timed := office.clock.now.run asked.2
    let holdings :=
      (holdingTable between
        ((office.seen start 3).rateBook.ratesFor between)
        (found.zip asked.1)).values
    Services.outcome (office.services.holdings user)
        (office.after start world [.displayCurrency user]) =
      (.ok holdings,
        office.after start asked.2
          (.displayCurrency user :: holdingReadings user between)) ∧
    Services.outcome (office.services.valuate user)
        (office.after start world []) =
      (.ok (Valuation.fold user holdings
          ((office.seen start 5).book.accountsOf user)
          ((office.seen start 6).rateBook.ratesFor currency) timed.1),
        office.after start timed.2 (totalReadings user currency between)) := by
  intro currency between asked timed holdings
  have held :
      Services.outcome (office.services.holdings user)
          (office.after start world [.displayCurrency user]) =
        (.ok holdings,
          office.after start asked.2
            (.displayCurrency user :: holdingReadings user between)) :=
    office.holdings_outcome_of_accepted start user world _ accepted
  refine ⟨held, ?_⟩
  rw [Services.valuate, Services.outcome_bind_ok (displayCurrency_outcome ..)]
  refine (Services.outcome_bind_ok held _).trans ?_
  rw [Services.outcome_bind_ok (accounts_outcome ..),
    Services.outcome_bind_ok (ratesFor_outcome ..)]
  rfl

/-- What a total is drawn from is read in the fourth to the sixth reading, and
its currency in the first. -/
theorem valuate_eq_drawn :
    let currency := office.currencyOf (office.seen start 1).book user
    (Services.outcome (office.services.valuate user)
        (office.after start world [])).1 =
      office.drawn user world
        ((office.seen start 4).book.tradesOf user)
        ((office.seen start 5).book.accountsOf user)
        ((office.seen start 6).rateBook.ratesFor currency) := by
  intro currency
  unfold drawn
  cases replayed :
      Ledger.positions ((office.seen start 4).book.tradesOf user) with
  | error error =>
      rw [valuate_outcome_of_refused office start user world replayed]
  | ok found =>
      rw [(valuate_outcome_of_accepted office start user world replayed).2]
      -- The holdings are at the rates of the third reading, those of `drawn` at
      -- the rates of the last: they differ only in what they are shown for.
      have sameNative :=
        map_native_holdingTable replayed
          (office.prices.length_answers found world)
      dsimp only
      rw [← Valuation.fold_map_native, sameNative, Valuation.fold_map_native]

/-- The total of a user in one currency, of holdings and accounts at one set of
rates. -/
structure InOneCurrency
    (total : Valuation)
    (currency : String)
    (holdings : List Holding)
    (accounts : List Account)
    (rates : RateTable) :
    Prop where
  currency_eq : total.currency = currency
  base_eq : rates.base = currency
  lines_converted :
    ∀ line ∈ total.lineItems,
      rates.toBase line.amount line.currency = .ok line.converted
  total_eq :
    total = Valuation.fold user holdings accounts rates total.asOf

/-- A total is in one currency if its rates are for that currency. -/
theorem inOneCurrency_fold
    {currency : String}
    {rates : RateTable}
    (base_eq : rates.base = currency)
    (holdings : List Holding)
    (accounts : List Account)
    (asOf : Instant) :
    InOneCurrency user (Valuation.fold user holdings accounts rates asOf)
      currency holdings accounts rates where
  currency_eq := base_eq
  base_eq := base_eq
  lines_converted _ isLine :=
    (Valuation.fold_follows user holdings accounts rates asOf).toBase_line
      isLine
  total_eq := rfl

/--
Two courses of changes under which a user is read alike: the display currency in
the first reading, the trades in the fourth, the accounts in the fifth, and the
rates in the last.  The second and the third reading may differ.
-/
structure ReadAlike
    (other : SharedOffice World)
    (otherStart : Records) :
    Prop where
  currency_eq :
    other.currencyOf (other.seen otherStart 1).book user =
      office.currencyOf (office.seen start 1).book user
  trades_eq :
    (other.seen otherStart 4).book.tradesOf user =
      (office.seen start 4).book.tradesOf user
  accounts_eq :
    (other.seen otherStart 5).book.accountsOf user =
      (office.seen start 5).book.accountsOf user
  rates_eq :
    (other.seen otherStart 6).rateBook.ratesFor
        (other.currencyOf (other.seen otherStart 1).book user) =
      (office.seen start 6).rateBook.ratesFor
        (office.currencyOf (office.seen start 1).book user)

/--
Whatever others change between the readings, a total is in one currency: that of
the first reading, for which the rates of the last reading are.  It is the total
of the holdings that are valued on the way and of the accounts that are read;
there is none if, and only if, the ledger that is read is refused.  What the
holdings are shown for has no influence on it: under other changes the answer is
the same as long as the readings that count are.
-/
theorem total_in_one_currency :
    let seen := office.seen start
    let currency := office.currencyOf (seen 1).book user
    let between := office.currencyOf (seen 2).book user
    let valuate (office : SharedOffice World) (start : Records) :=
      Services.outcome (office.services.valuate user) ⟨world, start, []⟩
    (match Ledger.positions ((seen 4).book.tradesOf user) with
      | .error error =>
          valuate office start =
            (.error (.ledger error),
              ⟨world, seen 4,
                .displayCurrency user :: holdingReadings user between⟩)
      | .ok _ =>
          ∃ holdings total priced timed,
            Services.outcome (office.services.holdings user)
                ⟨world, seen 1, [.displayCurrency user]⟩ =
              (.ok holdings,
                ⟨priced, seen 4,
                  .displayCurrency user :: holdingReadings user between⟩) ∧
            office.clock.now.run priced = (total.asOf, timed) ∧
            valuate office start =
              (.ok total,
                ⟨timed, seen 6, totalReadings user currency between⟩) ∧
            InOneCurrency user total currency holdings
              ((seen 5).book.accountsOf user)
              ((seen 6).rateBook.ratesFor currency)) ∧
    ∀ meanwhile otherStart,
      office.ReadAlike start user { office with meanwhile } otherStart →
        (valuate { office with meanwhile } otherStart).1 =
          (valuate office start).1 := by
  intro seen currency between valuate
  constructor
  · cases replayed : Ledger.positions ((seen 4).book.tradesOf user) with
    | error error =>
        exact valuate_outcome_of_refused office start user world replayed
    | ok found =>
        obtain ⟨held, valued⟩ :=
          valuate_outcome_of_accepted office start user world replayed
        have base_eq :
            ((seen 6).rateBook.ratesFor currency).base = currency := by
          rw [RateBook.base_ratesFor]
          exact office.normalCode_currencyOf _ _
        exact ⟨_, _, _, _, held, rfl, valued,
          inOneCurrency_fold user base_eq _ _ _⟩
  · intro meanwhile otherStart alike
    calc
      (valuate { office with meanwhile } otherStart).1 =
          drawn { office with meanwhile } user world _ _ _ :=
        valuate_eq_drawn { office with meanwhile } otherStart user world
      _ = drawn office user world _ _ _ := by
        rw [alike.trades_eq, alike.accounts_eq, alike.rates_eq]
        rfl
      _ = (valuate office start).1 :=
        (valuate_eq_drawn office start user world).symm

/-! ## A display currency that is changed in between -/

/-- A user with shares in dollars and some cash, and no rates. -/
def sampleRecords :
    Records where
  book :=
    .ofUpdates
      [.appendTrades Ledger.spanningSale,
        .saveAccount ⟨"cash", "u", "Cash", " twd", .hundred⟩]
  rateBook :=
    .empty

/-- Stores a rate for the dollar. -/
def storeDollarRate :
    Records.Change :=
  .upsertRate "TWD" "usd" (Ledger.sampleDecimal 3125 5) .epoch

/-- The user asks for yen after the first reading and for dollars after the
third, and the rate is stored right before the last. -/
def busyOffice :
    SharedOffice Unit where
  prices :=
    Appraisal.knowsOneShare "down"
  clock :=
    ⟨return .epoch⟩
  defaultCurrency :=
    "twd"
  meanwhile
    | 1 => [.ofBook (.setDisplayCurrency "u" "jpy")]
    | 3 => [.ofBook (.setDisplayCurrency "u" "usd")]
    | 5 => [storeDollarRate]
    | _ => []

/-- The rate is stored before the first reading, and nothing else is done. -/
def quietly :
    Nat → List Records.Change
  | 0 => [storeDollarRate]
  | _ => []

private theorem readAlike_quietly :
    busyOffice.ReadAlike sampleRecords "u"
      { busyOffice with meanwhile := quietly } sampleRecords where
  currency_eq := rfl
  trades_eq := rfl
  accounts_eq := rfl
  rates_eq := rfl

/-- The total is in Taiwan dollars, although yen and dollars are asked for while
it is drawn, and the same as without these changes. -/
theorem total_in_one_currency_changed_between :
    let valuate (office : SharedOffice Unit) :=
      Services.outcome (office.services.valuate "u") ⟨(), sampleRecords, []⟩
    busyOffice.ReadAlike sampleRecords "u"
        { busyOffice with meanwhile := quietly } sampleRecords ∧
      ∃ total after,
        valuate busyOffice = (.ok total, after) ∧
          after.calls = totalReadings "u" "TWD" "JPY" ∧
          (total.currency = "TWD" ∧ total.totalValue.toText = "2020") ∧
          (valuate { busyOffice with meanwhile := quietly }).1 = .ok total := by
  have trades :
      ((busyOffice.seen sampleRecords 4).book.tradesOf "u") =
        Ledger.spanningSale := by
    decide +kernel
  have first :
      busyOffice.currencyOf (busyOffice.seen sampleRecords 1).book "u" =
        "TWD" := by
    decide +kernel
  have between :
      busyOffice.currencyOf (busyOffice.seen sampleRecords 2).book "u" =
        "JPY" := by
    decide +kernel
  obtain ⟨ofRun, ofOthers⟩ :=
    total_in_one_currency busyOffice sampleRecords "u" ()
  have others := ofOthers quietly sampleRecords readAlike_quietly
  -- The statement leaves open which total it is: the amount is that of the fold.
  have drawn := valuate_eq_drawn busyOffice sampleRecords "u" ()
  rw [trades, Ledger.positions_spanningSale] at ofRun
  unfold SharedOffice.drawn at drawn
  rw [trades, Ledger.positions_spanningSale] at drawn
  obtain ⟨holdings, total, priced, timed, -, -, valued, oneCurrency⟩ := ofRun
  refine ⟨readAlike_quietly, total, _, valued, ?_, ⟨?_, ?_⟩, ?_⟩
  · change totalReadings "u" _ _ = _
    rw [first, between]
  · exact oneCurrency.currency_eq.trans first
  · have isDrawn := (congrArg Prod.fst valued).symm.trans drawn
    rw [Except.ok.injEq] at isDrawn
    rw [isDrawn]
    decide +kernel
  · rw [others]
    exact congrArg Prod.fst valued

end SharedOffice

end NetWorth
