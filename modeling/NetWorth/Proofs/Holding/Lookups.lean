import Mathlib
import NetWorth.Holding.Aggregate
import NetWorth.Proofs.Ledger.DatedTrades
import NetWorth.Proofs.Quote.Script
import NetWorth.Proofs.Table
import NetWorth.Proofs.Text.NormalCode

/-!
# One look-up and one holding for each position

A ledger is valued by asking for the price of each open position once.  Whatever
is answered, there is one holding for each position, under its key, and nothing
else.  A ledger that is refused asks for no price.

The holdings are put into a table under keys that are made of their own codes
once more.  No two of them meet there, because a normal code is its own normal
form.
-/

namespace NetWorth

/-- A look-up of a price, with its answer. -/
structure Lookup where
  assetClass : AssetClass
  symbol : String
  answer : PriceAnswer

namespace PriceSource

/-- Asks for the price of each position in turn. -/
def answers
    {m : Type → Type}
    [Monad m]
    (prices : PriceSource m)
    (positions : List Position) :
    m (List PriceAnswer) :=
  positions.mapM fun position =>
    prices.price position.key.assetClass position.key.ticker

variable {World : Type} (prices : PriceSource (StateM World))

/-- A source that keeps a record of what it is asked. -/
def recorded :
    PriceSource (StateM (World × List Lookup)) where
  name :=
    prices.name
  price assetClass symbol := do
    let (world, lookups) ← get
    let (answer, next) := (prices.price assetClass symbol).run world
    set (next, lookups ++ [Lookup.mk assetClass symbol answer])
    return answer

/-- The first price is asked for first. -/
theorem answers_cons_run
    (position : Position)
    (rest : List Position)
    (world : World) :
    (prices.answers (position :: rest)).run world =
      let asked :=
        (prices.price position.key.assetClass position.key.ticker).run world
      (asked.1 :: ((prices.answers rest).run asked.2).1,
        ((prices.answers rest).run asked.2).2) :=
  run_mapM_cons _ position rest world

/-- There is an answer for each position. -/
theorem length_answers
    (positions : List Position)
    (world : World) :
    ((prices.answers positions).run world).1.length = positions.length := by
  induction positions generalizing world with
  | nil => rfl
  | cons position rest inductionHypothesis =>
      rw [answers_cons_run]
      exact congrArg Nat.succ (inductionHypothesis _)

/-- The look-up that is made for a position, with its answer. -/
def lookupFor
    (asked : Position × PriceAnswer) :
    Lookup where
  assetClass :=
    asked.1.key.assetClass
  symbol :=
    asked.1.key.ticker
  answer :=
    asked.2

/-- The record has one look-up for each position, and changes nothing else. -/
theorem answers_recorded_run
    (positions : List Position)
    (world : World)
    (lookups : List Lookup) :
    (prices.recorded.answers positions).run (world, lookups) =
      let asked := (prices.answers positions).run world
      (asked.1, asked.2,
        lookups ++ (positions.zip asked.1).map lookupFor) := by
  induction positions generalizing world lookups with
  | nil =>
      change ([], world, lookups) = ([], world, lookups ++ [])
      rw [List.append_nil]
  | cons position rest inductionHypothesis =>
      have asked :
          (prices.recorded.price position.key.assetClass
              position.key.ticker).run (world, lookups) =
            let asked :=
              (prices.price position.key.assetClass
                position.key.ticker).run world
            (asked.1, asked.2, lookups ++ [lookupFor (position, asked.1)]) :=
        rfl
      rw [answers_cons_run, asked, answers_cons_run]
      simp only [inductionHypothesis, List.append_assoc]
      rfl

end PriceSource

/-! ## The table of holdings -/

/-- The key of an open position is that of one of its trades. -/
theorem Ledger.key_mem_keys
    {trades : List Trade}
    {found : List Position}
    (accepted : positions trades = .ok found)
    {position : Position}
    (isOpen : position ∈ found) :
    position.key ∈ keys trades := by
  by_contra missing
  obtain ⟨replays, isPositive⟩ := (mem_positions accepted).mp isOpen
  rw [replayed_of_not_mem_keys missing, Except.ok.injEq] at replays
  rw [← replays] at isPositive
  exact Decimal.not_isPositive_zero isPositive

/-- The holding of an open position has the key of the position. -/
theorem Position.key_valued
    {trades : List Trade}
    {found : List Position}
    (accepted : Ledger.positions trades = .ok found)
    {position : Position}
    (isOpen : position ∈ found)
    (displayCurrency : String)
    (rates : RateTable)
    (answer : PriceAnswer) :
    (position.valued displayCurrency rates answer).key = position.key := by
  obtain ⟨trade, -, sameKey⟩ :=
    Ledger.mem_keys.mp (Ledger.key_mem_keys accepted isOpen)
  change GroupKey.normal position.key.assetClass position.key.ticker
    position.key.currency = position.key
  rw [← sameKey]
  exact GroupKey.normal_normal _ _ _

/-- The holdings of positions by their keys, from the answers to look-ups. -/
def holdingTable
    (displayCurrency : String)
    (rates : RateTable)
    (asked : List (Position × PriceAnswer)) :
    Table GroupKey Holding :=
  .ofList (asked.map fun (position, answer) =>
    let holding := position.valued (normalCode displayCurrency) rates answer
    (holding.key, holding))

/-- A ledger is valued by look-ups for its open positions, and by nothing
else. -/
theorem aggregate_eq
    {m : Type → Type}
    [Monad m]
    [LawfulMonad m]
    (prices : PriceSource m)
    (trades : List Trade)
    (displayCurrency : String)
    (rates : RateTable) :
    aggregate prices trades displayCurrency rates =
      match Ledger.positions trades with
      | .error error => pure (.error error)
      | .ok found =>
          (fun answers =>
              .ok (holdingTable displayCurrency rates (found.zip answers))) <$>
            prices.answers found := by
  have valuedInTurn (found : List Position) :
      (found.mapM fun position => do
          let answer ← prices.price position.key.assetClass
            position.key.ticker
          return position.valued (normalCode displayCurrency) rates answer) =
        (fun answers => (found.zip answers).map fun (position, answer) =>
            position.valued (normalCode displayCurrency) rates answer) <$>
          prices.answers found := by
    induction found with
    | nil => simp [PriceSource.answers]
    | cons position rest inductionHypothesis =>
        simp only [PriceSource.answers, List.mapM_cons] at *
        rw [inductionHypothesis]
        simp
  unfold aggregate
  cases Ledger.positions trades with
  | error error => rfl
  | ok found =>
      dsimp only
      rw [valuedInTurn, bind_pure_comp, Functor.map_map]
      simp only [List.map_map, holdingTable]
      rfl

section Run

variable
  {World : Type}
  {trades : List Trade}
  (prices : PriceSource (StateM World))
  (displayCurrency : String)
  (rates : RateTable)
  (world : World)

/-- A ledger that is refused leaves the world alone. -/
theorem aggregate_run_of_refused
    {error : LedgerError}
    (refused : Ledger.positions trades = .error error) :
    (aggregate prices trades displayCurrency rates).run world =
      (.error error, world) := by
  rw [aggregate_eq, refused]
  rfl

/-- A ledger that is accepted has its holdings, whatever is answered. -/
theorem aggregate_run_of_accepted
    {found : List Position}
    (accepted : Ledger.positions trades = .ok found) :
    (aggregate prices trades displayCurrency rates).run world =
      let asked := (prices.answers found).run world
      (.ok (holdingTable displayCurrency rates (found.zip asked.1)),
        asked.2) := by
  rw [aggregate_eq, accepted]
  rfl

end Run

section Accepted

variable
  {trades : List Trade}
  {found : List Position}
  {answers : List PriceAnswer}

/-- No two holdings meet under one key, so none is lost. -/
theorem entries_holdingTable
    (accepted : Ledger.positions trades = .ok found)
    (answered : answers.length = found.length)
    (displayCurrency : String)
    (rates : RateTable) :
    (holdingTable displayCurrency rates (found.zip answers)).entries =
      (found.zip answers).map fun (position, answer) =>
        (position.key,
          position.valued (normalCode displayCurrency) rates answer) := by
  have ownKeys :
      ((found.zip answers).map fun (position, answer) =>
          let holding :=
            position.valued (normalCode displayCurrency) rates answer
          (holding.key, holding)) =
        (found.zip answers).map fun (position, answer) =>
          (position.key,
            position.valued (normalCode displayCurrency) rates answer) := by
    apply List.map_congr_left
    rintro ⟨position, answer⟩ member
    have isOpen := (List.of_mem_zip member).1
    rw [Prod.mk.injEq]
    exact ⟨Position.key_valued accepted isOpen _ _ _, rfl⟩
  rw [holdingTable, ownKeys]
  apply Table.entries_ofList
  rw [List.map_map]
  change ((found.zip answers).map ((·.key) ∘ Prod.fst)).Nodup
  rw [← List.map_map, List.map_fst_zip answered.ge]
  exact Ledger.nodup_positions_keys accepted

/-- The keys of the holdings are those of the open positions. -/
theorem keys_holdingTable
    (accepted : Ledger.positions trades = .ok found)
    (answered : answers.length = found.length)
    (displayCurrency : String)
    (rates : RateTable) :
    (holdingTable displayCurrency rates (found.zip answers)).keys =
      found.map (·.key) := by
  rw [Table.keys, entries_holdingTable accepted answered, List.map_map]
  change (found.zip answers).map ((·.key) ∘ Prod.fst) = _
  rw [← List.map_map, List.map_fst_zip answered.ge]

/-- The holding of a position is found under its key. -/
theorem get?_holdingTable
    (accepted : Ledger.positions trades = .ok found)
    (answered : answers.length = found.length)
    (displayCurrency : String)
    (rates : RateTable)
    {position : Position}
    {answer : PriceAnswer}
    (asked : (position, answer) ∈ found.zip answers) :
    (holdingTable displayCurrency rates (found.zip answers)).get?
        position.key =
      some (position.valued (normalCode displayCurrency) rates answer) := by
  rw [Table.get?_eq_some_iff, entries_holdingTable accepted answered]
  exact List.mem_map.mpr ⟨_, asked, rfl⟩

end Accepted

/-! ## Appraisals -/

/-- A ledger that is to be valued, with everything its value is drawn from. -/
structure Appraisal
    (World : Type) where
  prices : PriceSource (StateM World)
  world : World
  trades : List Trade
  displayCurrency : String
  rates : RateTable

namespace Appraisal

variable {World : Type} (appraisal : Appraisal World)

/-- The holdings of the ledger, and the world afterwards. -/
def run :
    Except LedgerError (Table GroupKey Holding) × World :=
  (aggregate appraisal.prices appraisal.trades appraisal.displayCurrency
    appraisal.rates).run appraisal.world

/-- The same with a record of the look-ups. -/
def recordedRun :
    Except LedgerError (Table GroupKey Holding) × World × List Lookup :=
  (aggregate appraisal.prices.recorded appraisal.trades
    appraisal.displayCurrency appraisal.rates).run (appraisal.world, [])

/-- The look-ups that are made, in turn. -/
def lookups :
    List Lookup :=
  appraisal.recordedRun.2.2

/-- The record changes neither the result nor the world. -/
theorem recordedRun_eq :
    appraisal.recordedRun =
      (appraisal.run.1, appraisal.run.2, appraisal.lookups) := by
  suffices unchanged :
      (appraisal.recordedRun.1, appraisal.recordedRun.2.1) =
        appraisal.run by
    rw [← unchanged]
    rfl
  unfold recordedRun run
  cases replayed : Ledger.positions appraisal.trades with
  | error error =>
      rw [aggregate_run_of_refused _ _ _ _ replayed,
        aggregate_run_of_refused _ _ _ _ replayed]
  | ok found =>
      rw [aggregate_run_of_accepted _ _ _ _ replayed,
        aggregate_run_of_accepted _ _ _ _ replayed,
        PriceSource.answers_recorded_run]

theorem run_of_refused
    {error : LedgerError}
    (refused : Ledger.positions appraisal.trades = .error error) :
    appraisal.run = (.error error, appraisal.world) ∧
      appraisal.lookups = [] := by
  unfold lookups recordedRun run
  rw [aggregate_run_of_refused _ _ _ _ refused,
    aggregate_run_of_refused _ _ _ _ refused]
  exact ⟨rfl, rfl⟩

/-- An accepted ledger is valued by one look-up for each position. -/
theorem exists_answers_of_accepted
    {found : List Position}
    (accepted : Ledger.positions appraisal.trades = .ok found) :
    ∃ answers,
      answers.length = found.length ∧
        appraisal.run.1 =
          .ok (holdingTable appraisal.displayCurrency appraisal.rates
            (found.zip answers)) ∧
        appraisal.lookups =
          (found.zip answers).map PriceSource.lookupFor := by
  refine ⟨((appraisal.prices.answers found).run appraisal.world).1,
    appraisal.prices.length_answers found appraisal.world, ?_, ?_⟩
  · unfold run
    rw [aggregate_run_of_accepted _ _ _ _ accepted]
  · unfold lookups recordedRun
    rw [aggregate_run_of_accepted _ _ _ _ accepted,
      PriceSource.answers_recorded_run]
    rfl

end Appraisal

/-! ## What a holding says of its position -/

/--
What a holding takes over from its position.  It is named by the first trade
that has a name, or else by the quote, if there is one.
-/
structure Holding.Describes
    (holding : Holding)
    (trades : List Trade)
    (position : Position)
    (answer : PriceAnswer) :
    Prop where
  assetClass_eq : holding.assetClass = position.key.assetClass
  ticker_eq : holding.ticker = position.key.ticker
  currency_eq : holding.currency = position.key.currency
  quantity_eq : holding.quantity = position.quantity
  quantity_pos : 0 < holding.quantity.value
  totalCost_eq : holding.totalCost = position.totalCost
  averageCost_eq : holding.averageCost = position.averageCost
  tickerName_eq :
    holding.tickerName =
      (Ledger.firstName? (Ledger.tradesByDate trades position.key)).getD
        (match answer with
          | .ok quote => quote.name
          | .error _ => "")

theorem Position.currency_valued
    (position : Position)
    (displayCurrency : String)
    (rates : RateTable)
    (answer : PriceAnswer) :
    (position.valued displayCurrency rates answer).currency =
      position.key.currency :=
  rfl

theorem Position.displayValue_valued
    (position : Position)
    (displayCurrency : String)
    (rates : RateTable)
    (answer : PriceAnswer) :
    (position.valued displayCurrency rates answer).displayValue =
      position.displayValue displayCurrency rates
        (position.valued displayCurrency rates answer).totalValue :=
  rfl

/-- The name of a holding is that of its position or of its quote. -/
theorem Position.tickerName_valued
    (position : Position)
    (displayCurrency : String)
    (rates : RateTable)
    (answer : PriceAnswer) :
    (position.valued displayCurrency rates answer).tickerName =
      if position.tickerName.isEmpty then
        match answer with
        | .ok quote => quote.name
        | .error _ => ""
      else
        position.tickerName := by
  cases answer with
  | ok quote => rfl
  | error error =>
      change position.tickerName = _
      split
      case isTrue unnamed => exact String.isEmpty_iff.mp unnamed
      case isFalse => rfl

/-- An open position is described by its holding. -/
theorem Position.describes_valued
    {trades : List Trade}
    {found : List Position}
    (accepted : Ledger.positions trades = .ok found)
    {position : Position}
    (isOpen : position ∈ found)
    (displayCurrency : String)
    (rates : RateTable)
    (answer : PriceAnswer) :
    (position.valued displayCurrency rates answer).Describes trades position
      answer := by
  obtain ⟨replays, isPositive⟩ := (Ledger.mem_positions accepted).mp isOpen
  refine ⟨rfl, rfl, rfl, rfl, Decimal.isPositive_iff.mp isPositive, rfl, rfl,
    ?_⟩
  rw [tickerName_valued, Ledger.tickerName_of_replayed replays]
  cases named : Ledger.firstName?
      (Ledger.tradesByDate trades position.key) with
  | none => rfl
  | some name =>
      have notEmpty : ¬ name.isEmpty := by
        simpa using List.find?_some named
      rw [Option.getD_some, if_neg notEmpty, Option.getD_some]

/-- What is read off pairs belongs to the first parts of the pairs. -/
private theorem forall₂_map_zip
    {First Second Result : Type}
    {belongs : First → Result → Prop}
    {result : First × Second → Result}
    {firsts : List First}
    {seconds : List Second}
    (sameLength : seconds.length = firsts.length)
    (related :
      ∀ pair ∈ firsts.zip seconds, belongs pair.1 (result pair)) :
    List.Forall₂ belongs firsts ((firsts.zip seconds).map result) := by
  suffices ofPairs :
      List.Forall₂ belongs ((firsts.zip seconds).map Prod.fst)
        ((firsts.zip seconds).map result) by
    rwa [List.map_fst_zip sameLength.ge] at ofPairs
  rw [List.forall₂_map_left_iff, List.forall₂_map_right_iff,
    List.forall₂_same]
  exact related

/--
No holding is lost, merged or invented.  A ledger that is refused asks for no
price.  Any other is valued whatever is answered: with one look-up for each open
position, by the class and the ticker of its key, and with one holding for each,
which describes it.
-/
theorem Appraisal.holding_for_each_position
    {World : Type}
    (appraisal : Appraisal World) :
    appraisal.recordedRun =
        (appraisal.run.1, appraisal.run.2, appraisal.lookups) ∧
      match Ledger.positions appraisal.trades with
      | .error error =>
          appraisal.run = (.error error, appraisal.world) ∧
            appraisal.lookups = []
      | .ok found =>
          ∃ holdings,
            appraisal.run.1 = .ok holdings ∧
              holdings.keys = found.map (·.key) ∧
              List.Forall₂
                (fun position lookup =>
                  lookup.assetClass = position.key.assetClass ∧
                    lookup.symbol = position.key.ticker ∧
                    ∃ holding,
                      holdings.get? position.key = some holding ∧
                        holding.Describes appraisal.trades position
                          lookup.answer)
                found appraisal.lookups := by
  refine ⟨appraisal.recordedRun_eq, ?_⟩
  cases replayed : Ledger.positions appraisal.trades with
  | error error =>
      exact appraisal.run_of_refused replayed
  | ok found =>
      obtain ⟨answers, answered, result, lookedUp⟩ :=
        appraisal.exists_answers_of_accepted replayed
      refine ⟨_, result, keys_holdingTable replayed answered _ _, ?_⟩
      rw [lookedUp]
      apply forall₂_map_zip answered
      rintro ⟨position, answer⟩ asked
      exact ⟨rfl, rfl, _, get?_holdingTable replayed answered _ _ asked,
        Position.describes_valued replayed (List.of_mem_zip asked).1 _ _ _⟩

end NetWorth
