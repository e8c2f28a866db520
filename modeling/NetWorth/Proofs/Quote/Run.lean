import Mathlib
import NetWorth.Quote.Caching

/-!
# Runs of a caching source

A caching source with a store in memory, among requests, sweeps and changes of
the world around it.  The source that is asked may do anything, but time does
not go back.  Each call of it is recorded with its answer and with the time at
which the answer came.
-/

namespace NetWorth.CachingSource

/-- One call of the inner source. -/
structure Call where
  assetClass : AssetClass
  symbol : String
  answer : PriceAnswer
  completed : Instant

/--
What is around a caching source: a world that shows a time, and a source in it.
No time is lost while the source is asked.
-/
structure Environment
    (World : Type) where
  time : World → Instant
  inner : PriceSource (StateM World)
  inner_forward :
    ∀ assetClass symbol world,
      time world ≤ time ((inner.price assetClass symbol).run world).2

/-- The state of a run: the world, the calls so far and the store. -/
structure RunState
    (World : Type) where
  world : World
  calls : List Call
  table : QuoteTable

/-- What a run does next. -/
inductive RunStep
    {World : Type}
    (env : Environment World) where
  | request (assetClass : AssetClass) (symbol : String)
  | sweep
  | pass
      (next : World → World)
      (forward : ∀ world, env.time world ≤ env.time (next world))

namespace RunStep

variable {World : Type} {env : Environment World}

/-- Whether a step is a sweep. -/
def isSweep :
    RunStep env → Bool
  | .sweep => true
  | _ => false

end RunStep

namespace Environment

variable {World : Type} (env : Environment World)

/-- Asks the inner source. -/
def ask
    (assetClass : AssetClass)
    (symbol : String)
    (world : World) :
    PriceAnswer × World :=
  (env.inner.price assetClass symbol).run world

/-- The inner source with a record of its calls. -/
def recorded :
    PriceSource (StateM (RunState World)) where
  name :=
    env.inner.name
  price assetClass symbol := do
    let state ← get
    let (answer, world) := env.ask assetClass symbol state.world
    let call := ⟨assetClass, symbol, answer, env.time world⟩
    set { state with world, calls := state.calls ++ [call] }
    return answer

/-- The store in memory, as a part of the state. -/
def store :
    QuoteStore (StateM (RunState World)) :=
  QuoteTable.memoryStore.hoist fun action => do
    let state ← get
    let (result, table) := action.run state.table
    set { state with table }
    return result

/-- The time that the world shows. -/
def clock :
    Clock (StateM (RunState World)) where
  now := return env.time (← get).world

/-- The caching source under test. -/
def caching
    (lifetime : Span) :
    CachingSource (StateM (RunState World)) where
  inner := env.recorded
  store := store
  clock := env.clock
  lifetime := lifetime

/-- Performs one step; only a request has an answer. -/
def perform
    (lifetime : Span) :
    RunStep env → StateM (RunState World) (Option PriceAnswer)
  | .request assetClass symbol =>
      some <$> (env.caching lifetime).source.price assetClass symbol
  | .sweep => do
      let _ ← sweepOnce store env.clock
      return none
  | .pass next _ => do
      modify fun state => { state with world := next state.world }
      return none

end Environment

/-- Takes steps one after the other and collects the answers. -/
def play
    {Step State : Type}
    (perform : Step → StateM State (Option PriceAnswer)) :
    List Step → StateM State (List PriceAnswer)
  | [] => return []
  | step :: rest => do
      let answer ← perform step
      let answers ← play perform rest
      return answer.toList ++ answers

theorem play_cons_run
    {Step State : Type}
    (perform : Step → StateM State (Option PriceAnswer))
    (step : Step)
    (rest : List Step)
    (state : State) :
    (play perform (step :: rest)).run state =
      let (answer, next) := (perform step).run state
      let (answers, final) := (play perform rest).run next
      (answer.toList ++ answers, final) :=
  rfl

/-- What can be seen of a run: the answers, the calls of the inner source and
the world that is left. -/
structure Outcome
    (World : Type) where
  answers : List PriceAnswer
  calls : List Call
  world : World

namespace Environment

variable {World : Type} (env : Environment World)

/-- The outcome of a run that starts with an empty store. -/
def outcome
    (lifetime : Span)
    (world : World)
    (steps : List (RunStep env)) :
    Outcome World :=
  let (answers, final) :=
    (play (env.perform lifetime) steps).run ⟨world, [], .empty⟩
  ⟨answers, final.calls, final.world⟩

/-! ## What the steps do to the state -/

variable (lifetime : Span) (state : RunState World)

/-- Asks the inner source and keeps a quote under its key. -/
def refetch
    (assetClass : AssetClass)
    (symbol : String) :
    PriceAnswer × RunState World :=
  let (answer, world) := env.ask assetClass symbol state.world
  let completed := env.time world
  let calls := state.calls ++ [⟨assetClass, symbol, answer, completed⟩]
  match answer with
  | .error _ => (answer, { state with world, calls })
  | .ok quote =>
      let entry := ⟨quote, completed.after lifetime⟩
      let key := priceKey assetClass symbol
      (answer, ⟨world, calls, state.table.insert key entry⟩)

theorem deleteIfExpired_run
    {key : String}
    {entry : CachedQuote}
    {now : Instant}
    (found : state.table.get? key = some entry)
    (expired : ¬ entry.IsFresh now) :
    (store.deleteIfExpired key now).run state =
      (.ok true, { state with table := state.table.erase key }) := by
  have dropped :
      QuoteTable.dropIfExpired state.table key now =
        (true, state.table.erase key) := by
    simp only [QuoteTable.dropIfExpired, found, expired, if_false]
  change ((.ok (QuoteTable.dropIfExpired state.table key now).1,
    { state with
      table := (QuoteTable.dropIfExpired state.table key now).2 }) :
    Except String Bool × RunState World) = _
  rw [dropped]

/-- Looking for a fresh entry takes it out if it has expired. -/
theorem lookup_run
    (key : String) :
    ((env.caching lifetime).lookup key).run state =
      match state.table.get? key with
      | none => (none, state)
      | some entry =>
          if entry.IsFresh (env.time state.world) then
            (some entry.quote, state)
          else
            (none, { state with table := state.table.erase key }) := by
  have got :
      ((env.caching lifetime).store.get key).run state =
        (.ok (state.table.get? key), state) :=
    rfl
  unfold CachingSource.lookup
  rw [StateT.run_bind, got]
  cases found : state.table.get? key with
  | none =>
      rfl
  | some entry =>
      change StateT.run
        (if entry.IsFresh (env.time state.world) then
          pure (some entry.quote)
        else do
          let _ ← store.deleteIfExpired key (env.time state.world)
          return none) state = _
      by_cases fresh : entry.IsFresh (env.time state.world)
      · rw [if_pos fresh]
        simp only [fresh, if_true]
        rfl
      · rw [if_neg fresh, StateT.run_bind,
          deleteIfExpired_run state found fresh]
        simp only [fresh, if_false]
        rfl

theorem inner_run
    (assetClass : AssetClass)
    (symbol : String) :
    ((env.caching lifetime).inner.price assetClass symbol).run state =
      let (answer, world) := env.ask assetClass symbol state.world
      let call := ⟨assetClass, symbol, answer, env.time world⟩
      (answer, { state with world, calls := state.calls ++ [call] }) :=
  rfl

/-- A request is answered by a fresh entry or by the inner source. -/
theorem fetch_run
    (assetClass : AssetClass)
    (symbol : String) :
    ((env.caching lifetime).fetch assetClass symbol).run state =
      let key := priceKey assetClass (normalCode symbol)
      match ((env.caching lifetime).lookup key).run state with
      | (some quote, after) => (.ok quote, after)
      | (none, after) =>
          env.refetch lifetime after assetClass (normalCode symbol) := by
  unfold CachingSource.fetch
  dsimp only
  rw [StateT.run_bind]
  cases ((env.caching lifetime).lookup
      (priceKey assetClass (normalCode symbol))).run state with
  | mk found after =>
      cases found with
      | some quote =>
          rfl
      | none =>
          change StateT.run (m := Id) (_ >>= _) after =
            env.refetch lifetime after assetClass (normalCode symbol)
          rw [StateT.run_bind, inner_run]
          unfold refetch
          cases env.ask assetClass (normalCode symbol) after.world with
          | mk answer world =>
              cases answer <;> rfl

theorem sweep_run :
    (env.perform lifetime .sweep).run state =
      (none,
        { state with
          table :=
            (state.table.dropExpired (env.time state.world)).2 }) :=
  rfl

end Environment

end NetWorth.CachingSource
