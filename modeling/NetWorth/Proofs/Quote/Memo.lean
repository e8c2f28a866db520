import Mathlib
import NetWorth.Proofs.Quote.Run
import NetWorth.Proofs.Table
import NetWorth.Proofs.Text.NormalCode

/-!
# A caching source is a memo of its calls

The memo of a symbol is its last successful fetch, with the time at which it
expires.  It is read off the calls alone, so nothing is ever removed from it.
A caching source answers as if it looked into this memo: what its store has
lost, to sweeps or to look-ups, has expired and is never served again.
-/

namespace NetWorth

theorem Instant.lt_of_le_of_lt
    {first second third : Instant}
    (firstLe : first ≤ second)
    (secondLt : second < third) :
    first < third := by
  change first.seconds < second.seconds ∨
    first.seconds = second.seconds ∧ first.nanos ≤ second.nanos at firstLe
  change second.seconds < third.seconds ∨
    second.seconds = third.seconds ∧ second.nanos < third.nanos at secondLt
  change first.seconds < third.seconds ∨
    first.seconds = third.seconds ∧ first.nanos < third.nanos
  omega

/-- What has expired stays expired. -/
theorem CachedQuote.not_isFresh_of_le
    {entry : CachedQuote}
    {now later : Instant}
    (forward : now ≤ later)
    (expired : ¬ entry.IsFresh now) :
    ¬ entry.IsFresh later :=
  fun fresh => expired (Instant.lt_of_le_of_lt forward fresh)

namespace CachingSource

/-! ## The memo -/

/-- What a call leaves in the memo of a symbol: its quote, until it expires. -/
def Call.entry?
    (lifetime : Span)
    (assetClass : AssetClass)
    (symbol : String)
    (call : Call) :
    Option CachedQuote :=
  if call.assetClass = assetClass ∧ call.symbol = symbol then
    match call.answer with
    | .error _ => none
    | .ok quote => some ⟨quote, call.completed.after lifetime⟩
  else
    none

/-- The last successful fetch of a symbol. -/
def memo
    (lifetime : Span)
    (calls : List Call)
    (assetClass : AssetClass)
    (symbol : String) :
    Option CachedQuote :=
  calls.reverse.findSome? (Call.entry? lifetime assetClass symbol)

theorem memo_append
    (lifetime : Span)
    (calls : List Call)
    (call : Call)
    (assetClass : AssetClass)
    (symbol : String) :
    memo lifetime (calls ++ [call]) assetClass symbol =
      (call.entry? lifetime assetClass symbol).or
        (memo lifetime calls assetClass symbol) := by
  unfold memo
  rw [List.reverse_append, List.reverse_singleton, List.singleton_append,
    List.findSome?_cons]
  cases call.entry? lifetime assetClass symbol <;> rfl

theorem memo_failed
    {lifetime : Span}
    {calls : List Call}
    {assetClass other : AssetClass}
    {symbol code : String}
    {error : PriceError}
    {completed : Instant} :
    memo lifetime (calls ++ [⟨assetClass, symbol, .error error, completed⟩])
        other code =
      memo lifetime calls other code := by
  rw [memo_append]
  simp [Call.entry?]

theorem memo_fetched
    {lifetime : Span}
    {calls : List Call}
    {assetClass other : AssetClass}
    {symbol code : String}
    {quote : Quote}
    {completed : Instant} :
    memo lifetime (calls ++ [⟨assetClass, symbol, .ok quote, completed⟩])
        other code =
      if other = assetClass ∧ code = symbol then
        some ⟨quote, completed.after lifetime⟩
      else
        memo lifetime calls other code := by
  rw [memo_append, Call.entry?]
  by_cases same : other = assetClass ∧ code = symbol
  · simp [same]
  · have different : ¬ (assetClass = other ∧ symbol = code) :=
      fun ⟨sameClass, sameSymbol⟩ =>
        same ⟨sameClass.symm, sameSymbol.symm⟩
    simp [same, different]

/-- A look-up by class and symbol after an entry has been kept. -/
theorem get?_insert_priceKey
    {table : QuoteTable}
    {assetClass other : AssetClass}
    {symbol code : String}
    {entry : CachedQuote} :
    (table.insert (priceKey assetClass symbol) entry).get?
        (priceKey other code) =
      if other = assetClass ∧ code = symbol then
        some entry
      else
        table.get? (priceKey other code) := by
  rw [Table.get?_insert]
  congr 1
  exact propext ⟨priceKey_injective, fun ⟨sameClass, sameSymbol⟩ => by
    rw [sameClass, sameSymbol]⟩

namespace Environment

variable {World : Type} (env : Environment World) (lifetime : Span)

/--
The answer to a request by what is fresh in the memo, if anything is, and
otherwise by one call of the inner source.
-/
def answerFrom
    (world : World)
    (calls : List Call)
    (assetClass : AssetClass)
    (symbol : String) :
    Option CachedQuote → PriceAnswer × World × List Call
  | some entry => (.ok entry.quote, world, calls)
  | none =>
      let (answer, next) := env.ask assetClass symbol world
      let call := ⟨assetClass, symbol, answer, env.time next⟩
      (answer, next, calls ++ [call])

/-- One step as the memo has it; a sweep does nothing. -/
def performIdeal :
    RunStep env → World × List Call → Option PriceAnswer × World × List Call
  | .request assetClass symbol, (world, calls) =>
      let code := normalCode symbol
      let fresh := (memo lifetime calls assetClass code).filter fun entry =>
        entry.IsFresh (env.time world)
      let (answer, next) := env.answerFrom world calls assetClass code fresh
      (some answer, next)
  | .sweep, seen => (none, seen)
  | .pass next _, (world, calls) => (none, next world, calls)

/-- The outcome of a run as the memo has it. -/
def idealOutcome
    (world : World)
    (steps : List (RunStep env)) :
    Outcome World :=
  let (answers, final, calls) :=
    (play (env.performIdeal lifetime) steps).run (world, [])
  ⟨answers, calls, final⟩

/-! ## The store and the memo -/

/--
The store holds nothing but what the memo holds, and what the memo holds and
the store does not has expired.
-/
structure Agrees
    (state : RunState World) :
    Prop where
  stored :
    ∀ assetClass symbol entry,
      state.table.get? (priceKey assetClass symbol) = some entry →
      memo lifetime state.calls assetClass symbol = some entry
  missing :
    ∀ assetClass symbol entry,
      state.table.get? (priceKey assetClass symbol) = none →
      memo lifetime state.calls assetClass symbol = some entry →
      ¬ entry.IsFresh (env.time state.world)

namespace Agrees

variable {env lifetime} {state : RunState World}

theorem start
    (world : World) :
    env.Agrees lifetime ⟨world, [], .empty⟩ where
  stored _ _ _ found := by
    cases found
  missing _ _ _ _ remembered := by
    cases remembered

/-- Time may pass. -/
theorem later
    (agrees : env.Agrees lifetime state)
    {world : World}
    (forward : env.time state.world ≤ env.time world) :
    env.Agrees lifetime { state with world } where
  stored := agrees.stored
  missing assetClass symbol entry absent remembered :=
    CachedQuote.not_isFresh_of_le forward
      (agrees.missing assetClass symbol entry absent remembered)

/-- Entries may be removed once they have expired. -/
theorem removed
    (agrees : env.Agrees lifetime state)
    {table : QuoteTable}
    (kept :
      ∀ key entry,
        table.get? key = some entry → state.table.get? key = some entry)
    (lost :
      ∀ key entry,
        table.get? key = none →
        state.table.get? key = some entry →
        ¬ entry.IsFresh (env.time state.world)) :
    env.Agrees lifetime { state with table } where
  stored assetClass symbol entry found :=
    agrees.stored assetClass symbol entry (kept _ _ found)
  missing assetClass symbol entry absent remembered := by
    cases before : state.table.get? (priceKey assetClass symbol) with
    | none =>
        exact agrees.missing assetClass symbol entry before remembered
    | some old =>
        -- what has been lost is what the memo still holds
        have same := agrees.stored assetClass symbol old before
        rw [remembered] at same
        cases same
        exact lost _ _ absent before

/-- Store and memo have the same fresh entries. -/
theorem fresh_eq
    (agrees : env.Agrees lifetime state)
    (assetClass : AssetClass)
    (symbol : String) :
    (memo lifetime state.calls assetClass symbol).filter
        (fun entry => entry.IsFresh (env.time state.world)) =
      (state.table.get? (priceKey assetClass symbol)).filter
        fun entry => entry.IsFresh (env.time state.world) := by
  cases found : state.table.get? (priceKey assetClass symbol) with
  | some entry =>
      rw [agrees.stored assetClass symbol entry found]
  | none =>
      cases remembered : memo lifetime state.calls assetClass symbol with
      | none =>
          rfl
      | some entry =>
          have expired :=
            agrees.missing assetClass symbol entry found remembered
          simp [Option.filter, expired]

/-- A failed call leaves store and memo alone. -/
theorem failed
    (agrees : env.Agrees lifetime state)
    {world : World}
    (forward : env.time state.world ≤ env.time world)
    (assetClass : AssetClass)
    (symbol : String)
    (error : PriceError) :
    env.Agrees lifetime
      { state with
        world
        calls :=
          state.calls ++
            [⟨assetClass, symbol, .error error, env.time world⟩] } := by
  constructor
  · intro other code entry found
    rw [memo_failed]
    exact agrees.stored other code entry found
  · intro other code entry absent remembered
    rw [memo_failed] at remembered
    exact (agrees.later forward).missing other code entry absent remembered

/-- A successful call replaces the entry of its symbol in store and memo. -/
theorem fetched
    (agrees : env.Agrees lifetime state)
    {world : World}
    (forward : env.time state.world ≤ env.time world)
    (assetClass : AssetClass)
    (symbol : String)
    (quote : Quote) :
    env.Agrees lifetime
      ⟨world,
        state.calls ++ [⟨assetClass, symbol, .ok quote, env.time world⟩],
        state.table.insert (priceKey assetClass symbol)
          ⟨quote, (env.time world).after lifetime⟩⟩ := by
  constructor
  · intro other code entry found
    rw [get?_insert_priceKey] at found
    rw [memo_fetched]
    by_cases same : other = assetClass ∧ code = symbol
    · rw [if_pos same] at found ⊢
      exact found
    · rw [if_neg same] at found ⊢
      exact agrees.stored other code entry found
  · intro other code entry absent remembered
    rw [get?_insert_priceKey] at absent
    rw [memo_fetched] at remembered
    by_cases same : other = assetClass ∧ code = symbol
    · rw [if_pos same] at absent
      cases absent
    · rw [if_neg same] at absent remembered
      exact (agrees.later forward).missing other code entry absent remembered

/-- Asking the inner source again keeps the agreement. -/
theorem refetched
    (agrees : env.Agrees lifetime state)
    (assetClass : AssetClass)
    (symbol : String) :
    env.Agrees lifetime
      (env.refetch lifetime state assetClass symbol).2 := by
  have forward := env.inner_forward assetClass symbol state.world
  change env.time state.world ≤
    env.time (env.ask assetClass symbol state.world).2 at forward
  unfold Environment.refetch
  cases asked : env.ask assetClass symbol state.world with
  | mk answer world =>
      rw [asked] at forward
      cases answer with
      | error error =>
          exact agrees.failed forward assetClass symbol error
      | ok quote =>
          exact agrees.fetched forward assetClass symbol quote

end Agrees

/-! ## One step -/

variable {env lifetime}

/-- A sweep removes nothing that is fresh. -/
theorem Agrees.swept
    {state : RunState World}
    (agrees : env.Agrees lifetime state) :
    env.Agrees lifetime
      { state with
        table :=
          (state.table.dropExpired (env.time state.world)).2 } := by
  apply agrees.removed
  · intro key entry found
    change (Table.filter state.table _).get? key = _ at found
    rw [Table.get?_filter, Option.filter_eq_some_iff] at found
    exact found.1
  · intro key entry absent found fresh
    change (Table.filter state.table _).get? key = _ at absent
    rw [Table.get?_filter, found] at absent
    simp [Option.filter, fresh] at absent

/-- Taking out an expired entry removes nothing that is fresh. -/
theorem Agrees.evicted
    {state : RunState World}
    (agrees : env.Agrees lifetime state)
    {evictedKey : String}
    {expired : CachedQuote}
    (found : state.table.get? evictedKey = some expired)
    (notFresh : ¬ expired.IsFresh (env.time state.world)) :
    env.Agrees lifetime
      { state with table := state.table.erase evictedKey } := by
  apply agrees.removed
  · intro key entry kept
    rw [Table.get?_erase] at kept
    split at kept
    · cases kept
    · exact kept
  · intro key entry absent before
    rw [Table.get?_erase] at absent
    split at absent
    next same =>
      rw [same, found] at before
      cases before
      exact notFresh
    next =>
      rw [before] at absent
      cases absent

/-- Asking the inner source is seen the same, whatever the store holds. -/
private theorem refetch_simulates
    {state : RunState World}
    (agrees : env.Agrees lifetime state)
    (assetClass : AssetClass)
    (symbol : String) :
    ∃ answer next,
      env.refetch lifetime state assetClass symbol = (answer, next) ∧
        env.Agrees lifetime next ∧
        env.answerFrom state.world state.calls assetClass symbol none =
          (answer, next.world, next.calls) := by
  refine ⟨(env.refetch lifetime state assetClass symbol).1,
    (env.refetch lifetime state assetClass symbol).2, rfl,
    agrees.refetched assetClass symbol, ?_⟩
  unfold refetch answerFrom
  cases env.ask assetClass symbol state.world with
  | mk answer world =>
      cases answer <;> rfl

/-- A request is answered the same from the store and from the memo. -/
private theorem fetch_simulates
    {state : RunState World}
    (agrees : env.Agrees lifetime state)
    (assetClass : AssetClass)
    (symbol : String) :
    ∃ answer next,
      ((env.caching lifetime).fetch assetClass symbol).run state =
          (answer, next) ∧
        env.Agrees lifetime next ∧
        env.answerFrom state.world state.calls assetClass
            (normalCode symbol)
            ((memo lifetime state.calls assetClass
              (normalCode symbol)).filter
                fun entry => entry.IsFresh (env.time state.world)) =
          (answer, next.world, next.calls) := by
  rw [env.fetch_run]
  dsimp only
  rw [env.lookup_run, agrees.fresh_eq]
  cases found :
      state.table.get? (priceKey assetClass (normalCode symbol)) with
  | none =>
      exact refetch_simulates agrees assetClass (normalCode symbol)
  | some entry =>
      by_cases fresh : entry.IsFresh (env.time state.world)
      · refine ⟨.ok entry.quote, state, ?_, agrees, ?_⟩
        · simp only [fresh, if_true]
        · simp only [Option.filter, fresh, decide_true, if_true]
          rfl
      · simp only [Option.filter, fresh, decide_false, if_false]
        exact refetch_simulates (agrees.evicted found fresh) assetClass
          (normalCode symbol)

/-- Each step of the source is a step of the memo. -/
theorem perform_simulates
    {state : RunState World}
    (agrees : env.Agrees lifetime state)
    (step : RunStep env) :
    ∃ answer next,
      (env.perform lifetime step).run state = (answer, next) ∧
        env.Agrees lifetime next ∧
        env.performIdeal lifetime step (state.world, state.calls) =
          (answer, next.world, next.calls) := by
  cases step with
  | sweep =>
      exact ⟨none, _, env.sweep_run lifetime state, agrees.swept, rfl⟩
  | pass next forward =>
      exact ⟨none, { state with world := next state.world }, rfl,
        agrees.later (forward state.world), rfl⟩
  | request assetClass symbol =>
      obtain ⟨answer, next, fetched, stillAgrees, ideal⟩ :=
        fetch_simulates agrees assetClass symbol
      refine ⟨some answer, next, ?_, stillAgrees, ?_⟩
      · change Prod.map some id
          (((env.caching lifetime).fetch assetClass symbol).run state) = _
        rw [fetched]
        rfl
      · simp only [performIdeal, ideal]

/-! ## Whole runs -/

/-- The memo does not see sweeps. -/
private theorem performIdeal_of_isSweep
    {step : RunStep env}
    {seen : World × List Call}
    (isSweep : step.isSweep) :
    env.performIdeal lifetime step seen = (none, seen) := by
  cases step with
  | sweep =>
      rfl
  | request assetClass symbol =>
      cases isSweep
  | pass next forward =>
      cases isSweep

/-- A run of the source is a run of the memo that leaves out the sweeps. -/
theorem play_simulates
    {state : RunState World}
    (agrees : env.Agrees lifetime state)
    (steps : List (RunStep env)) :
    ∃ answers final,
      (play (env.perform lifetime) steps).run state = (answers, final) ∧
        env.Agrees lifetime final ∧
        (play (env.performIdeal lifetime)
            (steps.filter (!·.isSweep))).run (state.world, state.calls) =
          (answers, final.world, final.calls) := by
  -- the agreement of store and memo carries the induction over the steps
  induction steps generalizing state with
  | nil =>
      exact ⟨[], state, rfl, agrees, rfl⟩
  | cons step rest inductionHypothesis =>
      obtain ⟨answer, next, performed, nextAgrees, ideal⟩ :=
        perform_simulates agrees step
      obtain ⟨answers, final, played, finalAgrees, idealRest⟩ :=
        inductionHypothesis nextAgrees
      refine ⟨answer.toList ++ answers, final, ?_, finalAgrees, ?_⟩
      · rw [play_cons_run, performed]
        dsimp only
        rw [played]
      · by_cases isSweep : step.isSweep
        · -- the memo does not see the sweep
          rw [performIdeal_of_isSweep isSweep] at ideal
          simp only [Prod.mk.injEq] at ideal
          obtain ⟨rfl, sameWorld, sameCalls⟩ := ideal
          rw [List.filter_cons_of_neg (by simpa using isSweep), sameWorld,
            sameCalls]
          exact idealRest
        · rw [List.filter_cons_of_pos (by simpa using isSweep),
            play_cons_run]
          change (let (first, seen) :=
              env.performIdeal lifetime step (state.world, state.calls)
            let (others, last) :=
              (play (env.performIdeal lifetime)
                (rest.filter (!·.isSweep))).run seen
            (first.toList ++ others, last)) = _
          rw [ideal]
          dsimp only
          rw [idealRest]

/--
A caching source is a memo: every run of requests, sweeps and changes of the
world has the answers and the calls that the memo has without the sweeps.  Runs
that differ in their sweeps only cannot be told apart.
-/
theorem outcome_eq_idealOutcome
    (env : Environment World)
    (lifetime : Span)
    (world : World)
    (steps : List (RunStep env)) :
    env.outcome lifetime world steps =
      env.idealOutcome lifetime world (steps.filter (!·.isSweep)) ∧
    ∀ others : List (RunStep env),
      others.filter (!·.isSweep) = steps.filter (!·.isSweep) →
        env.outcome lifetime world others =
          env.outcome lifetime world steps := by
  have ideal
      (played : List (RunStep env)) :
      env.outcome lifetime world played =
        env.idealOutcome lifetime world (played.filter (!·.isSweep)) := by
    obtain ⟨answers, final, real, -, memoized⟩ :=
      play_simulates (@Agrees.start _ env lifetime world) played
    unfold outcome idealOutcome
    rw [real, memoized]
  refine ⟨ideal steps, fun others sameRequests => ?_⟩
  rw [ideal others, ideal steps, sameRequests]

end Environment

/-! ## A request when its quote expires -/

/-- The start of 1970, and twenty minutes later. -/
def sampleTime
    (late : Bool) :
    Instant :=
  if late then
    (Instant.ofParts? 1200 0).getD .epoch
  else
    .epoch

/-- A source that always has a quote, in a world that is late or not. -/
def sampleEnvironment :
    Environment Bool where
  time :=
    sampleTime
  inner :=
    { name := "sample"
      price := fun assetClass symbol late =>
        let quote :=
          ⟨assetClass, symbol, symbol, .one, "USD", sampleTime late, "sample"⟩
        (.ok quote, late) }
  inner_forward := by
    intro assetClass symbol late
    change sampleTime late ≤ sampleTime late
    cases late <;> decide

/-- Twenty minutes pass. -/
def wait :
    RunStep sampleEnvironment :=
  .pass (fun _ => true) (by decide)

/--
A quote that stays fresh for twenty minutes serves the second spelling of its
symbol, but no request twenty minutes later, whether or not it has been swept
away.
-/
theorem outcome_eq_idealOutcome_of_expired :
    let swept : List (RunStep sampleEnvironment) :=
      [.request .stock "aapl", .sweep, .request .stock " AAPL", wait,
        .sweep, .request .stock "Aapl"]
    let unswept : List (RunStep sampleEnvironment) :=
      [.request .stock "aapl", .request .stock " AAPL", wait,
        .request .stock "Aapl"]
    let outcome := sampleEnvironment.outcome .twentyMinutes false
    outcome swept = outcome unswept ∧
      (outcome unswept).answers.length = 3 ∧
      (outcome unswept).calls.map (·.completed.seconds) = [0, 1200] := by
  intro swept unswept outcome
  have same :=
    (Environment.outcome_eq_idealOutcome sampleEnvironment .twentyMinutes
      false unswept).2 swept rfl
  refine ⟨same, ?_, ?_⟩
  · decide +kernel
  · decide +kernel

end CachingSource

end NetWorth
