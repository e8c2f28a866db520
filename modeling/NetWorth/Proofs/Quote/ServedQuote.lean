import Mathlib
import NetWorth.Proofs.Quote.Interleaving
import NetWorth.Proofs.Quote.Memo

/-!
# Where a served quote comes from

However requests and sweeps are interleaved, a request is answered with a quote
that the inner source gave for its own class and symbol: to the request itself,
or to an earlier one whose entry it has found fresh.
-/

namespace NetWorth.Interleaving

variable {state : State}

/--
How a quote gets from one task to another.  The first one asks, reads the clock
and writes the quote; later the second one reads this entry and then the clock,
and takes no further step.  The clock shows a time before the entry expires.
-/
structure Handed
    (log : List Occurrence)
    (source reader : Nat)
    (lifetime : Span)
    (assetClass : AssetClass)
    (code : String)
    (quote : Quote)
    (completed checked : Instant) :
    Prop where
  fetched :
    [⟨.ask assetClass code, .ok quote⟩, ⟨.readClock, completed⟩,
        ⟨.set (priceKey assetClass code) ⟨quote, completed.after lifetime⟩,
          .ok ()⟩] <:+:
      steps source log
  served :
    steps reader log =
      [⟨.get (priceKey assetClass code),
          .ok (some ⟨quote, completed.after lifetime⟩)⟩,
        ⟨.readClock, checked⟩]
  ordered :
    [⟨source, ⟨.ask assetClass code, .ok quote⟩⟩,
        ⟨source, ⟨.readClock, completed⟩⟩,
        ⟨source, ⟨.set (priceKey assetClass code)
          ⟨quote, completed.after lifetime⟩, .ok ()⟩⟩,
        ⟨reader, ⟨.get (priceKey assetClass code),
          .ok (some ⟨quote, completed.after lifetime⟩)⟩⟩,
        ⟨reader, ⟨.readClock, checked⟩⟩].Sublist
      log
  fresh :
    checked < completed.after lifetime

/-- An entry is written by a request that has just fetched its quote. -/
theorem fetched_of_written
    {job : Job}
    {earlier later : List Exchange}
    {rest : Script job.Result}
    {key : String}
    {entry : CachedQuote}
    {response : Except String Unit}
    (reached :
      job.script.Reaches (earlier ++ ⟨.set key entry, response⟩ :: later)
        rest) :
    ∃ (missed : List Exchange) (lifetime : Span) (assetClass : AssetClass)
      (symbol : String) (quote : Quote) (completed : Instant),
      job = .request lifetime assetClass symbol ∧
        key = priceKey assetClass (normalCode symbol) ∧
        entry = ⟨quote, completed.after lifetime⟩ ∧
        earlier =
          missed ++
            [⟨.ask assetClass (normalCode symbol), .ok quote⟩,
              ⟨.readClock, completed⟩] := by
  obtain ⟨next, reachedSet⟩ := reached.before
  cases job with
  | request lifetime assetClass symbol =>
      have step :
          Script.RequestStep lifetime assetClass (normalCode symbol) earlier
            (.set key entry) :=
        Script.request_stage reachedSet
      cases step with
      | keep miss quote now =>
          exact ⟨_, lifetime, assetClass, symbol, quote, now, rfl, rfl, rfl,
            rfl⟩
  | sweep =>
      obtain same | ⟨now, same, -⟩ := Script.sweep_next reachedSet
      · cases same
      · cases same

/-- What a task has read before a reading of the clock has been handed to it. -/
theorem exists_handed
    (sound : Sound state)
    {index : Nat}
    {assetClass : AssetClass}
    {code : String}
    {entry : CachedQuote}
    {checked : Instant}
    (isLog :
      steps index state.log =
        [⟨.get (priceKey assetClass code), .ok (some entry)⟩,
          ⟨.readClock, checked⟩])
    (fresh : entry.IsFresh checked) :
    ∃ source sourceLifetime spelling completed,
      state.tasks[source]?.map Task.job =
          some (.request sourceLifetime assetClass spelling) ∧
        normalCode spelling = code ∧
        Handed state.log source index sourceLifetime assetClass code
          entry.quote completed checked := by
  obtain ⟨earlier, later, sameLog, isLater⟩ := exists_first_step isLog
  obtain ⟨source, written⟩ := sound.found earlier later index _ entry sameLog
  -- the writer is a task that has come to the write through its own steps
  have inLog :
      ⟨source, ⟨.set (priceKey assetClass code) entry, .ok ()⟩⟩ ∈
        state.log :=
    sameLog ▸ List.mem_append_left _ written
  have inRange := sound.owned _ inLog
  have isTask := List.getElem?_eq_getElem inRange
  obtain ⟨before, afterwards, sameSteps⟩ :=
    List.append_of_mem (mem_steps.mpr written)
  obtain ⟨rest, allSteps⟩ :
      ∃ rest,
        steps source state.log =
          before ++ ⟨.set (priceKey assetClass code) entry, .ok ()⟩ :: rest :=
    ⟨_, by
      rw [sameLog, steps_append, sameSteps, List.append_assoc,
        List.cons_append]⟩
  have reached := sound.reached source _ isTask
  rw [allSteps] at reached
  obtain ⟨missed, lifetime, sourceClass, spelling, quote, completed, sameJob,
    sameKey, rfl, rfl⟩ := fetched_of_written reached
  obtain ⟨rfl, rfl⟩ := priceKey_injective sameKey
  refine ⟨source, lifetime, spelling, completed, ?_, rfl, ?_, isLog, ?_, fresh⟩
  · rw [isTask, Option.map_some, sameJob]
  · rw [allSteps]
    exact ⟨missed, rest, by simp⟩
  · have fetchedFirst :
        [⟨.ask assetClass (normalCode spelling), .ok quote⟩,
            ⟨.readClock, completed⟩,
            ⟨.set (priceKey assetClass (normalCode spelling))
              ⟨quote, completed.after lifetime⟩, .ok ()⟩].Sublist
          (steps source earlier) := by
      rw [sameSteps]
      exact List.IsInfix.sublist ⟨missed, afterwards, by simp⟩
    have checkedLast :
        [⟨.readClock, checked⟩].Sublist (steps index later) := by
      rw [isLater]
    rw [sameLog]
    exact (sublist_log_of_sublist_steps fetchedFirst).append
      ((sublist_log_of_sublist_steps checkedLast).cons_cons _)

/--
In every interleaving of requests and sweeps on a store that was empty, a
request that is answered with a quote has been given it by the inner source, for
its own class and normalised symbol, or has been handed it by an earlier request
for the same class and normalised symbol before it expired.
-/
theorem served_quote_fetched
    {time : Instant}
    {events : List Event}
    {index : Nat}
    {lifetime : Span}
    {assetClass : AssetClass}
    {symbol : String}
    {quote : Quote}
    (ran : (State.start time).run? events = some state)
    (answered :
      state.tasks[index]? =
        some ⟨.request lifetime assetClass symbol, .done (.ok quote)⟩) :
    ⟨index, ⟨.ask assetClass (normalCode symbol), .ok quote⟩⟩ ∈ state.log ∨
      ∃ source sourceLifetime spelling completed checked,
        state.tasks[source]?.map Task.job =
            some (.request sourceLifetime assetClass spelling) ∧
          normalCode spelling = normalCode symbol ∧
          Handed state.log source index sourceLifetime assetClass
            (normalCode symbol) quote completed checked := by
  have sound := (Sound.start time).run ran
  have stage :
      Script.RequestAnswer lifetime assetClass (normalCode symbol)
        (steps index state.log) (.ok quote) :=
    Script.request_stage (sound.reached index _ answered)
  generalize isLog : steps index state.log = own at stage
  cases stage with
  | kept miss _ completed response =>
      left
      rw [← mem_steps, isLog]
      simp
  | served entry checked fresh =>
      right
      obtain ⟨source, sourceLifetime, spelling, completed, isRequest,
        sameCode, handed⟩ := exists_handed sound isLog fresh
      exact ⟨source, sourceLifetime, spelling, completed, checked, isRequest,
        sameCode, handed⟩

/-! ## A second spelling while a sweep is under way -/

/-- A quote for one symbol. -/
def sharedQuote : Quote :=
  ⟨.stock, "AAPL", "Apple", .one, "USD", .epoch, "sample"⟩

/-- A sweep reads the clock; one request fetches the quote; another one reads
it, waits for the sweep and then looks at the clock. -/
def sharing : List Event :=
  [.start (.request .twentyMinutes .stock "aapl"),
    .start (.request .twentyMinutes .stock " AAPL"),
    .start .sweep,
    .advance 2 (.ok sharedQuote),
    .advance 0 (.ok sharedQuote),
    .advance 0 (.ok sharedQuote),
    .advance 0 (.ok sharedQuote),
    .advance 0 (.ok sharedQuote),
    .advance 1 (.ok sharedQuote),
    .advance 2 (.ok sharedQuote),
    .advance 1 (.ok sharedQuote)]

/-- The state after these events. -/
def shared : State :=
  ((State.start .epoch).run? sharing).get (by decide +kernel)

theorem tasks_shared :
    shared.tasks[1]? =
      some ⟨.request .twentyMinutes .stock " AAPL",
        .done (.ok sharedQuote)⟩ := by
  exact rfl

/-- The second request has asked nobody and been handed the quote of the first
one. -/
theorem served_quote_fetched_by_other_spelling :
    (State.start .epoch).run? sharing = some shared ∧
      shared.tasks[1]? =
        some ⟨.request .twentyMinutes .stock " AAPL",
          .done (.ok sharedQuote)⟩ ∧
      ∃ source sourceLifetime spelling completed checked,
        shared.tasks[source]?.map Task.job =
            some (.request sourceLifetime .stock spelling) ∧
          normalCode spelling = normalCode " AAPL" ∧
          Handed shared.log source 1 sourceLifetime .stock
            (normalCode " AAPL") sharedQuote completed checked := by
  have ran : (State.start .epoch).run? sharing = some shared :=
    (Option.some_get _).symm
  have ownSteps :
      (steps 1 shared.log).map Exchange.action =
        [.get "stock_AAPL", .readClock] := by
    decide +kernel
  refine ⟨ran, tasks_shared,
    (served_quote_fetched ran tasks_shared).resolve_left ?_⟩
  intro asked
  have isOwn :=
    List.mem_map_of_mem (f := Exchange.action) (mem_steps.mpr asked)
  rw [ownSteps] at isOwn
  simp at isOwn

end NetWorth.Interleaving
