import Mathlib
import NetWorth.Proofs.Quote.Script

/-!
# A store is never a hindrance

The store of a caching source may do anything: each call may fail, and a look-up
may find any entry.  A request reads the store once, before all else.  An entry
that it is given is compared with the clock, and served if it is fresh.  In every
other case, whatever the store says to an eviction or a write, the request is
answered by one call of the inner source, as if there were no store.
-/

namespace NetWorth

namespace Script

/-- The calls of the inner source in a history, with their answers. -/
def asked
    (history : List Exchange) :
    List (AssetClass × String × PriceAnswer) :=
  history.filterMap fun
    | ⟨.ask assetClass symbol, answer⟩ => some (assetClass, symbol, answer)
    | _ => none

section Courses

variable
  (lifetime : Span)
  (assetClass : AssetClass)
  (code : String)
  (answer : PriceAnswer)

/--
What a request does without a fresh entry: it calls the inner source, and passes
on what that answers.  A quote is stamped by the clock and then written, and the
store may say anything to that.  An error is the end of the request.
-/
def Fetched
    (history : List Exchange) :
    Prop :=
  ∃ later,
    history = ⟨.ask assetClass code, answer⟩ :: later ∧
      match answer with
      | .error _ => later = []
      | .ok quote =>
          ∃ (now : Instant) (response : Except String Unit),
            later =
              [⟨.readClock, now⟩,
                ⟨.set (priceKey assetClass code) ⟨quote, now.after lifetime⟩,
                  response⟩]

/--
What a request does with an entry: it reads the clock.  A fresh entry is served,
and that is the end of the request.  Any other is evicted, and whatever the store
says to that, the request goes on without it.
-/
def Compared
    (entry : CachedQuote)
    (history : List Exchange) :
    Prop :=
  ∃ (now : Instant) (later : List Exchange),
    history = ⟨.readClock, now⟩ :: later ∧
      (entry.IsFresh now → answer = .ok entry.quote ∧ later = []) ∧
      (¬ entry.IsFresh now →
        ∃ (response : Except String Bool) (fetched : List Exchange),
          later =
              ⟨.deleteIfExpired (priceKey assetClass code) now, response⟩ ::
                fetched ∧
            Fetched lifetime assetClass code answer fetched)

/-- What a request does after a look-up, by what the look-up was answered with. -/
def Resumed
    (history : List Exchange) :
    Except String (Option CachedQuote) → Prop
  | .ok (some entry) =>
      Compared lifetime assetClass code answer entry history
  | .ok none => Fetched lifetime assetClass code answer history
  | .error _ => Fetched lifetime assetClass code answer history

end Courses

/--
A request is answered in spite of its store.  It begins with a look-up, and goes
on by what that was answered with: with an entry it compares it, and with
anything else it fetches.  An error is always the answer of the inner source to
the one call that was made.
-/
structure Unhindered
    (lifetime : Span)
    (assetClass : AssetClass)
    (symbol : String)
    (answer : PriceAnswer)
    (history : List Exchange) :
    Prop where
  course :
    ∃ found rest,
      history =
          ⟨.get (priceKey assetClass (normalCode symbol)), found⟩ :: rest ∧
        Resumed lifetime assetClass (normalCode symbol) answer rest found
  refused :
    ∀ error,
      answer = .error error →
        asked history = [(assetClass, normalCode symbol, .error error)]

/-! ## The history of a request -/

/-- After a look-up that has missed, a request goes on by fetching. -/
theorem exists_resumed_of_missed
    {lifetime : Span}
    {assetClass : AssetClass}
    {code : String}
    {answer : PriceAnswer}
    {missed later : List Exchange}
    (miss : Missed (priceKey assetClass code) missed)
    (fetched : Fetched lifetime assetClass code answer later) :
    ∃ found rest,
      missed ++ later = ⟨.get (priceKey assetClass code), found⟩ :: rest ∧
        Resumed lifetime assetClass code answer rest found := by
  cases miss with
  | absent response notFound =>
      refine ⟨response, later, rfl, ?_⟩
      rcases response with error | _ | entry
      · exact fetched
      · exact fetched
      · exact absurd rfl (notFound entry)
  | expired entry now response notFresh =>
      exact ⟨.ok (some entry), _, rfl, now, _, rfl,
        fun fresh => absurd fresh notFresh,
        fun _ => ⟨response, later, rfl, fetched⟩⟩

theorem asked_of_missed
    {key : String}
    {missed rest : List Exchange}
    (miss : Missed key missed) :
    asked (missed ++ rest) = asked rest := by
  cases miss <;> rfl

/-- Whatever is answered to its steps, a request is unhindered. -/
theorem unhindered_of_requestAnswer
    {lifetime : Span}
    {assetClass : AssetClass}
    {symbol : String}
    {history : List Exchange}
    {answer : PriceAnswer}
    (answered :
      RequestAnswer lifetime assetClass (normalCode symbol) history answer) :
    Unhindered lifetime assetClass symbol answer history := by
  cases answered with
  | served entry now fresh =>
      refine ⟨⟨.ok (some entry), _, rfl, now, [], rfl, fun _ => ⟨rfl, rfl⟩,
        fun notFresh => absurd fresh notFresh⟩, fun error isError => ?_⟩
      cases isError
  | failed miss error =>
      refine ⟨exists_resumed_of_missed miss ⟨[], rfl, rfl⟩,
        fun other isError => ?_⟩
      cases isError
      exact asked_of_missed miss
  | kept miss quote now response =>
      refine ⟨exists_resumed_of_missed miss ⟨_, rfl, now, response, rfl⟩,
        fun error isError => ?_⟩
      cases isError

end Script

namespace CachingSource

variable {World : Type}

/-- A request with a record of its steps. -/
def recordedPrice
    (c : CachingSource (StateM World))
    (assetClass : AssetClass)
    (symbol : String) :
    StateM World (PriceAnswer × List Exchange) :=
  (Script.request c.lifetime assetClass symbol).record c.perform

/-- The record changes neither the answer nor the world. -/
theorem recordedPrice_run
    (c : CachingSource (StateM World))
    (assetClass : AssetClass)
    (symbol : String)
    (world : World) :
    (c.source.price assetClass symbol).run world =
      (((c.recordedPrice assetClass symbol).run world).1.1,
        ((c.recordedPrice assetClass symbol).run world).2) := by
  rw [← run_request, ← Script.fst_record]
  rfl

theorem recordedPrice_unhindered
    (c : CachingSource (StateM World))
    (assetClass : AssetClass)
    (symbol : String)
    (world : World) :
    Script.Unhindered c.lifetime assetClass symbol
      ((c.recordedPrice assetClass symbol).run world).1.1
      ((c.recordedPrice assetClass symbol).run world).1.2 :=
  Script.unhindered_of_requestAnswer
    (Script.request_stage (Script.reaches_of_record _ _ world))

/--
Whatever the store, the clock and the inner source of a caching source do, each
request of a run is answered in spite of its store.
-/
theorem requests_unhindered
    (c : CachingSource (StateM World))
    (requests : List (AssetClass × String))
    (world : World) :
    let recorded :=
      (requests.mapM fun request =>
        c.recordedPrice request.1 request.2).run world
    (requests.mapM fun request =>
        c.source.price request.1 request.2).run world =
        (recorded.1.map Prod.fst, recorded.2) ∧
      List.Forall₂
        (fun request outcome =>
          Script.Unhindered c.lifetime request.1 request.2 outcome.1
            outcome.2)
        requests recorded.1 := by
  induction requests generalizing world with
  | nil =>
      exact ⟨rfl, .nil⟩
  | cons request rest inductionHypothesis =>
      obtain ⟨assetClass, symbol⟩ := request
      obtain ⟨sameRun, unhindered⟩ :=
        inductionHypothesis ((c.recordedPrice assetClass symbol).run world).2
      rw [run_mapM_cons, run_mapM_cons, recordedPrice_run]
      dsimp only
      rw [sameRun]
      exact ⟨rfl, .cons (c.recordedPrice_unhindered assetClass symbol world)
        unhindered⟩

/-- A quote at a price of one dollar. -/
def oneDollar :
    Quote :=
  ⟨.stock, "AAPL", "Apple", .one, "USD", .epoch, "sample"⟩

/-- A source that quotes one dollar, behind a store from which an old entry can be
neither removed nor replaced. -/
def behindStuckStore :
    CachingSource (StateM Unit) where
  inner := ⟨"inner", fun _ _ => return .ok oneDollar⟩
  store :=
    { get := fun _ => return .ok (some ⟨oneDollar, .epoch⟩)
      set := fun _ _ => return .error "stuck"
      delete := fun _ => return .error "stuck"
      deleteIfExpired := fun _ _ => return .error "stuck"
      deleteExpired := fun _ => return .error "stuck" }
  clock := ⟨return .epoch⟩
  lifetime := .twentyMinutes

example :
    let outcome := ((behindStuckStore.recordedPrice .stock " aapl").run ()).1
    outcome.1 = .ok oneDollar ∧
      outcome.2.map Exchange.action =
        [.get "stock_AAPL", .readClock, .deleteIfExpired "stock_AAPL" .epoch,
          .ask .stock "AAPL", .readClock,
          .set "stock_AAPL" ⟨oneDollar, Instant.epoch.after .twentyMinutes⟩] := by
  decide +kernel

end CachingSource

end NetWorth
