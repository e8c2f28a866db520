import Mathlib
import NetWorth.Quote.Caching

/-!
# Requests as scripts of atomic steps

A caching source runs in any monad.  Here it runs in the monad of scripts,
which takes no step by itself: a script is either done or names its next
atomic step and says how it goes on after each answer.  Whoever runs a script
decides what is answered and what happens in between, so the same script can be
interleaved with others or be given a store that fails.
-/

namespace NetWorth

/-- Steps one after the other are the first one and a run of the others. -/
theorem run_mapM_cons
    {World Item Result : Type}
    (step : Item → StateM World Result)
    (first : Item)
    (others : List Item)
    (world : World) :
    ((first :: others).mapM step).run world =
      (((step first).run world).1 ::
          ((others.mapM step).run ((step first).run world).2).1,
        ((others.mapM step).run ((step first).run world).2).2) := by
  rw [List.mapM_cons]
  rfl

/-- An atomic step that a request or a sweep takes in its surroundings. -/
inductive Action where
  | get (key : String)
  | set (key : String) (entry : CachedQuote)
  | delete (key : String)
  | deleteIfExpired (key : String) (now : Instant)
  | deleteExpired (now : Instant)
  | readClock
  | ask (assetClass : AssetClass) (symbol : String)
  deriving DecidableEq

/-- What a step is answered with. -/
abbrev Action.Response :
    Action → Type
  | .get _ => Except String (Option CachedQuote)
  | .set _ _ => Except String Unit
  | .delete _ => Except String Unit
  | .deleteIfExpired _ _ => Except String Bool
  | .deleteExpired _ => Except String Nat
  | .readClock => Instant
  | .ask _ _ => PriceAnswer

/-- A step that has been taken, with its answer. -/
structure Exchange where
  action : Action
  response : action.Response

/-- A script: a result, or a next step and a script for each answer. -/
inductive Script
    (α : Type) where
  | done (result : α)
  | act
      (action : Action)
      (next : action.Response → Script α)

namespace Script

variable {α β : Type}

/-- Goes on with the result of a script. -/
def bind :
    Script α → (α → Script β) → Script β
  | .done result, rest => rest result
  | .act action next, rest =>
      .act action fun response => (next response).bind rest

instance : Monad Script where
  pure := .done
  bind := bind

/-- A single step. -/
def step
    (action : Action) :
    Script action.Response :=
  .act action .done

/-- A store whose calls are steps. -/
def store :
    QuoteStore Script where
  get key := step (.get key)
  set key entry := step (.set key entry)
  delete key := step (.delete key)
  deleteIfExpired key now := step (.deleteIfExpired key now)
  deleteExpired now := step (.deleteExpired now)

/-- A clock whose readings are steps. -/
def clock :
    Clock Script where
  now := step .readClock

/-- A source whose calls are steps. -/
def source :
    PriceSource Script where
  name := "inner"
  price assetClass symbol := step (.ask assetClass symbol)

/-- The caching source of which every step is left to the surroundings. -/
def caching
    (lifetime : Span) :
    CachingSource Script where
  inner := source
  store := store
  clock := clock
  lifetime := lifetime

/-- A request to a caching source. -/
def request
    (lifetime : Span)
    (assetClass : AssetClass)
    (symbol : String) :
    Script PriceAnswer :=
  (caching lifetime).source.price assetClass symbol

/-- A sweep. -/
def sweep :
    Script (Except String Nat) :=
  sweepOnce store clock

/-! ## The steps of a request -/

/-- Keeps a fetched quote, and answers with it whatever the store says. -/
def keep
    (lifetime : Span)
    (key : String)
    (quote : Quote) :
    Script PriceAnswer :=
  .act .readClock fun (now : Instant) =>
    .act (.set key ⟨quote, now.after lifetime⟩) fun _ =>
      .done (.ok quote)

/-- Asks the inner source for a normalised symbol. -/
def refetch
    (lifetime : Span)
    (assetClass : AssetClass)
    (code : String) :
    Script PriceAnswer :=
  .act (.ask assetClass code) fun
    | .error error => .done (.error error)
    | .ok quote => keep lifetime (priceKey assetClass code) quote

/-- Serves an entry that has been read if it is fresh, and otherwise takes it
out and asks. -/
def serve
    (lifetime : Span)
    (assetClass : AssetClass)
    (code : String)
    (entry : CachedQuote) :
    Script PriceAnswer :=
  .act .readClock fun (now : Instant) =>
    if entry.IsFresh now then
      .done (.ok entry.quote)
    else
      .act (.deleteIfExpired (priceKey assetClass code) now) fun _ =>
        refetch lifetime assetClass code

private theorem refetch_eq
    (lifetime : Span)
    (assetClass : AssetClass)
    (code : String) :
    (do
      match ← (caching lifetime).inner.price assetClass code with
      | .error error => return .error error
      | .ok quote =>
          let now ← (caching lifetime).clock.now
          let _ ← (caching lifetime).store.set (priceKey assetClass code)
            ⟨quote, now.after (caching lifetime).lifetime⟩
          return .ok quote) =
      refetch lifetime assetClass code := by
  change Script.act _ _ = Script.act _ _
  congr 1
  funext answer
  cases answer <;> rfl

/-- A request reads the store first. -/
theorem request_eq
    (lifetime : Span)
    (assetClass : AssetClass)
    (symbol : String) :
    request lifetime assetClass symbol =
      .act (.get (priceKey assetClass (normalCode symbol))) fun
        | .ok (some entry) =>
            serve lifetime assetClass (normalCode symbol) entry
        | _ => refetch lifetime assetClass (normalCode symbol) := by
  have asked := refetch_eq lifetime assetClass (normalCode symbol)
  change Script.act _ _ = Script.act _ _
  congr 1
  funext response
  rcases response with error | _ | entry
  · exact asked
  · exact asked
  · change Script.act _ _ = Script.act _ _
    congr 1
    funext now
    by_cases fresh : entry.IsFresh now
    · simp only [bind, fresh, if_true]
      rfl
    · simp only [bind, fresh, if_false]
      change Script.act _ _ = Script.act _ _
      congr 1
      funext _
      exact asked

/-- A sweep reads the clock and then removes what has expired by then. -/
theorem sweep_eq :
    sweep = .act .readClock fun now => step (.deleteExpired now) :=
  rfl

/-! ## Running a script -/

variable {m : Type → Type} [Monad m]

/-- Takes the steps of a script in a monad. -/
def run
    (perform : (action : Action) → m action.Response) :
    Script α → m α
  | .done result => return result
  | .act action next => do
      let response ← perform action
      (next response).run perform

/-- Takes the steps of a script in a monad and keeps record of them. -/
def record
    (perform : (action : Action) → m action.Response) :
    Script α → m (α × List Exchange)
  | .done result => return (result, [])
  | .act action next => do
      let response ← perform action
      let (result, history) ← (next response).record perform
      return (result, ⟨action, response⟩ :: history)

/-- The record does not change the run. -/
theorem fst_record
    [LawfulMonad m]
    (perform : (action : Action) → m action.Response)
    (script : Script α) :
    Prod.fst <$> script.record perform = script.run perform := by
  induction script with
  | done result =>
      simp [record, run]
  | act action next inductionHypothesis =>
      simp only [record, run, map_bind, map_pure]
      congr 1
      funext response
      rw [← inductionHypothesis response, map_eq_pure_bind]

/-! ## Histories -/

/-- Through a history of steps and their answers, a script gets to what is left
of it. -/
inductive Reaches :
    Script α → List Exchange → Script α → Prop where
  | start
      (script : Script α) :
      Reaches script [] script
  | act
      {action : Action}
      {next : action.Response → Script α}
      {history : List Exchange}
      {rest : Script α}
      (response : action.Response)
      (reached : Reaches (next response) history rest) :
      Reaches (.act action next) (⟨action, response⟩ :: history) rest

/-- One more step. -/
theorem Reaches.snoc
    {script : Script α}
    {history : List Exchange}
    {action : Action}
    {next : action.Response → Script α}
    (reached : Reaches script history (.act action next))
    (response : action.Response) :
    Reaches script (history ++ [⟨action, response⟩]) (next response) := by
  generalize atStep : Script.act action next = rest at reached
  induction reached with
  | start script =>
      subst atStep
      exact .act response (.start _)
  | act earlier reached inductionHypothesis =>
      exact .act earlier (inductionHypothesis atStep)

/-- Before each step of a history, the script has come to that step. -/
theorem Reaches.before
    {script rest : Script α}
    {earlier later : List Exchange}
    {exchange : Exchange}
    (reached : Reaches script (earlier ++ exchange :: later) rest) :
    ∃ next, Reaches script earlier (.act exchange.action next) := by
  induction earlier generalizing script with
  | nil =>
      cases reached with
      | act response reached =>
          exact ⟨_, .start _⟩
  | cons first earlier inductionHypothesis =>
      cases reached with
      | act response reached =>
          obtain ⟨next, found⟩ := inductionHypothesis reached
          exact ⟨next, .act response found⟩

/-- The record of a run leads from the script to its result. -/
theorem reaches_of_record
    {World : Type}
    (perform : (action : Action) → StateM World action.Response)
    (script : Script α)
    (world : World) :
    Reaches script ((script.record perform).run world).1.2
      (.done ((script.record perform).run world).1.1) := by
  induction script generalizing world with
  | done result =>
      exact .start _
  | act action next inductionHypothesis =>
      exact .act _ (inductionHypothesis _ _)

/-- How a look-up can miss: there is no entry, or it has expired. -/
inductive Missed
    (key : String) :
    List Exchange → Prop where
  | absent
      (response : Except String (Option CachedQuote))
      (notFound : ∀ entry, response ≠ .ok (some entry)) :
      Missed key [⟨.get key, response⟩]
  | expired
      (entry : CachedQuote)
      (now : Instant)
      (response : Except String Bool)
      (notFresh : ¬ entry.IsFresh now) :
      Missed key
        [⟨.get key, .ok (some entry)⟩, ⟨.readClock, now⟩,
          ⟨.deleteIfExpired key now, response⟩]

section Request

variable (lifetime : Span) (assetClass : AssetClass) (code : String)

/-- The step that a request takes next after a history. -/
inductive RequestStep :
    List Exchange → Action → Prop where
  | read :
      RequestStep [] (.get (priceKey assetClass code))
  | check
      (entry : CachedQuote) :
      RequestStep [⟨.get (priceKey assetClass code), .ok (some entry)⟩]
        .readClock
  | evict
      (entry : CachedQuote)
      (now : Instant)
      (notFresh : ¬ entry.IsFresh now) :
      RequestStep
        [⟨.get (priceKey assetClass code), .ok (some entry)⟩,
          ⟨.readClock, now⟩]
        (.deleteIfExpired (priceKey assetClass code) now)
  | ask
      {missed : List Exchange}
      (miss : Missed (priceKey assetClass code) missed) :
      RequestStep missed (.ask assetClass code)
  | stamp
      {missed : List Exchange}
      (miss : Missed (priceKey assetClass code) missed)
      (quote : Quote) :
      RequestStep (missed ++ [⟨.ask assetClass code, .ok quote⟩]) .readClock
  | keep
      {missed : List Exchange}
      (miss : Missed (priceKey assetClass code) missed)
      (quote : Quote)
      (now : Instant) :
      RequestStep
        (missed ++ [⟨.ask assetClass code, .ok quote⟩, ⟨.readClock, now⟩])
        (.set (priceKey assetClass code) ⟨quote, now.after lifetime⟩)

/-- The answer of a request after its whole history. -/
inductive RequestAnswer :
    List Exchange → PriceAnswer → Prop where
  | served
      (entry : CachedQuote)
      (now : Instant)
      (fresh : entry.IsFresh now) :
      RequestAnswer
        [⟨.get (priceKey assetClass code), .ok (some entry)⟩,
          ⟨.readClock, now⟩]
        (.ok entry.quote)
  | failed
      {missed : List Exchange}
      (miss : Missed (priceKey assetClass code) missed)
      (error : PriceError) :
      RequestAnswer (missed ++ [⟨.ask assetClass code, .error error⟩])
        (.error error)
  | kept
      {missed : List Exchange}
      (miss : Missed (priceKey assetClass code) missed)
      (quote : Quote)
      (now : Instant)
      (response : Except String Unit) :
      RequestAnswer
        (missed ++
          [⟨.ask assetClass code, .ok quote⟩, ⟨.readClock, now⟩,
            ⟨.set (priceKey assetClass code) ⟨quote, now.after lifetime⟩,
              response⟩])
        (.ok quote)

/-- What is left of a request fits its history. -/
def RequestStage
    (history : List Exchange) :
    Script PriceAnswer → Prop
  | .done answer => RequestAnswer lifetime assetClass code history answer
  | .act action _ => RequestStep lifetime assetClass code history action

variable {lifetime assetClass code}

private theorem refetch_stage
    {missed history : List Exchange}
    {rest : Script PriceAnswer}
    (miss : Missed (priceKey assetClass code) missed)
    (reached : Reaches (refetch lifetime assetClass code) history rest) :
    RequestStage lifetime assetClass code (missed ++ history) rest := by
  cases reached with
  | start =>
      rw [List.append_nil]
      exact .ask miss
  | act answer reached =>
      rcases answer with error | quote
      · cases reached with
        | start =>
            exact .failed miss error
      · cases reached with
        | start =>
            exact .stamp miss quote
        | act now reached =>
            cases reached with
            | start =>
                exact .keep miss quote now
            | act response reached =>
                cases reached with
                | start =>
                    exact .kept miss quote now response

/-- Whatever is answered, what is left of a request fits its history. -/
theorem request_stage
    {symbol : String}
    {history : List Exchange}
    {rest : Script PriceAnswer}
    (reached : Reaches (request lifetime assetClass symbol) history rest) :
    RequestStage lifetime assetClass (normalCode symbol) history rest := by
  rw [request_eq] at reached
  cases reached with
  | start =>
      exact .read
  | act response reached =>
      rcases response with error | _ | entry
      · exact refetch_stage (.absent (.error error) (by simp)) reached
      · exact refetch_stage (.absent (.ok none) (by simp)) reached
      · cases reached with
        | start =>
            exact .check entry
        | act now reached =>
            by_cases fresh : entry.IsFresh now
            · simp only [fresh, if_true] at reached
              cases reached with
              | start =>
                  exact .served entry now fresh
            · simp only [fresh, if_false] at reached
              cases reached with
              | start =>
                  exact .evict entry now fresh
              | act response reached =>
                  exact refetch_stage (.expired entry now response fresh)
                    reached

end Request

/-- A sweep reads the clock first and then removes what had expired by then. -/
theorem sweep_next
    {history : List Exchange}
    {action : Action}
    {next : action.Response → Script (Except String Nat)}
    (reached : Reaches sweep history (.act action next)) :
    action = .readClock ∨
      ∃ now : Instant,
        action = .deleteExpired now ∧ ⟨.readClock, now⟩ ∈ history := by
  rw [sweep_eq] at reached
  cases reached with
  | start =>
      exact .inl rfl
  | act now reached =>
      cases reached with
      | start =>
          exact .inr ⟨now, rfl, List.mem_singleton.mpr rfl⟩
      | act response reached =>
          cases reached

end Script

namespace CachingSource

variable {m : Type → Type} [Monad m]

/-- Takes a step with the store, the clock and the inner source of a caching
source. -/
def perform
    (c : CachingSource m) :
    (action : Action) → m action.Response
  | .get key => c.store.get key
  | .set key entry => c.store.set key entry
  | .delete key => c.store.delete key
  | .deleteIfExpired key now => c.store.deleteIfExpired key now
  | .deleteExpired now => c.store.deleteExpired now
  | .readClock => c.clock.now
  | .ask assetClass symbol => c.inner.price assetClass symbol

private theorem run_refetch
    [LawfulMonad m]
    (c : CachingSource m)
    (assetClass : AssetClass)
    (code : String) :
    (Script.refetch c.lifetime assetClass code).run c.perform =
      (do
        match ← c.inner.price assetClass code with
        | .error error => return .error error
        | .ok quote =>
            let now ← c.clock.now
            let _ ← c.store.set (priceKey assetClass code)
              ⟨quote, now.after c.lifetime⟩
            return .ok quote) := by
  simp only [Script.refetch, Script.run]
  congr 1
  funext answer
  cases answer <;> rfl

/-- In every monad, a request is its script run there. -/
theorem run_request
    [LawfulMonad m]
    (c : CachingSource m)
    (assetClass : AssetClass)
    (symbol : String) :
    (Script.request c.lifetime assetClass symbol).run c.perform =
      c.source.price assetClass symbol := by
  rw [Script.request_eq]
  change _ = c.fetch assetClass symbol
  simp only [Script.run, fetch, lookup, bind_assoc]
  congr 1
  funext response
  rcases response with error | _ | entry
  · simp only [pure_bind]
    exact run_refetch c assetClass (normalCode symbol)
  · simp only [pure_bind]
    exact run_refetch c assetClass (normalCode symbol)
  · simp only [Script.serve, Script.run, bind_assoc]
    congr 1
    funext (now : Instant)
    by_cases fresh : entry.IsFresh now
    · simp only [fresh, if_true, Script.run, pure_bind]
    · simp only [fresh, if_false, Script.run, bind_assoc, pure_bind,
        run_refetch]
      rfl

end CachingSource

end NetWorth
