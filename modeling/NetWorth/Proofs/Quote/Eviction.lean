import Mathlib
import NetWorth.Proofs.Quote.Interleaving
import NetWorth.Proofs.Quote.Memo

/-!
# Fresh entries are not evicted

A look-up takes out an entry that it has found expired, and a sweep takes out
all that have expired.  Either acts on a time that it has read before, when other
tasks may have replaced the entry.  Still no interleaving removes an entry that
is fresh: it stays until it is overwritten under its own key.
-/

namespace NetWorth.Interleaving

variable {state after : State}

/-- A task removes only what had expired by a time that it has read. -/
theorem removal_after_reading
    {job : Job}
    {history : List Exchange}
    {action : Action}
    {next : action.Response → Script job.Result}
    (reached : job.script.Reaches history (.act action next)) :
    (∀ key, action ≠ .delete key) ∧
      ∀ key now,
        action = .deleteIfExpired key now ∨ action = .deleteExpired now →
          ⟨.readClock, now⟩ ∈ history := by
  cases job with
  | request lifetime assetClass symbol =>
      have step :
          Script.RequestStep lifetime assetClass (normalCode symbol) history
            action :=
        Script.request_stage reached
      refine ⟨fun key same => ?_, fun key now same => ?_⟩
      · subst same
        cases step
      · rcases same with same | same
        · subst same
          cases step with
          | evict entry _ notFresh =>
              simp
        · subst same
          cases step
  | sweep =>
      obtain same | ⟨time, same, read⟩ := Script.sweep_next reached
      · subst same
        simp
      · subst same
        refine ⟨by simp, fun key now sameAction => ?_⟩
        rcases sameAction with sameAction | sameAction
        · cases sameAction
        · cases sameAction
          exact read

/-- Time does not go back in an event. -/
theorem next?_forward
    {event : Event}
    (happened : state.next? event = some after) :
    state.time ≤ after.time := by
  obtain ⟨job, -, rfl⟩ | ⟨time, -, forward, rfl⟩ |
    ⟨index, answer, job, action, next, -, -, rfl⟩ :=
    State.next?_cases happened
  · exact Instant.le_refl _
  · exact forward
  · exact Instant.le_refl _

/-- Time does not go back in a row of events. -/
theorem run?_forward
    {events : List Event}
    (ran : state.run? events = some after) :
    state.time ≤ after.time :=
  State.run?_preserves
    (fun forward happened => Instant.le_trans forward (next?_forward happened))
    (Instant.le_refl _) ran

/-- An event in which a fresh entry leaves the store writes its key. -/
theorem set_of_leaves
    (orderly : Orderly state)
    {event : Event}
    (happened : state.next? event = some after)
    {key : String}
    {entry : CachedQuote}
    (stored : state.table.get? key = some entry)
    (fresh : entry.IsFresh state.time)
    (left : after.table.get? key ≠ some entry) :
    ∃ writer answer replacement,
      event = .advance writer answer ∧
        after.log =
          state.log ++ [⟨writer, ⟨.set key replacement, .ok ()⟩⟩] ∧
        after.table.get? key = some replacement := by
  obtain ⟨job, -, rfl⟩ | ⟨time, -, forward, rfl⟩ |
    ⟨index, answer, job, action, next, isAdvance, atStep, rfl⟩ :=
    State.next?_cases happened
  · exact absurd stored left
  · exact absurd stored left
  · obtain ⟨noDelete, timely⟩ :=
      removal_after_reading (orderly.reached index _ atStep)
    rcases State.stays_or_removed answer action stored with
      stays | ⟨replacement, rfl⟩ | isDelete | ⟨now, removes, expired⟩
    · exact absurd stays left
    · refine ⟨index, answer, replacement, isAdvance, rfl, ?_⟩
      change (state.table.insert key replacement).get? key = _
      rw [Table.get?_insert, if_pos rfl]
    · exact absurd isDelete (noDelete key)
    · -- what had expired by an earlier reading has expired by now
      have read := orderly.past index now (mem_steps.mp (timely key now removes))
      exact absurd fresh (CachedQuote.not_isFresh_of_le read expired)

/--
Take any interleaving of requests and sweeps on a store that holds anything at
first, an entry that is stored at some point of it, and a later point at which
the entry is still fresh and no longer stored.  The entry was stored up to an
event in between in which a task wrote another entry under the same key.
-/
theorem fresh_leaves_only_by_set
    {time : Instant}
    {table : QuoteTable}
    {events later : List Event}
    {final : State}
    {key : String}
    {entry : CachedQuote}
    (ran : (State.startWith time table).run? events = some state)
    (stored : state.table.get? key = some entry)
    (ranOn : state.run? later = some final)
    (fresh : entry.IsFresh final.time)
    (left : final.table.get? key ≠ some entry) :
    ∃ earlier writer answer rest before afterwards replacement,
      later = earlier ++ .advance writer answer :: rest ∧
        state.run? earlier = some before ∧
        before.table.get? key = some entry ∧
        before.next? (.advance writer answer) = some afterwards ∧
        afterwards.log =
          before.log ++ [⟨writer, ⟨.set key replacement, .ok ()⟩⟩] ∧
        afterwards.table.get? key = some replacement ∧
        replacement ≠ entry := by
  have orderly := (Orderly.startWith time table).run ran
  clear ran
  -- the first event after which the entry is not stored is the one
  induction later generalizing state with
  | nil =>
      cases ranOn
      exact absurd stored left
  | cons event rest inductionHypothesis =>
      obtain ⟨between, happened, ranRest⟩ :=
        Option.bind_eq_some_iff.mp ranOn
      by_cases stays : between.table.get? key = some entry
      · obtain ⟨earlier, writer, answer, others, before, afterwards,
            replacement, rfl, ranEarlier, change⟩ :=
          inductionHypothesis stays ranRest (orderly.next happened)
        refine ⟨event :: earlier, writer, answer, others, before, afterwards,
          replacement, rfl, ?_, change⟩
        exact Option.bind_eq_some_iff.mpr ⟨between, happened, ranEarlier⟩
      · have forward :=
          Instant.le_trans (next?_forward happened) (run?_forward ranRest)
        have freshBefore : entry.IsFresh state.time := by
          by_contra expired
          exact CachedQuote.not_isFresh_of_le forward expired fresh
        obtain ⟨writer, answer, replacement, rfl, logged, replaced⟩ :=
          set_of_leaves orderly happened stored freshBefore stays
        refine ⟨[], writer, answer, rest, state, between, replacement, rfl, rfl,
          stored, happened, logged, replaced, ?_⟩
        rintro rfl
        exact stays replaced

/-! ## A slower request for the same symbol -/

/-- A quote for the same symbol at one of two prices. -/
def priced
    (price : Decimal) :
    Quote :=
  ⟨.stock, "AAPL", "Apple", price, "USD", .epoch, "sample"⟩

/-- A store with an entry that has expired. -/
def outdated : QuoteTable :=
  Table.empty.insert "stock_AAPL" ⟨priced .one, .epoch⟩

/-- Two requests read the old entry.  The first one takes it out and writes its
quote. -/
def racing : List Event :=
  [.start (.request .twentyMinutes .stock "aapl"),
    .start (.request .twentyMinutes .stock "AAPL"),
    .advance 0 (.ok (priced .one)),
    .advance 1 (.ok (priced .one)),
    .advance 0 (.ok (priced .one)),
    .advance 0 (.ok (priced .one)),
    .advance 0 (.ok (priced .one)),
    .advance 0 (.ok (priced .one)),
    .advance 0 (.ok (priced .one))]

/-- A sweep passes.  The second one would take out the entry that it has read, and
writes its own. -/
def overtaken : List Event :=
  [.start .sweep,
    .advance 2 (.ok (priced .hundred)),
    .advance 2 (.ok (priced .hundred)),
    .advance 1 (.ok (priced .hundred)),
    .advance 1 (.ok (priced .hundred)),
    .advance 1 (.ok (priced .hundred)),
    .advance 1 (.ok (priced .hundred)),
    .advance 1 (.ok (priced .hundred))]

/-- The state after the first write. -/
def raced : State :=
  ((State.startWith .epoch outdated).run? racing).get (by decide +kernel)

/-- The state after the second write. -/
def overwritten : State :=
  (raced.run? overtaken).get (by decide +kernel)

/--
While the first quote is fresh, a sweep leaves it alone, and so does the slower
request for the same symbol when it evicts the old entry; then it overwrites it.
-/
theorem fresh_leaves_only_by_set_of_slower_request :
    let entry : CachedQuote :=
      ⟨priced .one, Instant.epoch.after .twentyMinutes⟩
    (State.startWith .epoch outdated).run? racing = some raced ∧
      raced.table.get? "stock_AAPL" = some entry ∧
      raced.run? overtaken = some overwritten ∧
      entry.IsFresh overwritten.time ∧
      overwritten.table.get? "stock_AAPL" ≠ some entry ∧
      ∃ earlier writer answer rest before afterwards replacement,
        overtaken = earlier ++ .advance writer answer :: rest ∧
          raced.run? earlier = some before ∧
          before.table.get? "stock_AAPL" = some entry ∧
          before.next? (.advance writer answer) = some afterwards ∧
          afterwards.log =
            before.log ++
              [⟨writer, ⟨.set "stock_AAPL" replacement, .ok ()⟩⟩] ∧
          afterwards.table.get? "stock_AAPL" = some replacement ∧
          replacement ≠ entry := by
  intro entry
  have ran : (State.startWith .epoch outdated).run? racing = some raced :=
    (Option.some_get _).symm
  have stored : raced.table.get? "stock_AAPL" = some entry := by
    decide +kernel
  have ranOn : raced.run? overtaken = some overwritten :=
    (Option.some_get _).symm
  have fresh : entry.IsFresh overwritten.time := by
    decide +kernel
  have left : overwritten.table.get? "stock_AAPL" ≠ some entry := by
    decide +kernel
  exact ⟨ran, stored, ranOn, fresh, left,
    fresh_leaves_only_by_set ran stored ranOn fresh left⟩

end NetWorth.Interleaving
