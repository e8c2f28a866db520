import Mathlib
import NetWorth.Proofs.Quote.Script
import NetWorth.Proofs.Table
import NetWorth.Proofs.Time.Instant

/-!
# Interleaved requests and sweeps

Any number of requests and sweeps share one store in memory and one clock that
does not go back.  Each is a task that takes one atomic step at a time, and in
between any other task may take steps and time may pass.  The inner source may
answer a task anything.  The log of all steps says where each entry of the store
and each entry that a task has read comes from.
-/

namespace NetWorth

namespace QuoteTable

/-- A conditional removal leaves what is fresh and every other key alone. -/
theorem get?_dropIfExpired
    (table : QuoteTable)
    (removed key : String)
    (now : Instant) :
    (table.dropIfExpired removed now).2.get? key =
      if key = removed then
        (table.get? key).filter fun entry => entry.IsFresh now
      else
        table.get? key := by
  unfold dropIfExpired
  cases found : table.get? removed with
  | none =>
      by_cases same : key = removed
      · simp [same, found]
      · simp [same]
  | some entry =>
      by_cases fresh : entry.IsFresh now
      · by_cases same : key = removed
        · simp [same, found, fresh, Option.filter]
        · simp [same, fresh]
      · by_cases same : key = removed
        · simp [same, found, fresh, Option.filter, Table.get?_erase]
        · simp [same, fresh, Table.get?_erase]

/-- A sweep leaves what is fresh. -/
theorem get?_dropExpired
    (table : QuoteTable)
    (key : String)
    (now : Instant) :
    (table.dropExpired now).2.get? key =
      (table.get? key).filter fun entry => entry.IsFresh now :=
  Table.get?_filter table _ key

end QuoteTable

namespace Interleaving

/-- What a task has to do. -/
inductive Job where
  | request
      (lifetime : Span)
      (assetClass : AssetClass)
      (symbol : String)
  | sweep

/-- What a task ends with. -/
abbrev Job.Result :
    Job → Type
  | .request _ _ _ => PriceAnswer
  | .sweep => Except String Nat

/-- The steps of a task from its start. -/
def Job.script :
    (job : Job) → Script job.Result
  | .request lifetime assetClass symbol =>
      Script.request lifetime assetClass symbol
  | .sweep => Script.sweep

/-- A task under way, and what is left of it. -/
structure Task where
  job : Job
  rest : Script job.Result

/-- A step in the log, with the number of the task that took it. -/
structure Occurrence where
  task : Nat
  exchange : Exchange

/-- The time, the store, all tasks so far, and the log of their steps. -/
structure State where
  time : Instant
  table : QuoteTable
  tasks : List Task
  log : List Occurrence

/-- What happens next: a task is started, time passes, or a task takes a step,
in which the inner source would give an answer. -/
inductive Event where
  | start (job : Job)
  | pass (time : Instant)
  | advance
      (task : Nat)
      (answer : PriceAnswer)

namespace State

/-- A store at some time, before any task. -/
def startWith
    (time : Instant)
    (table : QuoteTable) :
    State :=
  ⟨time, table, [], []⟩

/-- An empty store at some time. -/
def start
    (time : Instant) :
    State :=
  startWith time .empty

/-- The answer to a step, and the store after it. -/
def perform
    (state : State)
    (answer : PriceAnswer) :
    (action : Action) → action.Response × QuoteTable
  | .get key => (QuoteTable.memoryStore.get key).run state.table
  | .set key entry => (QuoteTable.memoryStore.set key entry).run state.table
  | .delete key => (QuoteTable.memoryStore.delete key).run state.table
  | .deleteIfExpired key now =>
      (QuoteTable.memoryStore.deleteIfExpired key now).run state.table
  | .deleteExpired now =>
      (QuoteTable.memoryStore.deleteExpired now).run state.table
  | .readClock => (state.time, state.table)
  | .ask _ _ => (answer, state.table)

/-- The state after a task has taken its next step. -/
def advanced
    (state : State)
    (index : Nat)
    (answer : PriceAnswer)
    {job : Job}
    (action : Action)
    (next : action.Response → Script job.Result) :
    State where
  time := state.time
  table := (state.perform answer action).2
  tasks :=
    state.tasks.set index ⟨job, next (state.perform answer action).1⟩
  log :=
    state.log ++ [⟨index, ⟨action, (state.perform answer action).1⟩⟩]

/-- The state after an event, if the event can happen: time does not go back,
and only a task that is not done takes a step. -/
def next?
    (state : State) :
    Event → Option State
  | .start job =>
      some { state with tasks := state.tasks ++ [⟨job, job.script⟩] }
  | .pass time =>
      if state.time ≤ time then
        some { state with time }
      else
        none
  | .advance index answer =>
      match state.tasks[index]? with
      | some ⟨_, .act action next⟩ =>
          some (state.advanced index answer action next)
      | _ => none

/-- The state after a row of events. -/
def run?
    (state : State)
    (events : List Event) :
    Option State :=
  events.foldlM next? state

end State

/-- The steps of one task. -/
def steps
    (index : Nat)
    (log : List Occurrence) :
    List Exchange :=
  (log.filter (·.task = index)).map (·.exchange)

/-! ## What a step does to the store -/

namespace State

variable {state after : State}

/-- An entry in the store was there before, or the step has written it. -/
theorem stored_or_set
    {answer : PriceAnswer}
    {action : Action}
    {key : String}
    {entry : CachedQuote}
    (found : (state.perform answer action).2.get? key = some entry) :
    state.table.get? key = some entry ∨ action = .set key entry := by
  cases action with
  | get _ =>
      exact .inl found
  | readClock =>
      exact .inl found
  | ask _ _ =>
      exact .inl found
  | set other replacement =>
      change (state.table.insert other replacement).get? key = _ at found
      rw [Table.get?_insert] at found
      split at found
      next same =>
        cases found
        exact .inr (by rw [same])
      next =>
        exact .inl found
  | delete other =>
      change (state.table.erase other).get? key = _ at found
      rw [Table.get?_erase] at found
      split at found
      next =>
        cases found
      next =>
        exact .inl found
  | deleteIfExpired other now =>
      change (state.table.dropIfExpired other now).2.get? key = _ at found
      rw [QuoteTable.get?_dropIfExpired] at found
      split at found
      next =>
        exact .inl (Option.filter_eq_some_iff.mp found).1
      next =>
        exact .inl found
  | deleteExpired now =>
      change (state.table.dropExpired now).2.get? key = _ at found
      rw [QuoteTable.get?_dropExpired] at found
      exact .inl (Option.filter_eq_some_iff.mp found).1

/-- An entry stays in the store, unless the step overwrites it, deletes its key,
or removes what has expired by a time when the entry has. -/
theorem stays_or_removed
    (answer : PriceAnswer)
    (action : Action)
    {key : String}
    {entry : CachedQuote}
    (stored : state.table.get? key = some entry) :
    (state.perform answer action).2.get? key = some entry ∨
      (∃ replacement, action = .set key replacement) ∨
      action = .delete key ∨
      ∃ now,
        (action = .deleteIfExpired key now ∨ action = .deleteExpired now) ∧
          ¬ entry.IsFresh now := by
  cases action with
  | get _ =>
      exact .inl stored
  | readClock =>
      exact .inl stored
  | ask _ _ =>
      exact .inl stored
  | set other replacement =>
      by_cases same : key = other
      · subst same
        exact .inr (.inl ⟨replacement, rfl⟩)
      · left
        change (state.table.insert other replacement).get? key = _
        rw [Table.get?_insert, if_neg same, stored]
  | delete other =>
      by_cases same : key = other
      · subst same
        exact .inr (.inr (.inl rfl))
      · left
        change (state.table.erase other).get? key = _
        rw [Table.get?_erase, if_neg same, stored]
  | deleteIfExpired other now =>
      by_cases same : key = other
      · subst same
        by_cases fresh : entry.IsFresh now
        · left
          change (state.table.dropIfExpired key now).2.get? key = _
          rw [QuoteTable.get?_dropIfExpired, if_pos rfl, stored]
          simp [Option.filter, fresh]
        · exact .inr (.inr (.inr ⟨now, .inl rfl, fresh⟩))
      · left
        change (state.table.dropIfExpired other now).2.get? key = _
        rw [QuoteTable.get?_dropIfExpired, if_neg same, stored]
  | deleteExpired now =>
      by_cases fresh : entry.IsFresh now
      · left
        change (state.table.dropExpired now).2.get? key = _
        rw [QuoteTable.get?_dropExpired, stored]
        simp [Option.filter, fresh]
      · exact .inr (.inr (.inr ⟨now, .inr rfl, fresh⟩))

/-- Everything that can happen. -/
theorem next?_cases
    {event : Event}
    (happened : state.next? event = some after) :
    (∃ job,
      event = .start job ∧
        after = { state with tasks := state.tasks ++ [⟨job, job.script⟩] }) ∨
    (∃ time,
      event = .pass time ∧ state.time ≤ time ∧ after = { state with time }) ∨
    (∃ (index : Nat) (answer : PriceAnswer) (job : Job) (action : Action)
      (next : action.Response → Script job.Result),
      event = .advance index answer ∧
        state.tasks[index]? = some ⟨job, .act action next⟩ ∧
        after = state.advanced index answer action next) := by
  cases event with
  | start job =>
      exact .inl ⟨job, rfl, (Option.some.inj happened).symm⟩
  | pass time =>
      simp only [next?] at happened
      split at happened
      next forward =>
        exact .inr (.inl ⟨time, rfl, forward, (Option.some.inj happened).symm⟩)
      next =>
        cases happened
  | advance index answer =>
      simp only [next?] at happened
      split at happened
      next job action next atStep =>
        exact .inr (.inr ⟨index, answer, job, action, next, rfl, atStep,
          (Option.some.inj happened).symm⟩)
      next =>
        cases happened

/-- What each event preserves is preserved by a row of events. -/
theorem run?_preserves
    {property : State → Prop}
    (step :
      ∀ {before after : State} {event : Event},
        property before → before.next? event = some after → property after)
    {events : List Event}
    (holds : property state)
    (ran : state.run? events = some after) :
    property after := by
  induction events generalizing state with
  | nil =>
      cases ran
      exact holds
  | cons event rest inductionHypothesis =>
      obtain ⟨between, happened, ranRest⟩ :=
        Option.bind_eq_some_iff.mp ran
      exact inductionHypothesis (step holds happened) ranRest

end State

/-! ## What the log says -/

theorem steps_append
    (index : Nat)
    (earlier later : List Occurrence) :
    steps index (earlier ++ later) = steps index earlier ++ steps index later := by
  simp [steps]

theorem steps_own
    (index : Nat)
    (exchange : Exchange)
    (later : List Occurrence) :
    steps index (⟨index, exchange⟩ :: later) = exchange :: steps index later := by
  simp [steps]

theorem steps_other
    {index other : Nat}
    (different : other ≠ index)
    (exchange : Exchange)
    (later : List Occurrence) :
    steps index (⟨other, exchange⟩ :: later) = steps index later := by
  simp [steps, different]

theorem mem_steps
    {index : Nat}
    {exchange : Exchange}
    {log : List Occurrence} :
    exchange ∈ steps index log ↔ ⟨index, exchange⟩ ∈ log := by
  simp only [steps, List.mem_map, List.mem_filter, decide_eq_true_eq]
  constructor
  · rintro ⟨⟨task, _⟩, ⟨member, rfl⟩, rfl⟩
    exact member
  · intro member
    exact ⟨⟨index, exchange⟩, ⟨member, rfl⟩, rfl⟩

/-- The first step of a task in the log. -/
theorem exists_first_step
    {index : Nat}
    {log : List Occurrence}
    {first : Exchange}
    {rest : List Exchange}
    (isLog : steps index log = first :: rest) :
    ∃ earlier later,
      log = earlier ++ ⟨index, first⟩ :: later ∧
        steps index later = rest := by
  induction log with
  | nil =>
      cases isLog
  | cons occurrence log inductionHypothesis =>
      obtain ⟨task, exchange⟩ := occurrence
      by_cases own : task = index
      · subst own
        rw [steps_own] at isLog
        obtain ⟨rfl, isRest⟩ := List.cons.inj isLog
        exact ⟨[], log, rfl, isRest⟩
      · rw [steps_other own] at isLog
        obtain ⟨earlier, later, rfl, isRest⟩ := inductionHypothesis isLog
        exact ⟨⟨task, exchange⟩ :: earlier, later, rfl, isRest⟩

/-- The log keeps the order of the steps of a task. -/
theorem sublist_log_of_sublist_steps
    {index : Nat}
    {row : List Exchange}
    {log : List Occurrence}
    (ordered : row.Sublist (steps index log)) :
    (row.map (Occurrence.mk index)).Sublist log := by
  have owned :
      (steps index log).map (Occurrence.mk index) =
        log.filter (·.task = index) := by
    rw [steps, List.map_map]
    conv_rhs => rw [← List.map_id (log.filter (·.task = index))]
    apply List.map_congr_left
    rintro ⟨task, exchange⟩ member
    have own : task = index := by
      simpa using (List.mem_filter.mp member).2
    rw [← own]
    rfl
  exact (ordered.map _).trans (owned ▸ List.filter_sublist)

/--
What holds whenever tasks are interleaved, whatever the store held at first:
every task has come to what is left of it through its own steps, and no reading
of the clock is ahead of the time.
-/
structure Orderly
    (state : State) :
    Prop where
  reached :
    ∀ index (task : Task),
      state.tasks[index]? = some task →
        task.job.script.Reaches (steps index state.log) task.rest
  owned :
    ∀ occurrence ∈ state.log, occurrence.task < state.tasks.length
  past :
    ∀ index (reading : Instant),
      ⟨index, ⟨.readClock, reading⟩⟩ ∈ state.log → reading ≤ state.time

/--
What holds as well on a store that was empty: every entry that is stored or has
been read was written before.
-/
structure Sound
    (state : State) :
    Prop extends Orderly state where
  stored :
    ∀ key entry,
      state.table.get? key = some entry →
        ∃ writer, ⟨writer, ⟨.set key entry, .ok ()⟩⟩ ∈ state.log
  found :
    ∀ earlier later index key entry,
      state.log =
          earlier ++ ⟨index, ⟨.get key, .ok (some entry)⟩⟩ :: later →
        ∃ writer, ⟨writer, ⟨.set key entry, .ok ()⟩⟩ ∈ earlier

namespace Orderly

variable {state after : State}

theorem startWith
    (time : Instant)
    (table : QuoteTable) :
    Orderly (.startWith time table) where
  reached _ _ found := by
    cases found
  owned _ member := by
    cases member
  past _ _ member := by
    cases member

/-- A task that is started has not taken a step. -/
theorem started
    (orderly : Orderly state)
    (job : Job) :
    Orderly { state with tasks := state.tasks ++ [⟨job, job.script⟩] } where
  reached index task found := by
    by_cases old : index < state.tasks.length
    · rw [List.getElem?_append_left old] at found
      exact orderly.reached index task found
    · rw [List.getElem?_append_right (Nat.le_of_not_lt old),
        List.getElem?_singleton] at found
      split at found
      next =>
        cases found
        have untouched : steps index state.log = [] := by
          rw [List.eq_nil_iff_forall_not_mem]
          intro exchange member
          exact old (orderly.owned _ (mem_steps.mp member))
        rw [untouched]
        exact .start _
      next =>
        cases found
  owned occurrence member := by
    have before := orderly.owned occurrence member
    rw [List.length_append]
    exact Nat.lt_add_right _ before
  past := orderly.past

/-- Time may pass. -/
theorem later
    (orderly : Orderly state)
    {time : Instant}
    (forward : state.time ≤ time) :
    Orderly { state with time } where
  reached := orderly.reached
  owned := orderly.owned
  past index reading member :=
    Instant.le_trans (orderly.past index reading member) forward

/-- A task may take its next step. -/
theorem advanced
    (orderly : Orderly state)
    {index : Nat}
    {job : Job}
    {action : Action}
    {next : action.Response → Script job.Result}
    (atStep : state.tasks[index]? = some ⟨job, .act action next⟩)
    (answer : PriceAnswer) :
    Orderly (state.advanced index answer action next) where
  reached other task found := by
    change (state.tasks.set index _)[other]? = _ at found
    change Script.Reaches _ (steps other (state.log ++ [_])) _
    rw [steps_append]
    by_cases same : index = other
    · subst same
      have inRange : index < state.tasks.length :=
        (List.getElem?_eq_some_iff.mp atStep).1
      rw [List.getElem?_set_self inRange] at found
      cases found
      rw [steps_own]
      exact (orderly.reached index _ atStep).snoc _
    · rw [List.getElem?_set_ne same] at found
      rw [steps_other same]
      simpa [steps] using orderly.reached other task found
  owned occurrence member := by
    change occurrence ∈ state.log ++ [_] at member
    change _ < (state.tasks.set index _).length
    rw [List.length_set]
    rcases List.mem_append.mp member with before | isNew
    · exact orderly.owned occurrence before
    · rw [List.mem_singleton.mp isNew]
      exact (List.getElem?_eq_some_iff.mp atStep).1
  past other reading member := by
    change _ ∈ state.log ++ [_] at member
    rcases List.mem_append.mp member with before | isNew
    · exact orderly.past other reading before
    · cases List.mem_singleton.mp isNew
      exact Instant.le_refl _

/-- Whatever happens next, the state stays orderly. -/
theorem next
    (orderly : Orderly state)
    {event : Event}
    (happened : state.next? event = some after) :
    Orderly after := by
  obtain ⟨job, -, rfl⟩ | ⟨time, -, forward, rfl⟩ |
    ⟨index, answer, job, action, next, -, atStep, rfl⟩ :=
    State.next?_cases happened
  · exact orderly.started job
  · exact orderly.later forward
  · exact orderly.advanced atStep answer

/-- Whatever happens, in whatever order, the state stays orderly. -/
theorem run
    (orderly : Orderly state)
    {events : List Event}
    (ran : state.run? events = some after) :
    Orderly after :=
  State.run?_preserves (fun orderly happened => orderly.next happened) orderly ran

end Orderly

namespace Sound

variable {state after : State}

theorem start
    (time : Instant) :
    Sound (.start time) where
  toOrderly := .startWith time .empty
  stored _ _ found := by
    cases found
  found earlier later _ _ _ same := by
    cases earlier <;> cases same

/-- A step writes what is stored or read after it, or finds it written. -/
theorem advanced
    (sound : Sound state)
    {index : Nat}
    {job : Job}
    {action : Action}
    {next : action.Response → Script job.Result}
    (atStep : state.tasks[index]? = some ⟨job, .act action next⟩)
    (answer : PriceAnswer) :
    Sound (state.advanced index answer action next) where
  toOrderly := sound.toOrderly.advanced atStep answer
  stored key entry present := by
    rcases State.stored_or_set present with before | isSet
    · obtain ⟨writer, written⟩ := sound.stored key entry before
      exact ⟨writer, List.mem_append_left _ written⟩
    · subst isSet
      exact ⟨index, List.mem_append_right _ (List.mem_singleton.mpr rfl)⟩
  found earlier rest reader key entry same := by
    change state.log ++ [_] = _ at same
    rcases List.eq_nil_or_concat rest with isLast | ⟨front, last, isMore⟩
    · subst isLast
      obtain ⟨sameLog, sameLast⟩ := List.append_inj' same rfl
      simp only [List.cons.injEq, Occurrence.mk.injEq, Exchange.mk.injEq,
        and_true] at sameLast
      obtain ⟨-, rfl, sameResponse⟩ := sameLast
      have present : state.table.get? key = some entry :=
        Except.ok.inj (eq_of_heq sameResponse)
      exact sameLog ▸ sound.stored key entry present
    · subst isMore
      rw [List.concat_eq_append, ← List.cons_append, ← List.append_assoc]
        at same
      obtain ⟨sameLog, -⟩ := List.append_inj' same rfl
      exact sound.found earlier front reader key entry sameLog

/-- Whatever happens next, the state stays sound. -/
theorem next
    (sound : Sound state)
    {event : Event}
    (happened : state.next? event = some after) :
    Sound after := by
  obtain ⟨job, -, rfl⟩ | ⟨time, -, forward, rfl⟩ |
    ⟨index, answer, job, action, next, -, atStep, rfl⟩ :=
    State.next?_cases happened
  · exact ⟨sound.toOrderly.started job, sound.stored, sound.found⟩
  · exact ⟨sound.toOrderly.later forward, sound.stored, sound.found⟩
  · exact sound.advanced atStep answer

/-- Whatever happens, in whatever order, the state stays sound. -/
theorem run
    (sound : Sound state)
    {events : List Event}
    (ran : state.run? events = some after) :
    Sound after :=
  State.run?_preserves (fun sound happened => sound.next happened) sound ran

end Sound

end Interleaving

end NetWorth
