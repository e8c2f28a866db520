import Mathlib
import NetWorth.Valuation.Service

/-!
# Calls of a service

A call of a service takes a state to an answer and a state.  Calls in sequence
go on from the answer of the first one as long as it is not an error.
-/

namespace NetWorth.Services

variable
  {State Result Next : Type}
  {call : ExceptT ServiceError (StateM State) Result}
  {state after : State}

/-- What a call answers, and the state afterwards. -/
def outcome
    (call : ExceptT ServiceError (StateM State) Result)
    (state : State) :
    Except ServiceError Result × State :=
  call.run.run state

@[simp] theorem outcome_pure
    (result : Result)
    (state : State) :
    outcome (pure result) state = (.ok result, state) :=
  rfl

/-- A step of the surroundings is answered. -/
@[simp] theorem outcome_lift
    (step : StateM State Result)
    (state : State) :
    outcome (liftM step) state =
      (.ok (step.run state).1, (step.run state).2) :=
  rfl

/-- A call that is answered hands its answer on. -/
theorem outcome_bind_ok
    {result : Result}
    (answered : outcome call state = (.ok result, after))
    (next : Result → ExceptT ServiceError (StateM State) Next) :
    outcome (call >>= next) state = outcome (next result) after := by
  unfold outcome at *
  rw [ExceptT.run_bind, StateT.run_bind, answered]
  rfl

/-- An error ends a sequence of calls. -/
theorem outcome_bind_error
    {error : ServiceError}
    (failed : outcome call state = (.error error, after))
    (next : Result → ExceptT ServiceError (StateM State) Next) :
    outcome (call >>= next) state = (.error error, after) := by
  unfold outcome at *
  rw [ExceptT.run_bind, StateT.run_bind, failed]
  rfl

/-- A step hands its result on. -/
theorem outcome_lift_bind
    {step : StateM State Result}
    {result : Result}
    (stepped : step.run state = (result, after))
    (next : Result → ExceptT ServiceError (StateM State) Next) :
    outcome (liftM step >>= next) state = outcome (next result) after := by
  have lifted :
      outcome (liftM step) state = (.ok result, after) := by
    rw [outcome_lift, stepped]
  exact outcome_bind_ok lifted next

/-- A book that answers is not noticed. -/
theorem outcome_during_ok
    {step : StateM State (Except String Result)}
    {result : Result}
    (answered : step.run state = (.ok result, after))
    (activity : Activity) :
    outcome (during activity step) state = (.ok result, after) :=
  outcome_lift_bind answered _

section Accounts

variable
  {services : Services (StateM State)}
  {user : String}
  {between : State}
  {rates : RateTable}
  {accounts : List Account}

/-- The accounts of a user are summarized at the rates for their currency. -/
theorem accountSummaries_outcome
    (ratesRead :
      outcome (services.displayCurrency user >>= services.ratesFor) state =
        (.ok rates, between))
    (accountsRead :
      (services.book.accounts user).run between = (.ok accounts, after)) :
    outcome (services.accountSummaries user) state =
      (.ok (accounts.map (summarize rates)), after) := by
  unfold accountSummaries
  rw [← bind_assoc, outcome_bind_ok ratesRead,
    outcome_bind_ok (outcome_during_ok accountsRead _), outcome_pure]

end Accounts

/-- A user is recorded before the others, and counts if that succeeds. -/
theorem recordEach_cons_run
    (services : Services (StateM State))
    (date : Date)
    (user : String)
    (rest : List String)
    (state : State) :
    (services.recordEach date (user :: rest)).run state =
      let recorded := outcome (services.recordUser date user) state
      let others := (services.recordEach date rest).run recorded.2
      ((if recorded.1.isOk then 1 else 0) + others.1, others.2) := by
  unfold outcome
  rw [recordEach]
  simp only [StateT.run_bind]
  rcases (services.recordUser date user).run.run state with ⟨result, after⟩
  cases result with
  | error error => rfl
  | ok _ => rfl

end NetWorth.Services
