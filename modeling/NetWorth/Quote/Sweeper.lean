import NetWorth.Quote.Caching
/-!
# The sweeper

Removes expired quotes from a store at regular times, whether or not anybody asks for prices.  The
schedule is a small clockwork: time moves it on, and each move sweeps at most once.
-/

namespace NetWorth

/-- When the next sweep is due, in nanoseconds of running time; nothing is due once it has stopped.
-/
structure SweepSchedule where
  period : Nat
  now : Nat
  due : Option Nat

namespace SweepSchedule

/-- The shortest period: ten milliseconds. -/
def shortestPeriod : Nat := 10_000_000

/-- A sweep that is late by no more than five milliseconds counts as punctual. -/
def tolerance : Nat := 5_000_000

/-- A schedule whose first sweep is one period away. -/
def start (interval : Span) : SweepSchedule :=
  let period := max interval.totalNanos shortestPeriod
  ⟨period, 0, some period⟩

/-- Ends the schedule. -/
def stop (s : SweepSchedule) : SweepSchedule :=
  { s with due := none }

/-- Lets time pass; says whether a sweep has fallen due.  The next one is a period after a punctual
sweep was due, and a period after now when the sweep is late. -/
def elapse (s : SweepSchedule) (nanos : Nat) : Bool × SweepSchedule :=
  let now := s.now + nanos
  match s.due with
  | none => (false, { s with now })
  | some due =>
    if now < due then (false, { s with now })
    else
      let origin := if due + tolerance < now then now else due
      (true, { s with now, due := some (origin + s.period) })

end SweepSchedule

/-- Lets time pass and sweeps the store if it has fallen due; a sweep that fails is let go. -/
def elapseAndSweep {m : Type → Type} [Monad m] (schedule : SweepSchedule) (store : QuoteStore m)
    (clock : Clock m) (nanos : Nat) : m SweepSchedule := do
  let (due, schedule) := schedule.elapse nanos
  if due then
    let _ ← sweepOnce store clock
  return schedule

end NetWorth
