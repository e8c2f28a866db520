import Mathlib
import NetWorth.Proofs.Ledger.Renumbering

/-!
# The trades of a group by date

Replaying a group depends on its own trades alone, in order of date.  Where they
stand in the ledger, and what else is in it, shows in the places of the lots and
nowhere else.  The position is named after the first trade that has a name.
-/

namespace NetWorth

namespace Ledger

/-- The trades of one group by date; trades of one day stay in order. -/
def tradesByDate
    (trades : List Trade)
    (key : GroupKey) :
    List Trade :=
  (trades.filter fun trade => GroupKey.ofTrade trade == key).mergeSort
    fun first second => first.date ≤ second.date

/-- A group holds the trades of its key by date. -/
theorem map_trade_group
    (trades : List Trade)
    (key : GroupKey) :
    (group trades key).map (·.trade) = tradesByDate trades key := by
  have listed : (entries trades).map (·.trade) = trades := by
    rw [entries, List.map_map]
    exact List.zipIdx_map_fst 0 trades
  rw [group, List.map_mergeSort (s := fun first second : Trade =>
    decide (first.date ≤ second.date)) fun _ _ _ _ => rfl]
  rw [tradesByDate, ← listed, List.filter_map, listed]
  rfl

/-- Without the places of the lots, a replay depends on the dated trades. -/
theorem replayed_unplaced
    (trades : List Trade)
    (key : GroupKey) :
    (replayed trades key).map (Position.renumber fun _ => 0) =
      replay (.empty key) ((tradesByDate trades key).map (Entry.mk 0)) := by
  rw [replayed, ← replay_renumber, ← map_trade_group, List.map_map]
  rfl

/-! ## Names -/

/-- The names that trades give, without white space around them. -/
def names
    (trades : List Trade) :
    List String :=
  trades.map fun trade => Text.trim trade.tickerName

/-- The first name that is not blank. -/
def firstName?
    (trades : List Trade) :
    Option String :=
  (names trades).find? fun name => !name.isEmpty

end Ledger

namespace Position

/-- A trade names a position that has no name yet. -/
theorem tickerName_of_apply
    {position next : Position}
    {sequence : Nat}
    {trade : Trade}
    (applied : position.apply sequence trade = .ok next) :
    next.tickerName =
      if position.tickerName.isEmpty then
        Text.trim trade.tickerName
      else
        position.tickerName := by
  obtain ⟨balance, -, rfl⟩ := apply_eq_ok.mp applied
  have settled :
      (position.settle balance).tickerName = position.tickerName := by
    unfold settle
    split <;> rfl
  unfold named
  rw [settled]
  split
  · rfl
  · exact settled

end Position

namespace Ledger

/-- A replay keeps the name of its start, or takes the first of its trades. -/
theorem tickerName_of_replay
    {start final : Position}
    {entries : List Entry}
    (replays : replay start entries = .ok final) :
    final.tickerName =
      if start.tickerName.isEmpty then
        (firstName? (entries.map (·.trade))).getD ""
      else
        start.tickerName := by
  induction entries generalizing start with
  | nil =>
      rw [replay_nil, Except.ok.injEq] at replays
      subst replays
      split
      case isTrue unnamed => exact String.isEmpty_iff.mp unnamed
      case isFalse => rfl
  | cons entry rest inductionHypothesis =>
      obtain ⟨next, applied, restReplays⟩ := replay_cons_eq_ok.mp replays
      rw [inductionHypothesis restReplays,
        Position.tickerName_of_apply applied]
      by_cases unnamed : start.tickerName.isEmpty
      case neg => simp only [unnamed, if_false, Bool.false_eq_true]
      simp only [unnamed, if_true, firstName?, names, List.map_cons]
      -- a blank name is passed over, any other is the first one
      by_cases blank : (Text.trim entry.trade.tickerName).isEmpty
      · simp only [blank, if_true, List.find?_cons, Bool.not_true]
      · simp only [blank, List.find?_cons, Bool.not_false,
          if_false, Option.getD_some, Bool.false_eq_true]

/-- The position of a group has the first name of its dated trades. -/
theorem tickerName_of_replayed
    {trades : List Trade}
    {key : GroupKey}
    {position : Position}
    (replays : replayed trades key = .ok position) :
    position.tickerName =
      (firstName? (tradesByDate trades key)).getD "" := by
  rw [tickerName_of_replay replays, map_trade_group]
  rfl

end Ledger

end NetWorth
