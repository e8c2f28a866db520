import NetWorth.Ledger.Position
/-!
# Replaying a ledger

The trades of each group are replayed on their own, in order of date; trades of one day keep the
order of the ledger.  The groups come in order of their keys, and the first group with a rejected
trade decides the error.
-/

namespace NetWorth

/-- A trade with its place in the ledger. -/
structure Entry where
  sequence : Nat
  trade : Trade

namespace Ledger

/-- The trades of a ledger with their places. -/
def entries (trades : List Trade) : List Entry :=
  trades.zipIdx.map fun (trade, sequence) => ⟨sequence, trade⟩

/-- The keys of all groups, in order. -/
def keys (trades : List Trade) : List GroupKey :=
  GroupKey.sortDistinct (trades.map GroupKey.ofTrade)

/-- The trades of one group in the order in which they are replayed. -/
def group (trades : List Trade) (key : GroupKey) : List Entry :=
  ((entries trades).filter fun entry => GroupKey.ofTrade entry.trade == key).mergeSort
    fun a b => a.trade.date ≤ b.trade.date

/-- Replays entries on a position. -/
def replay (start : Position) (entries : List Entry) : Except LedgerError Position :=
  entries.foldlM (fun position entry => position.apply entry.sequence entry.trade) start

/-- The position of each group, in order of their keys, open or closed. -/
def allPositions (trades : List Trade) : Except LedgerError (List Position) :=
  (keys trades).mapM fun key => replay (Position.empty key) (group trades key)

/-- The open positions of a ledger, in order of their keys. -/
def positions (trades : List Trade) : Except LedgerError (List Position) :=
  (allPositions trades).map (·.filter (·.quantity.IsPositive))

end Ledger

end NetWorth
