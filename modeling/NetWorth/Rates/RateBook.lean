import NetWorth.Rates.RateTable
/-!
# Stored rates

The last rate of every pair of currencies, from which a table for any base is read.
-/

namespace NetWorth

/-- The rate of one pair, with the time at which it was stored. -/
structure StoredRate where
  base : String
  target : String
  rate : Decimal
  updatedAt : Instant
deriving DecidableEq

/-- Reads the rates for a base currency, or fails with a cause. -/
structure RateSource (m : Type → Type) where
  ratesFor : String → m (Except String RateTable)

/-- The stored rates by pairs of normal codes. -/
structure RateBook where
  rates : Table (String × String) StoredRate

namespace RateBook

def empty : RateBook := ⟨.empty⟩

/-- Stores the rate of a pair in place of the one before. -/
def upsert (b : RateBook) (base target : String) (rate : Decimal) (updatedAt : Instant) :
    RateBook :=
  let base := normalCode base
  let target := normalCode target
  ⟨b.rates.insert (base, target) ⟨base, target, rate, updatedAt⟩⟩

/-- Stores every rate of a table. -/
def load (b : RateBook) (table : RateTable) (updatedAt : Instant) : RateBook :=
  table.rates.entries.foldl (fun b entry => b.upsert table.base entry.1 entry.2 updatedAt) b

/-- The later of two times, of which the first may be missing. -/
def later (a : Option Instant) (b : Instant) : Option Instant :=
  match a with
  | some a => if b ≤ a then some a else some b
  | none => some b

/-- Adds a stored rate to a table. -/
def addStored (t : RateTable) (stored : StoredRate) : RateTable :=
  { t with
    rates := t.rates.insert stored.target stored.rate
    updatedAt := later t.updatedAt stored.updatedAt }

/-- The rates for a base, with the latest of their times. -/
def ratesFor (b : RateBook) (base : String) : RateTable :=
  (b.rates.values.filter (·.base == normalCode base)).foldl addStored (.empty base)

end RateBook

end NetWorth
