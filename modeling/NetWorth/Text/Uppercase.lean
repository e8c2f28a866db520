import NetWorth.Text.Uppercase.Table
/-!
# Upper case

The upper case of a character and of a text in every script, by the tables of
`NetWorth.Text.Uppercase.Table`.  A character may grow into several, so the unit is a list.
-/

namespace NetWorth.Text

namespace Uppercase

/-- The capital that a run gives to a code point, if it covers it. -/
def Run.capital? (run : Run) (n : Nat) : Option Nat :=
  if run.first ≤ n ∧ (n - run.first) % run.step = 0 ∧ (n - run.first) / run.step < run.count then
    some (run.image + (n - run.first))
  else
    none

/-- The upper case of a code point. -/
def codes (n : Nat) : List Nat :=
  match expansions.find? (·.1 == n) with
  | some (_, image) => image
  | none => [(runs.findSome? (·.capital? n)).getD n]

end Uppercase

/-- The upper case of a character. -/
def upperChar (c : Char) : List Char :=
  (Uppercase.codes c.toNat).map Char.ofNat

/-- The upper case of each character in turn. -/
def upperChars (cs : List Char) : List Char :=
  cs.flatMap upperChar

end NetWorth.Text
