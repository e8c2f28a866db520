import NetWorth.Time.Calendar
import NetWorth.Text.Blank
import NetWorth.Text.Numeral
/-!
# Dates

A date is the number of a day, between the first and the last day that the calendar holds.  Its text
is `YYYY-MM-DD`, with a sign in front of years that four digits do not write.
-/

namespace NetWorth

namespace Date

/-- The first day, 1 January -262143. -/
def firstDay : Int := -96465292

/-- The last day, 31 December 262142. -/
def lastDay : Int := 95026236

end Date

/-- A day, counted from 1 January 1970. -/
structure Date where
  day : Int
  first_le : Date.firstDay ≤ day
  le_last : day ≤ Date.lastDay
deriving DecidableEq

namespace Date

instance : LE Date := ⟨fun a b => a.day ≤ b.day⟩

instance : LT Date := ⟨fun a b => a.day < b.day⟩

instance (a b : Date) : Decidable (a ≤ b) :=
  inferInstanceAs (Decidable (a.day ≤ b.day))

instance (a b : Date) : Decidable (a < b) :=
  inferInstanceAs (Decidable (a.day < b.day))

/-- The date with a number, if the calendar holds it. -/
def ofDay? (day : Int) : Option Date :=
  if h : firstDay ≤ day ∧ day ≤ lastDay then some ⟨day, h.1, h.2⟩ else none

/-- The date with year, month and day of the month, if there is one. -/
def ofCivil? (c : Calendar.Civil) : Option Date :=
  if c.Valid then ofDay? (Calendar.dayNumber c) else none

/-- Year, month and day of the month. -/
def civil (d : Date) : Calendar.Civil :=
  Calendar.civil d.day

/-- The digits of a year: four where they suffice, and otherwise a sign and at least four. -/
def yearChars (year : Int) : List Char :=
  let digits := Text.Numeral.writePadded 4 year.natAbs
  if year < 0 then '-' :: digits
  else if 9999 < year then '+' :: digits
  else digits

/-- The written form. -/
def toChars (d : Date) : List Char :=
  let c := d.civil
  yearChars c.year ++ '-' :: Text.Numeral.writePadded 2 c.month ++
    '-' :: Text.Numeral.writePadded 2 c.day

/-- The written form as a text. -/
def toText (d : Date) : String :=
  String.ofList d.toChars

end Date

namespace Date.Reading

/-- Reads one to `most` digits. -/
def digits? (most : Nat) (cs : List Char) : Option (Nat × List Char) :=
  let (digits, rest) := Text.Numeral.takeDigits most cs
  if digits.isEmpty then none else some (Text.Numeral.value digits, rest)

/-- Reads a number of at most two digits, with blanks in front. -/
def field? (cs : List Char) : Option (Nat × List Char) :=
  digits? 2 (Text.dropBlanks cs)

/-- Reads a year, with blanks in front: at most four digits, or a sign and any number of them. -/
def year? (cs : List Char) : Option (Int × List Char) :=
  match Text.dropBlanks cs with
  | '-' :: rest => (digits? rest.length rest).map fun (n, after) => (-(n : Int), after)
  | '+' :: rest => (digits? rest.length rest).map fun (n, after) => ((n : Int), after)
  | cs => (digits? 4 cs).map fun (n, after) => ((n : Int), after)

/-- Reads the mark between two numbers, with blanks in front. -/
def mark? (mark : Char) (cs : List Char) : Option (List Char) :=
  match Text.dropBlanks cs with
  | c :: rest => if c = mark then some rest else none
  | [] => none

/-- Reads a date in front of a text. -/
def date? (cs : List Char) : Option (Date × List Char) := do
  let (year, cs) ← year? cs
  let (month, cs) ← field? (← mark? '-' cs)
  let (day, cs) ← field? (← mark? '-' cs)
  return (← ofCivil? ⟨year, month, day⟩, cs)

end Date.Reading

/-- Reads a date, with blanks around its parts. -/
def Date.ofText? (s : String) : Option Date := do
  let (date, rest) ← Reading.date? s.toList
  if (Text.dropBlanks rest).isEmpty then some date else none

end NetWorth
