import NetWorth.Text.Blank
import NetWorth.Text.Numeral
import NetWorth.Text.Quoted
/-!
# Lengths of time

A span has whole seconds that fit 64 bits and a part of a second.  Its text is a number and one
unit, as in `20m`: reading takes any of the four units, and writing takes the largest that divides
the seconds, so equal spans have equal texts.
-/

namespace NetWorth

/-- A length of time. -/
structure Span where
  seconds : Nat
  nanos : Nat
  seconds_lt : seconds < UInt64.size
  nanos_lt : nanos < 1_000_000_000
deriving DecidableEq

/-- The units of a span. -/
inductive TimeUnit where
  | day
  | hour
  | minute
  | second
deriving DecidableEq

namespace TimeUnit

/-- The seconds in a unit. -/
def length : TimeUnit → Nat
  | day => 86400
  | hour => 3600
  | minute => 60
  | second => 1

/-- The letter that stands for a unit. -/
def letter : TimeUnit → Char
  | day => 'd'
  | hour => 'h'
  | minute => 'm'
  | second => 's'

/-- The units from the largest to the smallest. -/
def all : List TimeUnit := [day, hour, minute, second]

/-- The unit of a small letter. -/
def ofLetter? (c : Char) : Option TimeUnit :=
  all.find? (·.letter == c)

end TimeUnit

/-- Why a text is not a span. -/
inductive SpanError where
  | empty
  | noUnit
  | badNumber (text : String)
  | tooLarge

/-- The message of a failed reading. -/
def SpanError.message : SpanError → String
  | empty => "Duration is empty"
  | noUnit => "Duration must end with d, h, m, or s"
  | badNumber text => "Invalid number in duration " ++ Text.quoted text
  | tooLarge => "Duration is too large"

namespace Span

/-- Whole seconds as a span. -/
def ofSeconds? (seconds : Nat) : Option Span :=
  if h : seconds < UInt64.size then some ⟨seconds, 0, h, by decide⟩ else none

/-- Seconds and nanoseconds as a span. -/
def ofParts? (seconds nanos : Nat) : Option Span :=
  if h : seconds < UInt64.size ∧ nanos < 1_000_000_000 then some ⟨seconds, nanos, h.1, h.2⟩
  else none

/-- Twenty minutes. -/
def twentyMinutes : Span := ⟨1200, 0, by decide, by decide⟩

/-- One hour. -/
def oneHour : Span := ⟨3600, 0, by decide, by decide⟩

/-- The whole length in nanoseconds. -/
def totalNanos (s : Span) : Nat :=
  s.seconds * 1_000_000_000 + s.nanos

/-- Reads a number and a unit, in either case and with blanks around both. -/
def ofText (text : String) : Except SpanError Span :=
  let cs := (Text.trimChars text.toList).map Char.toLower
  match cs.getLast? with
  | none => .error .empty
  | some letter =>
    match TimeUnit.ofLetter? letter with
    | none => .error .noUnit
    | some unit =>
      match Text.Numeral.readBelow? UInt64.size (Text.trimChars cs.dropLast) with
      | none => .error (.badNumber (String.ofList cs))
      | some count =>
        match ofSeconds? (count * unit.length) with
        | none => .error .tooLarge
        | some span => .ok span

/-- The largest unit whose length divides the seconds. -/
def largestUnit (seconds : Nat) : TimeUnit :=
  (TimeUnit.all.find? fun unit => seconds % unit.length == 0).getD .second

/-- Writes the whole seconds with the largest unit that divides them. -/
def toText (s : Span) : String :=
  let unit := if s.seconds = 0 then .second else largestUnit s.seconds
  String.ofList (Text.Numeral.write (s.seconds / unit.length) ++ [unit.letter])

end Span

end NetWorth
