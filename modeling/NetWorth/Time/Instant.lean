import NetWorth.Time.Date
import NetWorth.Time.Span
/-!
# Instants

An instant is a count of seconds from the start of 1970 and a count of nanoseconds within the
second.  A leap second is the second second with the number 59 of its minute: it has the same count
of seconds and its nanoseconds go on past one thousand million.
-/

namespace NetWorth

namespace Instant

/-- The first second of the first day. -/
def firstSecond : Int := Date.firstDay * 86400

/-- The last second of the last day. -/
def lastSecond : Int := Date.lastDay * 86400 + 86399

end Instant

/-- A point in time. -/
structure Instant where
  seconds : Int
  nanos : Nat
  first_le : Instant.firstSecond ≤ seconds
  le_last : seconds ≤ Instant.lastSecond
  nanos_lt : nanos < 2_000_000_000
  leap_at_59 : 1_000_000_000 ≤ nanos → seconds % 60 = 59
deriving DecidableEq

namespace Instant

/-- Time comes in order of seconds, then of nanoseconds. -/
instance : LT Instant :=
  ⟨fun a b => a.seconds < b.seconds ∨ (a.seconds = b.seconds ∧ a.nanos < b.nanos)⟩

instance : LE Instant :=
  ⟨fun a b => a.seconds < b.seconds ∨ (a.seconds = b.seconds ∧ a.nanos ≤ b.nanos)⟩

instance (a b : Instant) : Decidable (a < b) :=
  inferInstanceAs (Decidable (_ ∨ _))

instance (a b : Instant) : Decidable (a ≤ b) :=
  inferInstanceAs (Decidable (_ ∨ _))

/-- The instant with the given counts, if there is one. -/
def ofParts? (seconds : Int) (nanos : Nat) : Option Instant :=
  if h : firstSecond ≤ seconds ∧ seconds ≤ lastSecond ∧ nanos < 2_000_000_000 ∧
      (1_000_000_000 ≤ nanos → seconds % 60 = 59) then
    some ⟨seconds, nanos, h.1, h.2.1, h.2.2.1, h.2.2.2⟩
  else none

/-- The start of 1970. -/
def epoch : Instant := ⟨0, 0, by decide, by decide, by decide, by decide⟩

/-- The last instant outside leap seconds. -/
def greatest : Instant :=
  ⟨lastSecond, 999_999_999, by decide, by decide, by decide, by decide⟩

/-- Whether the instant lies in a leap second. -/
def InLeapSecond (t : Instant) : Prop := 1_000_000_000 ≤ t.nanos

instance (t : Instant) : Decidable t.InLeapSecond :=
  inferInstanceAs (Decidable (1_000_000_000 ≤ t.nanos))

/-- The nanoseconds from the start of 1970, outside leap seconds. -/
def totalNanos (t : Instant) : Int :=
  t.seconds * 1_000_000_000 + t.nanos

/-- The whole milliseconds from the start of 1970. -/
def totalMillis (t : Instant) : Int :=
  t.seconds * 1_000 + t.nanos / 1_000_000

/-- The instant with a count of nanoseconds from the start of 1970, if there is one. -/
def ofTotalNanos? (n : Int) : Option Instant :=
  ofParts? (n / 1_000_000_000) (n % 1_000_000_000).toNat

/-- Moves an instant by a signed number of nanoseconds.  A move that starts in a leap second and
does not leave it, or ends in the second before it, counts within it; any other move does not count
it. -/
def addNanos? (t : Instant) (delta : Int) : Option Instant :=
  if t.InLeapSecond then
    let whole := delta.tdiv 1_000_000_000
    let part := delta.tmod 1_000_000_000
    if 0 < whole ∨ (0 < part ∧ 2_000_000_000 ≤ t.nanos + part) then
      ofTotalNanos? (t.totalNanos - 1_000_000_000 + delta)
    else if whole < 0 then ofTotalNanos? (t.totalNanos + delta)
    else ofParts? t.seconds (t.nanos + part).toNat
  else ofTotalNanos? (t.totalNanos + delta)

/-- Moves an instant by a signed number of milliseconds. -/
def addMillis? (t : Instant) (millis : Int) : Option Instant :=
  t.addNanos? (millis * 1_000_000)

/-- The longest move, in nanoseconds: the milliseconds that 64 bits with a sign hold. -/
def longestMove : Nat := 9_223_372_036_854_775_807 * 1_000_000

/-- The instant a span later, or the greatest one where there is none. -/
def after (t : Instant) (s : Span) : Instant :=
  if s.totalNanos ≤ longestMove then (t.addNanos? s.totalNanos).getD greatest else greatest

/-- The day of an instant. -/
def date (t : Instant) : Date where
  day := t.seconds / 86400
  first_le := Int.le_ediv_of_mul_le (by decide) t.first_le
  le_last := by
    have last := t.le_last
    unfold lastSecond at last
    omega

/-- The places of a fraction of a second: none, three, six or nine of them. -/
def fractionChars (nanos : Nat) : List Char :=
  if nanos = 0 then []
  else if nanos % 1_000_000 = 0 then '.' :: Text.Numeral.writePadded 3 (nanos / 1_000_000)
  else if nanos % 1_000 = 0 then '.' :: Text.Numeral.writePadded 6 (nanos / 1_000)
  else '.' :: Text.Numeral.writePadded 9 nanos

/-- The written form: date, time of day and the letter `Z`.  A leap second has the number 60. -/
def toChars (t : Instant) : List Char :=
  let inDay := (t.seconds % 86400).toNat
  let (second, nanos) :=
    if t.InLeapSecond then (inDay % 60 + 1, t.nanos - 1_000_000_000) else (inDay % 60, t.nanos)
  t.date.toChars ++ 'T' :: Text.Numeral.writePadded 2 (inDay / 3600) ++
    ':' :: Text.Numeral.writePadded 2 (inDay / 60 % 60) ++
    ':' :: Text.Numeral.writePadded 2 second ++ fractionChars nanos ++ ['Z']

/-- The written form as a text. -/
def toText (t : Instant) : String :=
  String.ofList t.toChars

end Instant

namespace Instant.Reading

/-- Reads a fraction of a second if there is one; digits beyond the ninth are ignored. -/
def fraction? : List Char → Option (Nat × List Char)
  | '.' :: rest =>
    let (digits, after) := Text.Numeral.takeDigits 9 rest
    if digits.isEmpty then none
    else
      let nanos := Text.Numeral.value digits * Nat.pow 10 (9 - digits.length)
      some (nanos, after.dropWhile Char.isDigit)
  | cs => some (0, cs)

/-- Reads the time of day: seconds from midnight and nanoseconds. -/
def time? (cs : List Char) : Option (Nat × Nat × List Char) := do
  let (hour, cs) ← Date.Reading.field? cs
  let (minute, cs) ← Date.Reading.field? (← Date.Reading.mark? ':' cs)
  let (second, cs) ← Date.Reading.field? (← Date.Reading.mark? ':' cs)
  let (nanos, cs) ← fraction? cs
  guard (hour < 24 && minute < 60 && second ≤ 60)
  if second = 60 then some (hour * 3600 + minute * 60 + 59, nanos + 1_000_000_000, cs)
  else some (hour * 3600 + minute * 60 + second, nanos, cs)

/-- Reads two digits that are written without blanks. -/
def twoDigits? : List Char → Option (Nat × List Char)
  | a :: b :: rest =>
    if a.isDigit && b.isDigit then some (Text.Numeral.value [a, b], rest) else none
  | _ => none

/-- Reads hours and minutes of a distance from universal time, with colons or blanks between them.
-/
def distance? (cs : List Char) : Option (Nat × List Char) := do
  let (hours, cs) ← twoDigits? cs
  let (minutes, cs) ← twoDigits? (cs.dropWhile fun c => c == ':' || Text.isBlank c)
  guard (minutes < 60 && hours < 24)
  return (hours * 3600 + minutes * 60, cs)

/-- Reads the zone: universal time by name or letter, or a sign and a distance in seconds. -/
def zone? (cs : List Char) : Option (Int × List Char) :=
  if (cs.take 3).map Char.toUpper = ['U', 'T', 'C'] then some (0, cs.drop 3)
  else
    match cs with
    | [] => none
    | c :: rest =>
      if c = 'Z' ∨ c = 'z' then some (0, rest)
      else if c = '+' then (distance? rest).map fun (n, after) => ((n : Int), after)
      else if c = '-' ∨ c = '\u2212' then (distance? rest).map fun (n, after) => (-(n : Int), after)
      else none

/-- Reads the character between date and time. -/
def separator? : List Char → Option (List Char)
  | c :: rest => if c = 'T' ∨ c = 't' ∨ c = ' ' then some rest else none
  | [] => none

end Instant.Reading

/-- Reads an instant: a date, a time of day and a zone. -/
def Instant.ofText? (s : String) : Option Instant := do
  let (date, cs) ← Date.Reading.date? s.toList
  let (second, nanos, cs) ← Reading.time? (← Reading.separator? cs)
  let (distance, rest) ← Reading.zone? (Text.dropBlanks cs)
  guard (Text.dropBlanks rest).isEmpty
  ofParts? (date.day * 86400 + second - distance) nanos

end NetWorth
