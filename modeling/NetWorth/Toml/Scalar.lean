import NetWorth.Text.Numeral
import NetWorth.Time.Calendar
import NetWorth.Toml.Basic
import NetWorth.Toml.Quoted
/-!
# Numbers, times and truth values

Integers fit 64 bits with a sign.  Floating point numbers must not be too large for 64 bits, and
times must exist on the calendar and the clock.
-/

namespace NetWorth.Toml.Reader

/-- Digits that may have single underscores between them, which are dropped. -/
def digits (accept : Char → Bool) : Reader (List Char) := do
  let first ← oneOf accept
  let rest ← many (do
    let _ ← optional (mark '_')
    oneOf accept)
  return first :: rest

/-- Digits of an integer: a lone zero, or digits without a zero in front. -/
def wholeDigits : Reader (List Char) := fun cs =>
  match cs with
  | '0' :: rest => some (['0'], rest)
  | _ => digits Char.isDigit cs

/-- A sign that may be missing; says whether it is a minus. -/
def sign : Reader Bool := do
  return (← optional (oneOf fun c => c == '+' || c == '-')) == some '-'

/-- The value of digits in a base. -/
def valueIn (base : Nat) (ds : List Char) : Nat :=
  ds.foldl (fun n c => base * n + hexValue c) 0

/-- Integers of 64 bits with a sign lie below this bound; only a negative one reaches it. -/
def integerBound : Nat := 9_223_372_036_854_775_808

/-- An integer in a base other than ten, after its letter. -/
def integerIn (letter : String) (base : Nat) : Reader Toml := do
  word letter
  let n := valueIn base (← digits fun c => isHexDigit c && hexValue c < base)
  check (n < integerBound)
  return .integer n

/-- An integer in base ten. -/
def decimalInteger : Reader Toml := do
  let negative ← sign
  let n := valueIn 10 (← wholeDigits)
  check (n < integerBound || (negative && n == integerBound))
  return .integer (if negative then -n else n)

/-- An integer. -/
def integer : Reader Toml := fun cs =>
  match cs with
  | '0' :: 'x' :: _ => integerIn "0x" 16 cs
  | '0' :: 'o' :: _ => integerIn "0o" 8 cs
  | '0' :: 'b' :: _ => integerIn "0b" 2 cs
  | _ => decimalInteger cs

/-- The smallest number that is too large for a floating point number of 64 bits. -/
def floatBound : Nat := Nat.pow 2 1024 - Nat.pow 2 970

/-- Whether the number `n * 10 ^ exponent` of `count` digits is too large. -/
def isTooLarge (n count : Nat) (exponent : Int) : Bool :=
  if n = 0 ∨ count + exponent < 300 then false
  else if 320 < count + exponent then true
  else floatBound * Nat.pow 10 (-exponent).toNat ≤ n * Nat.pow 10 exponent.toNat

/-- The places of a floating point number. -/
def places : Reader (List Char) := do
  mark '.'
  digits Char.isDigit

/-- The exponent of a floating point number. -/
def exponent : Reader Int := do
  let _ ← oneOf fun c => c == 'e' || c == 'E'
  let negative ← sign
  let n := valueIn 10 (← digits Char.isDigit)
  return if negative then -n else n

/-- A finite floating point number: places, an exponent or both follow the integer part. -/
def finiteFloat : Reader Unit := do
  let negative ← sign
  let whole ← wholeDigits
  let after ← optional places
  let power ← optional exponent
  check (after.isSome || power.isSome)
  let ds := (whole ++ after.getD []).dropWhile (· == '0')
  check (negative || !isTooLarge (valueIn 10 ds) ds.length (power.getD 0 - (after.getD []).length))

/-- A floating point number, which may be infinite or no number. -/
def float : Reader Toml := do
  return .float (← written (finiteFloat <|> do
    let _ ← sign
    word "inf" <|> word "nan"))

/-- A number of exactly `count` digits. -/
def number (count : Nat) : Reader Nat := do
  return Text.Numeral.value (← exactly count Char.isDigit)

/-- A day of the calendar. -/
def date : Reader Unit := do
  let year ← number 4
  mark '-'
  let month ← number 2
  mark '-'
  let day ← number 2
  check (Calendar.Civil.mk year month day).Valid

/-- A time of day, in which a minute may have a second number 60. -/
def timeOfDay : Reader Unit := do
  let hour ← number 2
  mark ':'
  let minute ← number 2
  mark ':'
  let second ← number 2
  check (hour < 24 && minute < 60 && second ≤ 60)
  let _ ← optional (do
    mark '.'
    chunk Char.isDigit)

/-- A distance from universal time. -/
def distance : Reader Unit := do
  (do
    let _ ← oneOf fun c => c == 'Z' || c == 'z') <|> (do
    let _ ← oneOf fun c => c == '+' || c == '-'
    let hour ← number 2
    mark ':'
    let minute ← number 2
    check (hour < 24 && minute < 60))

/-- A day, a time of day, or both, with a distance from universal time or without. -/
def time : Reader Toml := do
  return .time (← written ((do
    date
    let _ ← optional (do
      let _ ← oneOf fun c => c == 'T' || c == 't' || c == ' '
      timeOfDay
      optional distance)) <|> timeOfDay))

/-- A value without parts. -/
def scalar : Reader Toml :=
  (do return .text (← string)) <|> time <|> float <|> integer <|>
    (do
      word "true"
      return .boolean true) <|>
    (do
      word "false"
      return .boolean false)

end NetWorth.Toml.Reader
