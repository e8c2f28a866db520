import NetWorth.Json.Basic
/-!
# JSON numbers

The grammar of a number and its value.  A number without fraction and exponent is an integer where
64 bits hold it.  Every other number is a significand, the first digits that 64 bits hold, times a
power of ten: significand, power and result are each rounded to binary floating point.
-/

namespace NetWorth.JsonNumber

/-- The written parts of a number: its sign, the digits before and after the point, and the
exponent. -/
structure Parts where
  negative : Bool
  whole : List Char
  places : List Char
  exponent : Option (Bool × List Char)

/-- The largest significand. -/
def maxSignificand : Nat := UInt64.size - 1

/-- The largest magnitude of a negative integer. -/
def maxNegative : Nat := 9_223_372_036_854_775_808

/-- The largest magnitude of a written exponent that is looked at. -/
def maxExponent : Nat := 2_147_483_647

/-- Reads the exponent after its letter: whether it is negative, and its digits. -/
def exponent? (cs : List Char) : Option (Bool × List Char) :=
  let (negative, digits) := match cs with
    | '-' :: rest => (true, rest)
    | '+' :: rest => (false, rest)
    | _ => (false, cs)
  if !digits.isEmpty && digits.all Char.isDigit then some (negative, digits) else none

/-- Splits a number into its parts, if it is well formed: no leading zeros, and a digit on both
sides of a point. -/
def parts? (cs : List Char) : Option Parts := do
  let (negative, rest) := match cs with
    | '-' :: rest => (true, rest)
    | _ => (false, cs)
  let whole := rest.takeWhile Char.isDigit
  guard (!whole.isEmpty && (whole.length == 1 || whole.head? != some '0'))
  let (places, rest) ← match rest.drop whole.length with
    | '.' :: rest =>
      let places := rest.takeWhile Char.isDigit
      if places.isEmpty then none else some (places, rest.drop places.length)
    | rest => some ([], rest)
  let exponent ← match rest with
    | [] => some none
    | c :: rest => if c = 'e' ∨ c = 'E' then (exponent? rest).map some else none
  return ⟨negative, whole, places, exponent⟩

/-- Takes the digits before the point into the significand while it has room; each further digit
counts as a factor of ten. -/
def gatherWhole (significand : Nat) : List Char → Nat × Int
  | [] => (significand, 0)
  | c :: rest =>
    let longer := 10 * significand + Text.Numeral.digitValue c
    if longer ≤ maxSignificand then gatherWhole longer rest
    else (significand, (c :: rest).length)

/-- Takes the digits after the point into the significand while it has room, and drops the rest. -/
def gatherPlaces (significand : Nat) (exponent : Int) : List Char → Nat × Int
  | [] => (significand, exponent)
  | c :: rest =>
    let longer := 10 * significand + Text.Numeral.digitValue c
    if longer ≤ maxSignificand then gatherPlaces longer (exponent - 1) rest
    else (significand, exponent)

/-- The largest power of ten that binary floating point holds. -/
def maxPower : Nat := 308

/-- The power of ten `10 ^ k` in binary floating point, for `k ≤ maxPower`. -/
def power (k : Nat) : Binary64 :=
  (Binary64.ofRatio? (Nat.pow 10 k) 1).getD Binary64.zero

/-- Multiplies by `10 ^ exponent`, in several roundings when the number is very small. -/
def scaled? (x : Binary64) (exponent : Int) : Option Binary64 :=
  if exponent.natAbs ≤ maxPower then
    if 0 ≤ exponent then x.mul? (power exponent.toNat) else x.div? (power exponent.natAbs)
  else if x.mantissa = 0 then some x
  else if 0 ≤ exponent then none
  else do
    let smaller ← x.div? (power maxPower)
    scaled? smaller (exponent + maxPower)
termination_by exponent.natAbs
decreasing_by
  have : maxPower = 308 := rfl
  omega

/-- The number that is not an integer of 64 bits. -/
def Parts.float? (p : Parts) : Option JsonNumber := do
  let (significand, dropped) := gatherWhole 0 p.whole
  let (significand, exponent) := gatherPlaces significand dropped p.places
  match p.exponent with
  | none => finish significand exponent
  | some (negative, digits) =>
    let written := Text.Numeral.value digits
    if maxExponent < written then
      if significand = 0 ∨ negative then some (.float p.negative Binary64.zero) else none
    else finish significand (if negative then exponent - written else exponent + written)
where
  finish (significand : Nat) (exponent : Int) : Option JsonNumber := do
    let x ← Binary64.ofRatio? significand 1
    return .float p.negative (← scaled? x exponent)

/-- The value of a number from its parts, if it is in range. -/
def Parts.number? (p : Parts) : Option JsonNumber :=
  if p.places.isEmpty && p.exponent.isNone then
    let n := Text.Numeral.value p.whole
    if !p.negative && n ≤ maxSignificand then some (.int n)
    else if p.negative && 0 < n && n ≤ maxNegative then some (.int (-n))
    else p.float?
  else p.float?

/-- Writes a number; one with a fraction part in its type shows a point. -/
def toChars : JsonNumber → List Char
  | .int n => (if n < 0 then ['-'] else []) ++ Text.Numeral.write n.natAbs
  | .float negative x =>
    let digits := x.toChars
    (if negative then ['-'] else []) ++ digits ++ (if digits.contains '.' then [] else ['.', '0'])

end NetWorth.JsonNumber
