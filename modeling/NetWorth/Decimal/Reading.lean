import NetWorth.Decimal.Arithmetic
/-!
# Reading decimals

A decimal is read digit by digit.  Digits of the integer part must fit; digits after the point that
no longer fit are rounded away, half up by the first of them.  An underscore between digits is a gap
without a value; but where all places are used up and the digits are short, it is read as the first
digit that does not fit, a zero.  A second form adds a power of ten after the letter `e`.
-/

namespace NetWorth.Decimal

/-- The digits read so far: their number and how many of them stood after the point. -/
structure Numeral where
  coefficient : Nat
  scale : Nat

namespace Numeral

/-- Whether a character may stand where a digit stands, once a digit has been read. -/
def isDigitOrGap (c : Char) : Bool :=
  c.isDigit || c == '_'

/-- Ends the reading before a place that does not fit: `digit` is rounded half up into the last one.
-/
def roundUp (n : Numeral) (digit : Nat) : Option Numeral :=
  if digit < 5 then some n
  else if n.coefficient + 1 ≤ maxCoefficient then some { n with coefficient := n.coefficient + 1 }
  else if n.scale = 0 then none
  else some ⟨(n.coefficient + 1 + 4) / 10, n.scale - 1⟩

/-- Digits from this number on are long: one more might not fit 64 bits. -/
def longBound : Nat := 1_844_674_407_370_954_906

/-- Whether all places are used up and the digits before the last of them were short. -/
def endsAtGap (n : Numeral) : Bool :=
  n.scale == maxScale && n.coefficient / 10 < longBound

/-- Reads the places after the point; `seen` says that a digit has been read. -/
def readPlaces (n : Numeral) (seen : Bool) : List Char → Option Numeral
  | [] => if seen then some n else none
  | c :: rest =>
    if c.isDigit then
      let longer := 10 * n.coefficient + Text.Numeral.digitValue c
      if n.scale < maxScale ∧ longer ≤ maxCoefficient then
        readPlaces ⟨longer, n.scale + 1⟩ true rest
      else if rest.all isDigitOrGap then n.roundUp (Text.Numeral.digitValue c)
      else none
    else if c = '_' ∧ seen then
      if n.endsAtGap then if rest.all isDigitOrGap then some n else none
      else readPlaces n seen rest
    else none

/-- Reads the integer part and what follows it; `seen` says that a digit has been read. -/
def readWhole (coefficient : Nat) (seen : Bool) : List Char → Option Numeral
  | [] => if seen then some ⟨coefficient, 0⟩ else none
  | c :: rest =>
    if c.isDigit then
      let longer := 10 * coefficient + Text.Numeral.digitValue c
      if longer ≤ maxCoefficient then readWhole longer true rest else none
    else if c = '.' then readPlaces ⟨coefficient, 0⟩ seen rest
    else if c = '_' ∧ seen then readWhole coefficient seen rest
    else none

end Numeral

/-- Reads a decimal without an exponent: a sign that may be missing, then digits with at most one
point among them and underscores after the first.  A zero has no sign. -/
def ofChars? (cs : List Char) : Option Decimal := do
  let (negative, digits) := match cs with
    | '-' :: rest => (true, rest)
    | '+' :: rest => (false, rest)
    | _ => (false, cs)
  let n ← Numeral.readWhole 0 false digits
  ofCoefficient? (if negative then -n.coefficient else n.coefficient) n.scale

/-- Divides by `10 ^ places`.  Places beyond the largest scale are rounded away, half up, and the
sign stays even if no digit does. -/
def shiftRight? (a : Decimal) (places : Nat) : Option Decimal :=
  if maxScale < places then none
  else if a.scale + places ≤ maxScale then ofParts? a.negative a.magnitude (a.scale + places)
  else
    let unit := Nat.pow 10 (a.scale + places - maxScale)
    ofParts? a.negative ((a.magnitude + unit / 2) / unit) maxScale

/-- Multiplies by `10 ^ places`.  Where places after the point are used up, the result has none of
the zeros at its end. -/
def shiftLeft? (a : Decimal) (places : Nat) : Option Decimal :=
  if places ≤ a.scale then ofParts? a.negative a.magnitude (a.scale - places)
  else if maxScale < places then none
  else do
    let factor ← ofInt? (Nat.pow 10 places)
    let product ← a.mul? factor
    return product.trimZeros

/-- Reads a decimal with an exponent: a decimal, the letter `e` in either case, and an integer. -/
def ofScientific? (cs : List Char) : Option Decimal := do
  let isMark c := c == 'e' || c == 'E'
  let value ← ofChars? (cs.takeWhile (!isMark ·))
  match cs.dropWhile (!isMark ·) with
  | _ :: '-' :: exponent => value.shiftRight? (← Text.Numeral.readBelow? UInt32.size exponent)
  | _ :: exponent => value.shiftLeft? (← Text.Numeral.readBelow? UInt32.size exponent)
  | [] => none

/-- Reads a decimal in either form. -/
def ofText? (s : String) : Option Decimal :=
  (ofChars? s.toList).or (ofScientific? s.toList)

end NetWorth.Decimal
