/-!
# Numerals in base ten

Writing a natural number and reading it back.  Only the ASCII digits count as digits.
-/

namespace NetWorth.Text.Numeral

/-- The value of one digit. -/
def digitValue (c : Char) : Nat :=
  c.toNat - 48

/-- The number that a row of digits stands for, the most significant first. -/
def value (digits : List Char) : Nat :=
  digits.foldl (fun n c => 10 * n + digitValue c) 0

/-- The digits of a number without leading zeros. -/
def write (n : Nat) : List Char :=
  Nat.toDigits 10 n

/-- Digits padded with zeros in front to at least `width` of them. -/
def pad (width : Nat) (digits : List Char) : List Char :=
  List.replicate (width - digits.length) '0' ++ digits

/-- The digits of a number, at least `width` of them. -/
def writePadded (width n : Nat) : List Char :=
  pad width (write n)

/-- Reads a row of one or more digits and nothing else. -/
def read? (cs : List Char) : Option Nat :=
  if !cs.isEmpty && cs.all Char.isDigit then some (value cs) else none

/-- Reads a row of digits that may have a plus sign in front, if the number is below `bound`. -/
def readBelow? (bound : Nat) (cs : List Char) : Option Nat :=
  let digits := match cs with
    | '+' :: rest => rest
    | _ => cs
  (read? digits).filter (· < bound)

/-- Splits off the longest row of at most `most` digits in front. -/
def takeDigits (most : Nat) (cs : List Char) : List Char × List Char :=
  let digits := (cs.take most).takeWhile Char.isDigit
  (digits, cs.drop digits.length)

end NetWorth.Text.Numeral
