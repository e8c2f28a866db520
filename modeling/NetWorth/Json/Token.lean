import NetWorth.Json.Number
import NetWorth.Text.Bytes
/-!
# JSON tokens

Splits a text into tokens.  A string must be closed and holds no bare control character.  Its
escapes name characters: a surrogate is only legible as the first half of a pair.  A byte that
belongs to no character is illegible in a string and may not stand anywhere else.
-/

namespace NetWorth.Json

/-- The words of a JSON text. -/
inductive Token where
  | openArray
  | closeArray
  | openObject
  | closeObject
  | comma
  | colon
  | null
  | bool (b : Bool)
  /-- A number, if it is in range. -/
  | num (n : Option JsonNumber)
  /-- A string, if it is legible. -/
  | str (s : Option String)

namespace Token

/-- The blanks between tokens. -/
def isSpace (c : Char) : Bool :=
  c == ' ' || c == '\n' || c == '\t' || c == '\r'

/-- The characters of which numbers are made. -/
def isNumberPart (c : Char) : Bool :=
  c.isDigit || c == '-' || c == '+' || c == '.' || c == 'e' || c == 'E'

/-- The value of a digit in base sixteen. -/
def hexValue? (c : Char) : Option Nat :=
  if c.isDigit then some (c.toNat - 48)
  else if 'a' ≤ c ∧ c ≤ 'f' then some (c.toNat - 87)
  else if 'A' ≤ c ∧ c ≤ 'F' then some (c.toNat - 55)
  else none

/-- Reads four digits in base sixteen. -/
def hexUnit? : Text.Raw → Option (Nat × Text.Raw)
  | some a :: some b :: some c :: some d :: rest => do
    let digits ← [a, b, c, d].mapM hexValue?
    return (digits.foldl (fun n digit => 16 * n + digit) 0, rest)
  | _ => none

/-- The first and the last unit of the first halves of pairs. -/
def isHighHalf (unit : Nat) : Bool := 0xD800 ≤ unit && unit < 0xDC00

/-- Units that are the second halves of pairs. -/
def isLowHalf (unit : Nat) : Bool := 0xDC00 ≤ unit && unit < 0xE000

/-- The second half of a pair at the front of a text. -/
def lowHalf? : Text.Raw → Option (Nat × Text.Raw)
  | some '\\' :: some 'u' :: rest => (hexUnit? rest).filter fun (unit, _) => isLowHalf unit
  | _ => none

/-- Reads what follows the letter `u` of an escape: one unit, or two that form a pair.  Half a pair
on its own names no character. -/
def numberedChar? (cs : Text.Raw) : Option (Option Char × Text.Raw) := do
  let (unit, rest) ← hexUnit? cs
  if isHighHalf unit then
    match lowHalf? rest with
    | some (second, rest) =>
      return (some (Char.ofNat (0x10000 + (unit - 0xD800) * 0x400 + (second - 0xDC00))), rest)
    | none => return (none, rest)
  else if isLowHalf unit then return (none, rest)
  else return (some (Char.ofNat unit), rest)

/-- Reads what follows the backslash of an escape. -/
def escaped? : Text.Raw → Option (Option Char × Text.Raw)
  | [] => none
  | none :: _ => none
  | some c :: rest =>
    if c = '"' ∨ c = '\\' ∨ c = '/' then some (some c, rest)
    else if c = 'b' then some (some '\x08', rest)
    else if c = 'f' then some (some '\x0c', rest)
    else if c = 'n' then some (some '\n', rest)
    else if c = 'r' then some (some '\r', rest)
    else if c = 't' then some (some '\t', rest)
    else if c = 'u' then numberedChar? rest
    else none

/-- Reads a string up to its closing quote; gives its characters in reverse, if they are all
legible, and what follows. -/
def scanString (reversed : Option (List Char)) :
    Text.Raw → Option (Option (List Char) × Text.Raw)
  | [] => none
  | none :: rest => scanString (add none) rest
  | some c :: rest =>
    if c = '"' then some (reversed, rest)
    else if c = '\\' then
      match escaped? rest with
      | none => none
      | some (e, after) =>
        if after.length ≤ rest.length then scanString (add e) after else none
    else if c.toNat < 0x20 then none
    else scanString (add (some c)) rest
termination_by cs => cs.length
decreasing_by all_goals simp only [List.length_cons]; omega
where
  add (c : Option Char) : Option (List Char) := do return (← c) :: (← reversed)

/-- Reads one token that starts with the character `c`, blanks apart. -/
def scanOne (c : Char) (rest : Text.Raw) : Option (Token × Text.Raw) :=
  if c = '[' then some (.openArray, rest)
  else if c = ']' then some (.closeArray, rest)
  else if c = '\x7b' then some (.openObject, rest)
  else if c = '\x7d' then some (.closeObject, rest)
  else if c = ',' then some (.comma, rest)
  else if c = ':' then some (.colon, rest)
  else if c = '"' then (scanString (some []) rest).map fun (cs, after) =>
    (.str (cs.map fun cs => String.ofList cs.reverse), after)
  else if isNumberPart c then
    let more := rest.takeWhile (·.any isNumberPart)
    (JsonNumber.parts? (c :: more.reduceOption)).map fun parts =>
      (.num parts.number?, rest.drop more.length)
  else if c = 'n' ∧ rest.take 3 = ['u', 'l', 'l'].map some then some (.null, rest.drop 3)
  else if c = 't' ∧ rest.take 3 = ['r', 'u', 'e'].map some then some (.bool true, rest.drop 3)
  else if c = 'f' ∧ rest.take 4 = ['a', 'l', 's', 'e'].map some then some (.bool false, rest.drop 4)
  else none

/-- Splits a text into its tokens. -/
def scan (cs : Text.Raw) : Option (List Token) :=
  match cs with
  | [] => some []
  | none :: _ => none
  | some c :: rest =>
    if isSpace c then scan rest
    else
      match scanOne c rest with
      | none => none
      | some (token, after) =>
        if after.length ≤ rest.length then (scan after).map (token :: ·) else none
termination_by cs.length
decreasing_by all_goals simp only [List.length_cons]; omega

end Token

end NetWorth.Json
