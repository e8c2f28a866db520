import NetWorth.Text.Quoted.Table
/-!
# Quoted text

The form in which a message shows a text that it was given: between double quotes, with a backslash
before quotes and backslashes, short names for the common controls, and the number of every other
character that would not show on its own.
-/

namespace NetWorth.Text

namespace Quoted

/-- Whether a character is shown by its number. -/
def isNumbered (c : Char) : Bool :=
  let n := c.toNat
  n < 0x20 || (0x7F ≤ n && numberedRanges.any fun range => range.1 ≤ n && n ≤ range.2)

/-- A number in base sixteen with small letters. -/
def hex (n : Nat) : List Char :=
  Nat.toDigits 16 n

/-- How a character is shown inside the quotes. -/
def encodeChar (c : Char) : List Char :=
  if c = '"' then ['\\', '"']
  else if c = '\\' then ['\\', '\\']
  else if c = '\n' then ['\\', 'n']
  else if c = '\t' then ['\\', 't']
  else if c = '\r' then ['\\', 'r']
  else if c.toNat = 0 then ['\\', '0']
  else if isNumbered c then ['\\', 'u', '\x7b'] ++ hex c.toNat ++ ['\x7d']
  else [c]

end Quoted

/-- A text between double quotes. -/
def quoted (s : String) : String :=
  String.ofList ('"' :: s.toList.flatMap Quoted.encodeChar ++ ['"'])

end NetWorth.Text
