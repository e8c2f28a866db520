import NetWorth.Toml.Reader
/-!
# Strings

Strings come in four forms: between double quotes with escapes or between single quotes without, and
each of them on one line or, with three quotes, over several lines.
-/

namespace NetWorth.Toml.Reader

/-- The value of a digit in base sixteen. -/
def hexValue (c : Char) : Nat :=
  if c.isDigit then c.toNat - 48 else c.toLower.toNat - 87

/-- Whether a character is a digit in base sixteen. -/
def isHexDigit (c : Char) : Bool :=
  c.isDigit || ('a' ≤ c.toLower && c.toLower ≤ 'f')

/-- A character by its number of `count` digits in base sixteen. -/
def numbered (count : Nat) : Reader Char := do
  let n := (← exactly count isHexDigit).foldl (fun n c => 16 * n + hexValue c) 0
  check (n < 0xD800 || (0xE000 ≤ n && n < 0x110000))
  return Char.ofNat n

/-- A character after a backslash. -/
def escape : Reader Char := do
  mark '\\'
  match ← oneOf fun _ => true with
  | 'b' => return '\x08'
  | 't' => return '\t'
  | 'n' => return '\n'
  | 'f' => return '\x0c'
  | 'r' => return '\r'
  | '"' => return '"'
  | '\\' => return '\\'
  | 'u' => numbered 4
  | 'U' => numbered 8
  | _ => failure

/-- A string on one line between double quotes. -/
def basic : Reader String := do
  mark '"'
  let cs ← many (oneOf (fun c => isText c && c != '"' && c != '\\') <|> escape)
  mark '"'
  return String.ofList cs

/-- A string on one line between single quotes. -/
def literal : Reader String := do
  mark '\''
  let cs ← row fun c => isText c && c != '\''
  mark '\''
  return String.ofList cs

/-- One or two quotes inside a string over several lines. -/
def fewQuotes (quote : Char) : Reader (List Char) := do
  let quotes ← row (· == quote)
  check (!quotes.isEmpty && quotes.length < 3)
  return quotes

/-- The three quotes at the end of a string over several lines, and up to two before them that
belong to it. -/
def closingQuotes (quote : Char) : Reader (List Char) := do
  let quotes ← row (· == quote)
  check (3 ≤ quotes.length && quotes.length ≤ 5)
  return quotes.drop 3

/-- A backslash at the end of a line, which joins it with the next text. -/
def join : Reader (List Char) := do
  mark '\\'
  blanks
  newline
  let _ ← many (oneOf (fun c => c == ' ' || c == '\t') *> pure () <|> newline)
  return []

/-- A string over several lines, of the given parts between three quotes.  An end of line directly
after the opening is dropped. -/
def multiline (quote : Char) (parts : Reader (List Char)) : Reader String := do
  let _ ← exactly 3 (· == quote)
  let _ ← optional newline
  let texts ← many (parts <|> (newline *> pure ['\n']) <|> fewQuotes quote)
  let last ← closingQuotes quote
  return String.ofList (texts.flatten ++ last)

/-- One or more characters that satisfy a condition. -/
def chunk (accept : Char → Bool) : Reader (List Char) := do
  let cs ← row accept
  check !cs.isEmpty
  return cs

/-- A string in any of the four forms. -/
def string : Reader String := fun cs =>
  if "\"\"\"".toList.isPrefixOf cs then
    multiline '"' (chunk (fun c => isText c && c != '"' && c != '\\') <|> join <|>
      (do return [← escape])) cs
  else if "'''".toList.isPrefixOf cs then
    multiline '\'' (chunk fun c => isText c && c != '\'') cs
  else (basic <|> literal) cs

end NetWorth.Toml.Reader
