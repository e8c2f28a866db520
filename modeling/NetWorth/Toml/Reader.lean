/-!
# Readers

A reader takes characters off the front of a text or fails.  Repetition ends where the repeated
reader fails or takes nothing, so every reader ends.
-/

namespace NetWorth.Toml

/-- Takes characters off the front of a text, or fails and takes none. -/
abbrev Reader := StateT (List Char) Option

namespace Reader

/-- Takes one character that satisfies a condition. -/
def oneOf (accept : Char → Bool) : Reader Char
  | c :: rest => if accept c then some (c, rest) else none
  | [] => none

/-- Takes one given character. -/
def mark (c : Char) : Reader Unit := do
  let _ ← oneOf (· == c)

/-- Takes the given characters. -/
def word (expected : String) : Reader Unit := fun cs =>
  if expected.toList.isPrefixOf cs then some ((), cs.drop expected.length) else none

/-- Takes the longest row of characters that satisfy a condition. -/
def row (accept : Char → Bool) : Reader (List Char) := fun cs =>
  some (cs.takeWhile accept, cs.dropWhile accept)

/-- Takes exactly `count` characters that satisfy a condition. -/
def exactly (count : Nat) (accept : Char → Bool) : Reader (List Char) := fun cs =>
  let front := cs.take count
  if front.length = count ∧ front.all accept then some (front, cs.drop count) else none

/-- Reads from characters as often as possible. -/
def manyFrom (read : Reader α) (cs : List Char) : List α × List Char :=
  match read cs with
  | none => ([], cs)
  | some (a, rest) =>
    if rest.length < cs.length then
      let (more, rest) := manyFrom read rest
      (a :: more, rest)
    else ([], cs)
termination_by cs.length

/-- Reads as often as possible. -/
def many (read : Reader α) : Reader (List α) := fun cs =>
  some (manyFrom read cs)

/-- Reads once or more often, with a separator between. -/
def separated (read : Reader α) (separator : Reader β) : Reader (List α) := do
  let first ← read
  return first :: (← many (do
    let _ ← separator
    read))

/-- The characters that a reader takes. -/
def written (read : Reader α) : Reader String := fun cs =>
  match read cs with
  | some (_, rest) => some (String.ofList (cs.take (cs.length - rest.length)), rest)
  | none => none

/-- Goes on only if a condition holds. -/
def check (condition : Bool) : Reader Unit :=
  if condition then pure () else failure

/-- Blanks and tabs. -/
def blanks : Reader Unit := do
  let _ ← row fun c => c == ' ' || c == '\t'

/-- The end of a line, with or without a carriage return. -/
def newline : Reader Unit :=
  word "\n" <|> word "\r\n"

/-- Whether a character may stand in a line of text: every character but the controls, and the tab.
-/
def isText (c : Char) : Bool :=
  c == '\t' || (0x20 ≤ c.toNat && c.toNat != 0x7F)

/-- A remark up to the end of the line. -/
def comment : Reader Unit := do
  mark '#'
  let _ ← row isText

/-- Blanks, remarks and ends of lines. -/
def gap : Reader Unit := do
  let _ ← many (do
    blanks
    let _ ← optional comment
    newline)
  blanks
  let _ ← optional comment

end Reader

end NetWorth.Toml
