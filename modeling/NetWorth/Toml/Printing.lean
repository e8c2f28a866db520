/-!
# Writing TOML strings

A string is written in the plainest form that shows it without escapes: between double quotes,
between single quotes, and then the same two over several lines.  Escapes are used only where
controls leave no other way, or where no kind of quotes is free.
-/

namespace NetWorth.Toml

/-- The forms of a string. -/
inductive Form where
  | basic
  | literal
  | multilineBasic
  | multilineLiteral
deriving DecidableEq

namespace Form

/-- The quotes around a string. -/
def quotes : Form → List Char
  | basic => ['"']
  | literal => ['\'']
  | multilineBasic => ['"', '"', '"']
  | multilineLiteral => ['\'', '\'', '\'']

/-- Whether a form may go over several lines. -/
def isMultiline : Form → Bool
  | basic | literal => false
  | multilineBasic | multilineLiteral => true

/-- Whether a form knows escapes. -/
def hasEscapes : Form → Bool
  | basic | multilineBasic => true
  | literal | multilineLiteral => false

end Form

/-- The length of the longest row of a character. -/
def longestRow (mark : Char) (cs : List Char) : Nat :=
  (cs.foldl (fun (longest, current) c =>
    if c = mark then (max longest (current + 1), current + 1) else (longest, 0)) (0, 0)).1

/-- Whether a character can only be shown by an escape: a control, but not a tab or an end of line.
-/
def isControl (c : Char) : Bool :=
  c != '\t' && c != '\n' && (c.toNat < 0x20 || c.toNat == 0x7F)

/-- The form in which a string is written. -/
def Form.of (cs : List Char) : Form :=
  let hasControl := cs.any isControl
  let hasLines := cs.contains '\n'
  let hasBackslash := cs.contains '\\'
  let double := longestRow '"' cs
  let single := longestRow '\'' cs
  if ¬ hasControl ∧ ¬ hasBackslash ∧ double = 0 ∧ ¬ hasLines then .basic
  else if ¬ hasControl ∧ single = 0 ∧ ¬ hasLines then .literal
  else if ¬ hasControl ∧ ¬ hasBackslash ∧ double ≤ 2 then .multilineBasic
  else if ¬ hasControl ∧ single ≤ 2 then .multilineLiteral
  else if hasLines then .multilineBasic
  else .basic

/-- A character by its number, with capital digits in base sixteen. -/
def escapeNumber (c : Char) : List Char :=
  let ds := (Nat.toDigits 16 c.toNat).map Char.toUpper
  '\\' :: 'u' :: (List.replicate (4 - ds.length) '0' ++ ds)

/-- How a character is written in a form with escapes, where `quotes` double quotes stand directly
before it. -/
def escapeIn (form : Form) (quotes : Nat) (c : Char) : List Char :=
  if c = '"' then
    if quotes < (if form.isMultiline then 2 else 0) then ['"'] else ['\\', '"']
  else if c = '\\' then ['\\', '\\']
  else if c = '\n' then (if form.isMultiline then ['\n'] else ['\\', 'n'])
  else if c = '\t' then ['\\', 't']
  else if c = '\r' then ['\\', 'r']
  else if c = '\x08' then ['\\', 'b']
  else if c = '\x0c' then ['\\', 'f']
  else if isControl c then escapeNumber c
  else [c]

/-- The contents of a string in a form with escapes, after `quotes` double quotes. -/
def escaped (form : Form) (quotes : Nat) : List Char → List Char
  | [] => []
  | c :: rest =>
    let text := escapeIn form quotes c
    text ++ escaped form (if text = ['"'] then quotes + 1 else 0) rest

/-- A string with its quotes. -/
def stringChars (s : String) : List Char :=
  let cs := s.toList
  let form := Form.of cs
  form.quotes ++ (if form.isMultiline ∧ cs.contains '\n' then ['\n'] else []) ++
    (if form.hasEscapes then escaped form 0 cs else cs) ++ form.quotes

/-- A pair of a key and a string on a line of its own. -/
def pairLine (key value : String) : String :=
  key ++ " = " ++ String.ofList (stringChars value) ++ "\n"

end NetWorth.Toml
