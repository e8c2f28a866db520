import NetWorth.Toml.Scalar
import NetWorth.Toml.Section
/-!
# Reading TOML

A document is read line by line: a header, a pair or nothing, and perhaps a remark.  The lines are
then added up to one table.
-/

namespace NetWorth.Toml

/-- What a line says. -/
inductive Line where
  | nothing
  | header (path : List String)
  | nextHeader (path : List String)
  | pair (path : List String) (value : Toml)

namespace Reader

/-- The largest number of arrays and inline tables inside one another. -/
def maxDepth : Nat := 79

/-- The largest number of keys in a path. -/
def maxKeys : Nat := 79

/-- Whether a character may stand in a key without quotes. -/
def isKeyChar (c : Char) : Bool :=
  c.isAlphanum || c == '_' || c == '-'

/-- One key. -/
def key : Reader String :=
  basic <|> literal <|> (do return String.ofList (← chunk isKeyChar))

/-- Keys with points between them. -/
def keyPath : Reader (List String) := do
  let keys ← separated (do
    blanks
    let k ← key
    blanks
    return k) (mark '.')
  check (keys.length ≤ maxKeys)
  return keys

/-- A pair of keys and a value. -/
def pair (value : Reader Toml) : Reader (List String × Toml) := do
  let keys ← keyPath
  mark '='
  blanks
  return (keys, ← value)

/-- An array of values, over one or more lines; a comma may follow the last one. -/
def array (value : Reader Toml) : Reader Toml := do
  mark '['
  let items ← optional (separated (do
    gap
    let item ← value
    gap
    return item) (mark ','))
  let _ ← optional (check items.isSome *> gap *> mark ',')
  gap
  mark ']'
  return .array (items.getD [])

/-- A table between braces, on one line. -/
def inlineTable (value : Reader Toml) : Reader Toml := do
  mark '\x7b'
  let pairs ← optional (separated (do
    let p ← pair value
    blanks
    return p) (mark ','))
  blanks
  mark '\x7d'
  let entries := (pairs.getD []).foldlM (fun entries (path, value) => do
    return (← addPair path value .inline entries).2) []
  match entries with
  | some entries => return .table .inline entries
  | none => failure

/-- A value in which at most `depth` arrays and tables lie inside one another. -/
def valueWithin : (depth : Nat) → Reader Toml
  | 0 => scalar
  | depth + 1 => scalar <|> array (valueWithin depth) <|> inlineTable (valueWithin depth)

/-- The header of a table. -/
def header : Reader Line := do
  mark '['
  let path ← keyPath
  mark ']'
  return .header path

/-- The header of one of several tables. -/
def nextHeader : Reader Line := do
  word "[["
  let path ← keyPath
  word "]]"
  return .nextHeader path

/-- A line without its end. -/
def line : Reader Line := do
  blanks
  let said ← nextHeader <|> header <|>
    (do
      let (path, value) ← pair (valueWithin maxDepth)
      return .pair path value) <|>
    pure .nothing
  blanks
  let _ ← optional comment
  return said

/-- The lines of a text. -/
def lines? (cs : List Char) : Option (List Line) :=
  match separated line newline cs with
  | some (lines, []) => some lines
  | _ => none

end Reader

/-- What has been read: all entries, and the table that pairs are added to. -/
structure Progress where
  entries : Entries
  current : List String

/-- Makes a change below the root. -/
def Progress.change (p : Progress) (change : Change) : Option Entries :=
  (change .header p.entries).map (·.2)

/-- Adds a line. -/
def Progress.add (p : Progress) : Line → Option Progress
  | .nothing => some p
  | .header path => do
    let (front, key) ← splitLast path
    return ⟨← p.change (changeAt .path (begin key) front), path⟩
  | .nextHeader path => do
    let (front, key) ← splitLast path
    return ⟨← p.change (changeAt .path (beginNext key) front), path⟩
  | .pair path value => do
    return { p with entries := ← p.change (changeAt .path (addPair path value) p.current) }

/-- Reads a document; a byte order mark in front is ignored. -/
def parse? (s : String) : Option Entries := do
  let cs := match s.toList with
    | '\ufeff' :: rest => rest
    | cs => cs
  let progress ← (← Reader.lines? cs).foldlM Progress.add ⟨[], []⟩
  return progress.entries

end NetWorth.Toml
