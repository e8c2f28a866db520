import NetWorth.Toml.Basic
/-!
# Building tables

Headers and pairs add to the tables that are there.  Nothing is set twice, a table has at most one
header, and the keys of a pair do not lead into a table that has a header of its own.
-/

namespace NetWorth.Toml

/-- The value of a key. -/
def find? (key : String) (entries : Entries) : Option Toml :=
  (entries.find? (·.1 == key)).map (·.2)

/-- Gives a key a value in place of the one it has, or adds it at the end. -/
def put (key : String) (value : Toml) : Entries → Entries
  | [] => [(key, value)]
  | entry :: rest => if entry.1 == key then (key, value) :: rest else entry :: put key value rest

/-- A change to a table, which may be refused. -/
abbrev Change := Origin → Entries → Option (Origin × Entries)

/-- Makes a change to the table that a path leads to.  Tables that are missing on the way get the
origin `fresh`; a pair, whose fresh tables are `dotted`, may not enter the table of a header. -/
def changeAt (fresh : Origin) (change : Change) : List String → Change
  | [], origin, entries => change origin entries
  | key :: path, origin, entries =>
    match find? key entries with
    | none => do
      let (o, es) ← changeAt fresh change path fresh []
      return (origin, put key (.table o es) entries)
    | some (.table o es) =>
      if o = .inline ∨ (fresh = .dotted ∧ o = .header) then none
      else do
        let (o, es) ← changeAt fresh change path o es
        return (origin, put key (.table o es) entries)
    | some (.tables elements) => do
      let (_, es) ← changeAt fresh change path .header (elements.getLast?.getD [])
      return (origin, put key (.tables (elements.dropLast ++ [es])) entries)
    | some _ => none

/-- Splits the last key off a path. -/
def splitLast (path : List String) : Option (List String × String) :=
  path.getLast?.map fun key => (path.dropLast, key)

/-- Begins the table of a header.  It may exist only as a table on the way to others. -/
def begin (key : String) : Change := fun origin entries =>
  match find? key entries with
  | none => some (origin, put key (.table .header []) entries)
  | some (.table .path es) => some (origin, put key (.table .header es) entries)
  | some _ => none

/-- Begins one more of the tables of a repeated header. -/
def beginNext (key : String) : Change := fun origin entries =>
  match find? key entries with
  | none => some (origin, put key (.tables [[]]) entries)
  | some (.tables elements) => some (origin, put key (.tables (elements ++ [[]])) entries)
  | some _ => none

/-- Sets a key that is not set; `isDirect` says that the pair has no other keys, which a pair has to
have exactly where the table comes from such keys. -/
def setNew (isDirect : Bool) (key : String) (value : Toml) : Change := fun origin entries =>
  if isDirect = (origin == .dotted) ∨ (find? key entries).isSome then none
  else some (origin, put key value entries)

/-- Adds a pair to a table. -/
def addPair (path : List String) (value : Toml) : Change := fun origin entries => do
  let (front, key) ← splitLast path
  changeAt .dotted (setNew front.isEmpty key value) front origin entries

end NetWorth.Toml
