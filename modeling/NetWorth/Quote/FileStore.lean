import NetWorth.Files.Basic
import NetWorth.Json.Printing
import NetWorth.Json.Reading
import NetWorth.Quote.Records
import NetWorth.Quote.Store
/-!
# The quote file

A store that keeps all its entries in one JSON file.  A change writes the new entries to a second
file beside it, which then takes the place of the first in one step.
-/

namespace NetWorth

namespace QuoteTable

/-- The entries as an object by their keys. -/
def toJson (t : QuoteTable) : Json :=
  .obj (t.entries.map fun (key, entry) => (key, entry.toJson))

/-- Reads the entries; a key that is written twice has the later entry. -/
def ofJson? (j : Json) : Option QuoteTable := do
  let entries ← (← j.members?).mapM fun (key, value) => do return (key, ← CachedQuote.ofJson? value)
  return Table.ofList entries

/-- The text of the file. -/
def toText (t : QuoteTable) : String :=
  t.toJson.pretty

/-- Reads the text of a file; a blank file has no entries. -/
def ofText? (text : String) : Option QuoteTable :=
  if Text.isBlankText text then some .empty else Json.decode? ofJson? text

end QuoteTable

/-- What went wrong with the file. -/
inductive QuoteFileError where
  | unreadable (path : String)
  | malformed (path : String)
  | noDirectory
  | unwritable (path : String)
  | notReplaced (path : String)
deriving DecidableEq

/-- The message of a failed call. -/
def QuoteFileError.message : QuoteFileError → String
  | unreadable path => "Failed to read quote cache " ++ path
  | malformed path => "Failed to parse quote cache " ++ path
  | noDirectory => "Failed to create quote cache directory"
  | unwritable path => "Failed to write " ++ path
  | notReplaced path => "Failed to replace " ++ path

/-- A quote file at a path. -/
structure QuoteFile (m : Type → Type) where
  files : Files m
  path : String

namespace QuoteFile

variable {m : Type → Type} [Monad m]

/-- Where a change is written before it takes effect. -/
def temporaryPath (f : QuoteFile m) : String :=
  Path.withExtension f.path "json.tmp"

/-- Reads all entries; a missing file has none. -/
def readAll (f : QuoteFile m) : ExceptT QuoteFileError m QuoteTable := do
  match ← f.files.read f.path with
  | .error .missing => return .empty
  | .error .refused => throw (.unreadable f.path)
  | .ok text =>
    match QuoteTable.ofText? text with
    | some t => return t
    | none => throw (.malformed f.path)

/-- Goes on only if a step on the file system succeeded. -/
def check (step : m (Except FileError Unit)) (failure : QuoteFileError) :
    ExceptT QuoteFileError m Unit := do
  match ← step with
  | .ok () => return ()
  | .error _ => throw failure

/-- Writes all entries. -/
def writeAll (f : QuoteFile m) (t : QuoteTable) : ExceptT QuoteFileError m Unit := do
  match Path.parent? f.path with
  | some directory =>
    if ¬ directory.isEmpty then check (f.files.makeDirectories directory) .noDirectory
  | none => pure ()
  check (f.files.write f.temporaryPath t.toText) (.unwritable f.temporaryPath)
  check (f.files.rename f.temporaryPath f.path) (.notReplaced f.path)

/-- Adds an entry, or replaces the one under its key. -/
def setEntry (f : QuoteFile m) (key : String) (entry : CachedQuote) :
    ExceptT QuoteFileError m Unit := do
  f.writeAll ((← f.readAll).insert key entry)

/-- Removes an entry; the file is only written if there was one. -/
def deleteEntry (f : QuoteFile m) (key : String) : ExceptT QuoteFileError m Unit := do
  let t ← f.readAll
  if (t.get? key).isSome then f.writeAll (t.erase key)

/-- Removes an entry that is no longer fresh. -/
def deleteEntryIfExpired (f : QuoteFile m) (key : String) (now : Instant) :
    ExceptT QuoteFileError m Bool := do
  let (dropped, t) := (← f.readAll).dropIfExpired key now
  if dropped then f.writeAll t
  return dropped

/-- Removes every entry that is no longer fresh. -/
def deleteExpiredEntries (f : QuoteFile m) (now : Instant) : ExceptT QuoteFileError m Nat := do
  let (count, t) := (← f.readAll).dropExpired now
  if 0 < count then f.writeAll t
  return count

/-- The message in place of the error. -/
def explained (call : ExceptT QuoteFileError m α) : m (Except String α) := do
  match ← call.run with
  | .ok a => return .ok a
  | .error e => return .error e.message

/-- The file as a store. -/
def store (f : QuoteFile m) : QuoteStore m where
  get key := explained do return (← f.readAll).get? key
  set key entry := explained (f.setEntry key entry)
  delete key := explained (f.deleteEntry key)
  deleteIfExpired key now := explained (f.deleteEntryIfExpired key now)
  deleteExpired now := explained (f.deleteExpiredEntries now)

end QuoteFile

end NetWorth
