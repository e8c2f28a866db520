import NetWorth.Files.Basic
import NetWorth.Table
/-!
# File trees

A file system in memory: files and directories by the parts of their paths, below one root directory
that paths start from.
-/

namespace NetWorth

/-- What is found at a path. -/
inductive FileNode where
  | file (text : String)
  | directory
deriving DecidableEq

/-- Files and directories by their paths from the root. -/
abbrev FileTree := Table (List String) FileNode

namespace FileTree

/-- Whether there is a directory at a path. -/
def isDirectory (t : FileTree) (parts : List String) : Bool :=
  parts.isEmpty || t.get? parts == some .directory

/-- The longest name of a file or directory, in bytes. -/
def longestName : Nat := 255

/-- The longest path that is followed, in bytes. -/
def longestPath : Nat := 4095

/-- Passes only where there is a directory. -/
def expectDirectory (t : FileTree) (parts : List String) : Except FileError Unit :=
  if t.isDirectory parts then .ok ()
  else if (t.get? parts).isSome then .error .refused
  else .error .missing

/-- Where one part of a path leads from a directory, unless it is too long for a name. -/
def enter (start : List String) (part : String) : Except FileError (List String) :=
  if longestName < part.utf8ByteSize then .error .refused
  else .ok (if part = ".." then start.dropLast else start ++ [part])

/-- Follows parts from a directory; every part but the last has to lead to a directory. -/
def follow (t : FileTree) (start : List String) : List String → Except FileError (List String)
  | [] => .ok start
  | part :: rest =>
    match t.expectDirectory start *> enter start part with
    | .error e => .error e
    | .ok next => follow t next rest

/-- Where a path leads.  A path whose end is open has to lead to a directory. -/
def locate (t : FileTree) (path : String) : Except FileError (List String) := do
  if path.isEmpty then throw .missing
  if path.contains '\x00' ∨ longestPath < path.utf8ByteSize then throw .refused
  let parts ← t.follow [] (Path.parts path)
  if Path.endsOpen path then t.expectDirectory parts
  return parts

/-- Whether a path leads to a file or directory. -/
def exist (t : FileTree) (path : String) : Bool :=
  match t.locate path with
  | .ok parts => t.isDirectory parts || (t.get? parts).isSome
  | .error _ => false

/-- The text of a file. -/
def read (t : FileTree) (path : String) : Except FileError String := do
  let parts ← t.locate path
  match t.get? parts with
  | some (.file text) => .ok text
  | some .directory => .error .refused
  | none => .error (if parts.isEmpty then .refused else .missing)

/-- Makes one directory, whose parent exists. -/
def makeDirectory (t : FileTree) (parts : List String) : Except FileError FileTree :=
  if t.isDirectory parts then .ok t
  else if (t.get? parts).isSome then .error .refused
  else .ok (t.insert parts .directory)

/-- Makes the directories that are missing on the way along parts.  What is made before a failure
stays. -/
def makeAlong (t : FileTree) (start : List String) :
    List String → Except FileError Unit × FileTree
  | [] => (.ok (), t)
  | part :: rest =>
    match enter start part with
    | .error e => (.error e, t)
    | .ok next =>
      match t.makeDirectory next with
      | .error e => (.error e, t)
      | .ok t => makeAlong t next rest

/-- Makes a directory and those above it. -/
def makeDirectories (t : FileTree) (path : String) : Except FileError Unit × FileTree :=
  t.makeAlong [] (Path.parts path)

/-- Writes a file into an existing directory. -/
def write (t : FileTree) (path text : String) : Except FileError FileTree := do
  let parts ← t.locate path
  if t.isDirectory parts then .error .refused
  else .ok (t.insert parts (.file text))

/-- Moves a file. -/
def rename (t : FileTree) (source target : String) : Except FileError FileTree := do
  let sourceParts ← t.locate source
  let targetParts ← t.locate target
  match t.get? sourceParts with
  | some (.file text) =>
    if t.isDirectory targetParts then .error .refused
    else .ok ((t.erase sourceParts).insert targetParts (.file text))
  | _ => .error .missing

/-- Removes a file, or a directory with all that is in it. -/
def remove (t : FileTree) (path : String) : FileTree :=
  let parts := Path.parts path
  t.filter fun key _ => ¬ parts.isPrefixOf key

/-- Keeps the new tree of a step that succeeded. -/
def commit (step : FileTree → Except FileError FileTree) :
    StateM FileTree (Except FileError Unit) :=
  fun t =>
    match step t with
    | .ok t => (.ok (), t)
    | .error e => (.error e, t)

/-- The steps of a file system on a tree. -/
def files : Files (StateM FileTree) where
  exist path := do return (← get).exist path
  read path := do return (← get).read path
  makeDirectories path := (·.makeDirectories path)
  write path text := commit (·.write path text)
  rename source target := commit (·.rename source target)

end FileTree

end NetWorth
