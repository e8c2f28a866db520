import Mathlib
import NetWorth.Files.Tree
import NetWorth.Proofs.Table

/-!
# Files in one directory of a tree

The steps on a file that lies in a directory below the root, and on a second
file beside it: where their paths lead, and what each step leaves of the tree.
-/

namespace NetWorth.FileTree

/-- A step that succeeds leaves its tree. -/
private theorem run_commit
    {step : FileTree → Except FileError FileTree}
    {before after : FileTree}
    (succeeds : step before = .ok after) :
    (commit step).run before = (.ok (), after) := by
  simp only [commit, StateT.run, succeeds]

theorem run_write
    {before after : FileTree}
    {path text : String}
    (writes : before.write path text = .ok after) :
    (files.write path text).run before = (.ok (), after) :=
  run_commit writes

theorem run_rename
    {before after : FileTree}
    {source target : String}
    (renames : before.rename source target = .ok after) :
    (files.rename source target).run before = (.ok (), after) :=
  run_commit renames

/-- A path leads to a name in a directory below the root. -/
structure LeadsTo
    (path directory name : String) : Prop where
  parts_eq : Path.parts path = [directory, name]
  isEmpty_eq : path.isEmpty = false
  followed : ¬ (path.contains '\x00' ∨ longestPath < path.utf8ByteSize)
  endsOpen_eq : Path.endsOpen path = false
  enter_directory : enter [] directory = .ok [directory]
  enter_name : enter [directory] name = .ok [directory, name]

variable {t : FileTree} {path directory name text : String}

/-- A path is followed through a directory into its next part. -/
private theorem follow_cons
    {start next : List String}
    {part : String}
    (passes : t.expectDirectory start = .ok ())
    (enters : enter start part = .ok next)
    (rest : List String) :
    t.follow start (part :: rest) = t.follow next rest := by
  have onward : (t.expectDirectory start *> enter start part) = .ok next := by
    rw [passes, enters]
    rfl
  rw [follow, onward]

/-- A path leads where it says if its directory is there. -/
theorem LeadsTo.locate_eq
    (leads : LeadsTo path directory name)
    (isThere : t.get? [directory] = some .directory) :
    t.locate path = .ok [directory, name] := by
  have passesRoot : t.expectDirectory [] = .ok () := rfl
  have passes : t.expectDirectory [directory] = .ok () := by
    simp [expectDirectory, isDirectory, isThere]
  have follows : t.follow [] [directory, name] = .ok [directory, name] := by
    rw [follow_cons passesRoot leads.enter_directory,
      follow_cons passes leads.enter_name]
    rfl
  simp only [locate, leads.isEmpty_eq, leads.followed, leads.parts_eq, follows,
    leads.endsOpen_eq]
  rfl

/-- A path leads nowhere if its directory is missing. -/
theorem LeadsTo.locate_missing
    (leads : LeadsTo path directory name)
    (isMissing : t.get? [directory] = none) :
    t.locate path = .error .missing := by
  have passesRoot : t.expectDirectory [] = .ok () := rfl
  have stops : t.expectDirectory [directory] = .error .missing := by
    simp [expectDirectory, isDirectory, isMissing]
  have follows : t.follow [] [directory, name] = .error .missing := by
    have stopped :
        (t.expectDirectory [directory] *> enter [directory] name) =
          .error .missing := by
      rw [stops]
      rfl
    rw [follow_cons passesRoot leads.enter_directory, follow, stopped]
  simp only [locate, leads.isEmpty_eq, leads.followed, leads.parts_eq, follows]
  rfl

/-- A file that is there is read. -/
theorem LeadsTo.read_eq
    (leads : LeadsTo path directory name)
    (isThere : t.get? [directory] = some .directory) :
    t.read path =
      match t.get? [directory, name] with
        | some (.file text) => .ok text
        | some .directory => .error .refused
        | none => .error .missing := by
  rw [read, leads.locate_eq isThere]
  rfl

theorem LeadsTo.write_eq
    (leads : LeadsTo path directory name)
    (isThere : t.get? [directory] = some .directory)
    (noDirectory : t.get? [directory, name] ≠ some .directory) :
    t.write path text = .ok (t.insert [directory, name] (.file text)) := by
  have isFile : t.isDirectory [directory, name] = false := by
    simpa [isDirectory] using noDirectory
  rw [write, leads.locate_eq isThere]
  change (if t.isDirectory [directory, name] = true then _ else _) = _
  rw [isFile]
  rfl

theorem LeadsTo.rename_eq
    {target targetName : String}
    (leads : LeadsTo path directory name)
    (targetLeads : LeadsTo target directory targetName)
    (isThere : t.get? [directory] = some .directory)
    (hasText : t.get? [directory, name] = some (.file text))
    (noDirectory : t.get? [directory, targetName] ≠ some .directory) :
    t.rename path target =
      .ok ((t.erase [directory, name]).insert [directory, targetName]
        (.file text)) := by
  have isFile : t.isDirectory [directory, targetName] = false := by
    simpa [isDirectory] using noDirectory
  rw [rename, leads.locate_eq isThere, targetLeads.locate_eq isThere]
  simp only [bind, Except.bind, hasText, isFile]
  rfl

/-- A directory below the root that is there or missing can be made. -/
theorem makeDirectories_eq
    (parts_eq : Path.parts path = [directory])
    (enters : enter [] directory = .ok [directory])
    (noFile : t.get? [directory] = some .directory ∨ t.get? [directory] = none) :
    t.makeDirectories path =
      (.ok (),
        if t.get? [directory] = none then t.insert [directory] .directory else t) := by
  have makes :
      t.makeDirectory [directory] =
        .ok (if t.get? [directory] = none then t.insert [directory] .directory
          else t) := by
    rcases noFile with isThere | isMissing
    · simp [makeDirectory, isDirectory, isThere]
    · simp [makeDirectory, isDirectory, isMissing]
  rw [makeDirectories, parts_eq, makeAlong, enters]
  simp only [makes]
  rfl

end NetWorth.FileTree
