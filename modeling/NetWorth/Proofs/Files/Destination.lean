import Mathlib
import NetWorth.Files.Tree
import NetWorth.Proofs.Files.Path
import NetWorth.Proofs.Table

/-!
# Where a path leads

A path that can be followed leads to one place, which its parts alone say.  What
a step on files changes lies there: every other file keeps its text, and every
directory stays.
-/

namespace NetWorth.FileTree

variable {t t' : FileTree} {path text : String} {place start : List String}

/-- Where one part of a path leads. -/
def advance
    (start : List String)
    (part : String) :
    List String :=
  if part = ".." then start.dropLast else start ++ [part]

/-- Where a path leads if it can be followed. -/
def destination
    (path : String) :
    List String :=
  (Path.parts path).foldl advance []

/-- The text of the file at a place. -/
def textOf :
    Option FileNode → Option String
  | some (.file text) => some text
  | _ => none

/-- The text of the file that a path leads to. -/
def textAt
    (t : FileTree)
    (path : String) :
    Option String :=
  textOf (t.get? (destination path))

theorem textAt_eq_some_iff :
    t.textAt path = some text ↔
      t.get? (destination path) = some (.file text) := by
  unfold textAt textOf
  split <;> simp_all

/-- With another extension, a path that ends in a name leads somewhere else. -/
theorem destination_withExtension_ne
    {extension : String}
    (hasName : Path.HasName path)
    (noSlash : '/' ∉ extension.toList)
    (hasDot : '.' ∈ extension.toList) :
    destination (Path.withExtension path extension) ≠ destination path := by
  obtain ⟨front, name, other, path_eq, other_eq, noDots, apart⟩ :=
    Path.partsOf_withExtension hasName noSlash hasDot
  have isNoParent : String.ofList name ≠ ".." := fun same =>
    noDots (String.ofList_injective (same.trans rfl))
  unfold destination
  rw [Path.parts_eq, Path.parts_eq, path_eq, other_eq]
  simp only [List.map_append, List.map_cons, List.map_nil, List.foldl_append,
    List.foldl_cons, List.foldl_nil]
  unfold advance
  rw [if_neg isNoParent]
  split
  · -- One place is above the directory, the other in it.
    intro same
    have := congrArg List.length same
    simp only [List.length_dropLast, List.length_append, List.length_singleton]
      at this
    omega
  · intro same
    have lastSame := List.append_cancel_left same
    rw [List.cons.injEq] at lastSame
    exact apart (String.ofList_injective lastSame.1)

/-! ## Following a path -/

/-- Every directory of a tree is one in another tree. -/
def KeepsDirectories
    (t t' : FileTree) :
    Prop :=
  ∀ place, t.get? place = some .directory → t'.get? place = some .directory

theorem KeepsDirectories.refl
    (t : FileTree) :
    KeepsDirectories t t :=
  fun _ isThere => isThere

theorem KeepsDirectories.trans
    {t'' : FileTree}
    (first : KeepsDirectories t t')
    (second : KeepsDirectories t' t'') :
    KeepsDirectories t t'' :=
  fun place isThere => second place (first place isThere)

theorem expectDirectory_eq_ok_iff :
    t.expectDirectory place = .ok () ↔ t.isDirectory place = true := by
  unfold expectDirectory
  split
  · simp [*]
  · split <;> simp [*]

theorem KeepsDirectories.isDirectory
    (keeps : KeepsDirectories t t')
    (isThere : t.isDirectory place = true) :
    t'.isDirectory place = true := by
  unfold FileTree.isDirectory at *
  rw [Bool.or_eq_true, beq_iff_eq] at *
  exact isThere.imp_right (keeps place)

private theorem enter_eq_ok
    {part : String}
    {next : List String}
    (enters : enter start part = .ok next) :
    next = advance start part := by
  unfold enter at enters
  split at enters
  · cases enters
  · exact (Except.ok.inj enters).symm

private theorem follow_cons_eq_ok_iff
    {part : String}
    {rest : List String} :
    t.follow start (part :: rest) = .ok place ↔
      t.isDirectory start = true ∧
        ∃ next, enter start part = .ok next ∧ t.follow next rest = .ok place := by
  rw [← expectDirectory_eq_ok_iff, follow]
  cases t.expectDirectory start with
  | error e => simp [SeqRight.seqRight, Except.bind]
  | ok passed =>
      have onward :
          ((.ok passed : Except FileError Unit) *> enter start part) =
            enter start part :=
        rfl
      rw [onward]
      cases enter start part <;> simp

private theorem follow_eq_ok
    {parts : List String}
    (follows : t.follow start parts = .ok place) :
    place = parts.foldl advance start := by
  induction parts generalizing start with
  | nil => exact (Except.ok.inj follows).symm
  | cons part rest inductionHypothesis =>
      obtain ⟨-, next, enters, onward⟩ := follow_cons_eq_ok_iff.mp follows
      rw [inductionHypothesis onward, enter_eq_ok enters, List.foldl_cons]

private theorem KeepsDirectories.follow
    (keeps : KeepsDirectories t t')
    {parts : List String}
    (follows : t.follow start parts = .ok place) :
    t'.follow start parts = .ok place := by
  induction parts generalizing start with
  | nil => exact follows
  | cons part rest inductionHypothesis =>
      obtain ⟨isThere, next, enters, onward⟩ := follow_cons_eq_ok_iff.mp follows
      exact follow_cons_eq_ok_iff.mpr
        ⟨keeps.isDirectory isThere, next, enters, inductionHypothesis onward⟩

private theorem locate_eq_ok_iff :
    t.locate path = .ok place ↔
      path.isEmpty = false ∧
        ¬ (path.contains '\x00' ∨ longestPath < path.utf8ByteSize) ∧
          t.follow [] (Path.parts path) = .ok place ∧
            (Path.endsOpen path = true → t.isDirectory place = true) := by
  unfold locate
  by_cases empty : path.isEmpty = true
  · rw [if_pos empty]
    exact iff_of_false nofun fun ⟨nonempty, _⟩ => by simp [empty] at nonempty
  · rw [if_neg empty]
    by_cases refused : path.contains '\x00' ∨ longestPath < path.utf8ByteSize
    · rw [if_pos refused]
      exact iff_of_false nofun fun ⟨_, notRefused, _⟩ => notRefused refused
    · rw [if_neg refused]
      cases follows : t.follow [] (Path.parts path) with
      | error e => exact iff_of_false nofun fun ⟨_, _, followed, _⟩ => nomatch followed
      | ok led =>
          rw [and_iff_right (Bool.eq_false_iff.mpr empty), and_iff_right refused,
            Except.ok.injEq]
          change (if Path.endsOpen path = true then
            t.expectDirectory led >>= fun _ => .ok led else .ok led) = _ ↔ _
          by_cases ends : Path.endsOpen path = true
          · rw [if_pos ends]
            cases passes : t.expectDirectory led with
            | error e =>
                refine iff_of_false nofun fun ⟨same, isThere⟩ => ?_
                rw [same, expectDirectory_eq_ok_iff.mpr (isThere ends)] at passes
                cases passes
            | ok _ =>
                have isThere := expectDirectory_eq_ok_iff.mp passes
                exact ⟨fun same => Except.ok.inj same ▸ ⟨rfl, fun _ => isThere⟩,
                  fun ⟨same, _⟩ => same ▸ rfl⟩
          · rw [if_neg ends]
            exact ⟨fun same => ⟨Except.ok.inj same, fun opens => absurd opens ends⟩,
              fun ⟨same, _⟩ => same ▸ rfl⟩

/-- A path that can be followed leads to its destination. -/
theorem locate_eq_ok
    (located : t.locate path = .ok place) :
    place = destination path :=
  follow_eq_ok (locate_eq_ok_iff.mp located).2.2.1

/-- With more directories a path still leads where it led. -/
theorem KeepsDirectories.locate
    (keeps : KeepsDirectories t t')
    (located : t.locate path = .ok place) :
    t'.locate path = .ok place := by
  obtain ⟨nonempty, notRefused, follows, ends⟩ := locate_eq_ok_iff.mp located
  exact locate_eq_ok_iff.mpr ⟨nonempty, notRefused, keeps.follow follows,
    fun endsOpen => keeps.isDirectory (ends endsOpen)⟩

/-! ## What a step leaves -/

/-- The file at a path has the text it had, and every directory is still there. -/
structure Spares
    (path : String)
    (t t' : FileTree) :
    Prop where
  textAt_eq : t'.textAt path = t.textAt path
  keeps : KeepsDirectories t t'

theorem Spares.refl
    (path : String)
    (t : FileTree) :
    Spares path t t :=
  ⟨rfl, .refl t⟩

theorem Spares.trans
    {t'' : FileTree}
    (first : Spares path t t')
    (second : Spares path t' t'') :
    Spares path t t'' :=
  ⟨second.textAt_eq.trans first.textAt_eq, first.keeps.trans second.keeps⟩

/-- A file is read if its path can be followed to it. -/
theorem read_eq_ok_iff :
    t.read path = .ok text ↔
      t.locate path = .ok (destination path) ∧ t.textAt path = some text := by
  rw [textAt_eq_some_iff]
  unfold read
  cases located : t.locate path with
  | error e => simp [bind, Except.bind]
  | ok place =>
      rw [locate_eq_ok located]
      simp only [bind, Except.bind]
      split <;> simp_all

/-- A file that is spared is still read. -/
theorem Spares.read
    (spares : Spares path t t')
    (reads : t.read path = .ok text) :
    t'.read path = .ok text := by
  rw [read_eq_ok_iff] at *
  exact ⟨spares.keeps.locate reads.1, spares.textAt_eq.trans reads.2⟩

/-- Putting a file or directory where there was no directory keeps the others. -/
private theorem keepsDirectories_insert
    {node : FileNode}
    (noDirectory : t.get? place ≠ some .directory) :
    KeepsDirectories t (t.insert place node) := by
  intro other isThere
  rw [Table.get?_insert, if_neg, isThere]
  rintro rfl
  exact noDirectory isThere

theorem write_eq_ok
    (writes : t.write path text = .ok t') :
    t.isDirectory (destination path) = false ∧
      t' = t.insert (destination path) (.file text) := by
  unfold write at writes
  cases located : t.locate path with
  | error e => simp [located, bind, Except.bind] at writes
  | ok place =>
      rw [located, locate_eq_ok located] at writes
      simp only [bind, Except.bind] at writes
      split at writes
      · cases writes
      · next noDirectory =>
        exact ⟨Bool.eq_false_iff.mpr noDirectory, (Except.ok.inj writes).symm⟩

/-- A file that was written somewhere else is spared. -/
theorem spares_write
    {other : String}
    (apart : destination other ≠ destination path)
    (writes : t.write other text = .ok t') :
    Spares path t t' := by
  obtain ⟨noDirectory, rfl⟩ := write_eq_ok writes
  refine ⟨?_, keepsDirectories_insert fun isThere => ?_⟩
  · rw [textAt, Table.get?_insert, if_neg apart.symm, textAt]
  · simp [isDirectory, isThere] at noDirectory

theorem textAt_of_write
    (writes : t.write path text = .ok t') :
    t'.textAt path = some text := by
  obtain ⟨-, rfl⟩ := write_eq_ok writes
  rw [textAt_eq_some_iff, Table.get?_insert, if_pos rfl]

theorem rename_eq_ok
    {source : String}
    (renames : t.rename source path = .ok t') :
    t.locate path = .ok (destination path) ∧
      t.isDirectory (destination path) = false ∧
        ∃ text, t.textAt source = some text ∧
          t' = (t.erase (destination source)).insert (destination path)
            (.file text) := by
  unfold rename at renames
  cases located : t.locate source with
  | error e => simp [located, bind, Except.bind] at renames
  | ok place =>
      cases targetLocated : t.locate path with
      | error e => simp [located, targetLocated, bind, Except.bind] at renames
      | ok targetPlace =>
          rw [located, targetLocated, locate_eq_ok located,
            locate_eq_ok targetLocated] at renames
          simp only [bind, Except.bind] at renames
          split at renames
          · next text hasText =>
            split at renames
            · cases renames
            · next noDirectory =>
              exact ⟨locate_eq_ok targetLocated ▸ rfl,
                Bool.eq_false_iff.mpr noDirectory, text,
                textAt_eq_some_iff.mpr hasText, (Except.ok.inj renames).symm⟩
          · cases renames

/-- A file that takes the place of another is read there. -/
theorem read_of_rename
    {source : String}
    (hasText : t.textAt source = some text)
    (renames : t.rename source path = .ok t') :
    t'.read path = .ok text := by
  obtain ⟨located, noDirectory, moved, hasMoved, rfl⟩ := rename_eq_ok renames
  rw [hasText, Option.some.injEq] at hasMoved
  subst hasMoved
  have keeps :
      KeepsDirectories t
        ((t.erase (destination source)).insert (destination path)
          (.file text)) := by
    refine KeepsDirectories.trans (fun place isThere => ?_)
      (keepsDirectories_insert fun isThere => ?_)
    · rw [Table.get?_erase, if_neg, isThere]
      rintro rfl
      rw [textAt_eq_some_iff, isThere] at hasText
      cases hasText
    · rw [Table.get?_erase] at isThere
      split at isThere
      · cases isThere
      · simp [isDirectory, isThere] at noDirectory
  refine read_eq_ok_iff.mpr ⟨keeps.locate located, ?_⟩
  rw [textAt_eq_some_iff, Table.get?_insert, if_pos rfl]

/-- A directory is made where there was nothing. -/
private theorem spares_makeDirectory
    (makes : t.makeDirectory place = .ok t') :
    Spares path t t' := by
  unfold makeDirectory at makes
  split at makes
  · rw [Except.ok.inj makes]
    exact .refl path t'
  · split at makes
    · cases makes
    · next free =>
      rw [← Except.ok.inj makes]
      have nothing : t.get? place = none := by simpa using free
      refine ⟨?_, keepsDirectories_insert (by simp [nothing])⟩
      rw [textAt, Table.get?_insert, textAt]
      split
      · next isPlace => rw [isPlace, nothing]; rfl
      · rfl

/-- Making directories spares every file. -/
theorem spares_makeAlong
    (start : List String)
    (parts : List String) :
    Spares path t (t.makeAlong start parts).2 := by
  induction parts generalizing t start with
  | nil => exact .refl path t
  | cons part rest inductionHypothesis =>
      unfold makeAlong
      split
      · exact .refl path t
      · next place _ =>
        split
        · exact .refl path t
        · next made makes =>
          exact (spares_makeDirectory makes).trans (inductionHypothesis place)

end NetWorth.FileTree
