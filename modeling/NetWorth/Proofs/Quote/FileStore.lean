import Mathlib
import NetWorth.Proofs.Files.Tree
import NetWorth.Proofs.Quote.StoreCall

/-!
# The quote file answers as the store in memory

A run of calls is answered by the quote file, opened anew for each call, as by
the store in memory, as long as no step on the file system fails and nobody else
writes the file.  The one thing that the file does not keep is the sign of a
price that is zero.

The file system is not a particular one.  What is asked of its steps is stated
as the contract `Undisturbed`; the run is carried by the table that the text of
the file is read as, which is the table in memory without the signs of zeros.
-/

namespace NetWorth

/-- The answers of the quote file at a path to calls, each on a store that is
opened for it. -/
def QuoteFile.answers
    {m : Type → Type} [Monad m]
    (files : Files m)
    (path : String)
    (calls : List StoreCall) :
    m (List StoreAnswer) :=
  calls.mapM fun call => call.perform (QuoteFile.mk files path).store

/-! ## Calls on a file -/

/-- What a quote file asks of the steps on its file system: none fails, and the
world changes by them only.  `Holds` says what the file holds, if it is there,
`Ready` that its directory is there, and `Drafted` what the second file holds. -/
structure QuoteFile.Undisturbed
    {World : Type}
    (f : QuoteFile (StateM World)) where
  Holds : World → Option String → Prop
  Ready : World → Prop
  Drafted : World → String → Prop
  read {w : World} {held : Option String} :
    Holds w held →
      (f.files.read f.path).run w =
        (held.elim (.error .missing) .ok, w)
  makeDirectories {w : World} {held : Option String} {directory : String} :
    Holds w held →
      Path.parent? f.path = some directory →
        directory.isEmpty = false →
          ∃ w', (f.files.makeDirectories directory).run w = (.ok (), w') ∧ Ready w'
  noDirectory {w : World} {held : Option String} :
    Holds w held →
      (∀ directory ∈ Path.parent? f.path, directory.isEmpty = true) →
        Ready w
  write {w : World} (text : String) :
    Ready w →
      ∃ w', (f.files.write f.temporaryPath text).run w = (.ok (), w') ∧
        Drafted w' text
  rename {w : World} {text : String} :
    Drafted w text →
      ∃ w', (f.files.rename f.temporaryPath f.path).run w = (.ok (), w') ∧
        Holds w' (some text)

namespace QuoteFile

variable {World : Type} {f : QuoteFile (StateM World)} {α β : Type} {w w' w'' : World}

/-- A part of a call succeeds with a result and a new world. -/
private def Yields
    (part : ExceptT QuoteFileError (StateM World) α)
    (w : World)
    (result : α)
    (w' : World) :
    Prop :=
  part.run.run w = (.ok result, w')

private theorem Yields.pure
    (result : α)
    (w : World) :
    Yields (Pure.pure result) w result w := rfl

private theorem Yields.bind
    {part : ExceptT QuoteFileError (StateM World) α}
    {next : α → ExceptT QuoteFileError (StateM World) β}
    {a : α}
    {b : β}
    (first : Yields part w a w')
    (second : Yields (next a) w' b w'') :
    Yields (part >>= next) w b w'' := by
  unfold Yields at *
  rw [ExceptT.run_bind, StateT.run_bind, first]
  exact second

private theorem Yields.explained
    {call : ExceptT QuoteFileError (StateM World) α}
    {a : α}
    (yields : Yields call w a w') :
    (QuoteFile.explained call).run w = (.ok a, w') := by
  unfold Yields at yields
  rw [QuoteFile.explained, StateT.run_bind, yields]
  rfl

private theorem Yields.answer
    {call : ExceptT QuoteFileError (StateM World) α}
    {a : α}
    (yields : Yields call w a w')
    (answer : α → StoreAnswer) :
    (StoreAnswer.ofResult answer <$> QuoteFile.explained call).run w =
      (answer a, w') := by
  rw [StateT.run_map, yields.explained]
  rfl

private theorem Yields.lift
    {step : StateM World α}
    {a : α}
    (taken : step.run w = (a, w')) :
    Yields (liftM step) w a w' := by
  unfold Yields
  change ((fun result => Except.ok result) <$> step).run w = _
  rw [StateT.run_map, taken]
  rfl

private theorem Yields.check
    {step : StateM World (Except FileError Unit)}
    (succeeds : step.run w = (.ok (), w'))
    (failure : QuoteFileError) :
    Yields (check step failure) w () w' :=
  (Yields.lift succeeds).bind (Yields.pure () w')

/-- What a quote file that holds a text, or is missing, is read as. -/
def contents? :
    Option String → Option QuoteTable
  | some text => QuoteTable.ofText? text
  | none => some .empty

namespace Undisturbed

/-- The file is read as a table, of which it may have lost the signs of zeros. -/
def ReadAs
    (undisturbed : f.Undisturbed)
    (w : World)
    (t : QuoteTable) :
    Prop :=
  ∃ held, undisturbed.Holds w held ∧ contents? held = some t.unsigned

variable {t : QuoteTable} (undisturbed : f.Undisturbed)
  (readAs : undisturbed.ReadAs w t)

include readAs

private theorem readAll :
    Yields f.readAll w t.unsigned w := by
  obtain ⟨held, holds, contentsEq⟩ := readAs
  refine (Yields.lift (undisturbed.read holds)).bind ?_
  cases held with
  | none =>
      rw [contents?, Option.some.injEq] at contentsEq
      rw [← contentsEq]
      exact Yields.pure _ w
  | some text =>
      rw [contents?] at contentsEq
      simp only [Option.elim_some, contentsEq]
      exact Yields.pure _ w

/-- What is left when nothing was removed is what was there. -/
private theorem readAs_unsigned :
    undisturbed.ReadAs w t.unsigned := by
  obtain ⟨held, holds, contentsEq⟩ := readAs
  exact ⟨held, holds, by rw [contentsEq, QuoteTable.unsigned_unsigned]⟩

omit readAs in
/-- The text is written beside the file and takes its place. -/
private theorem replace
    (ready : undisturbed.Ready w)
    (left : QuoteTable) :
    ∃ w', Yields
        (do
          check (f.files.write f.temporaryPath left.toText)
            (.unwritable f.temporaryPath)
          check (f.files.rename f.temporaryPath f.path) (.notReplaced f.path))
        w () w' ∧
      undisturbed.ReadAs w' left := by
  obtain ⟨drafted, writes, hasDraft⟩ := undisturbed.write left.toText ready
  obtain ⟨w', renames, holdsText⟩ := undisturbed.rename hasDraft
  exact ⟨w', (Yields.check writes _).bind (Yields.check renames _),
    _, holdsText, QuoteTable.ofText?_toText left⟩

private theorem writeAll
    (left : QuoteTable) :
    ∃ w', Yields (f.writeAll left) w () w' ∧ undisturbed.ReadAs w' left := by
  obtain ⟨held, holds, -⟩ := readAs
  unfold QuoteFile.writeAll
  split
  · next directory parentEq =>
    split
    · next named =>
      obtain ⟨prepared, makes, ready⟩ :=
        undisturbed.makeDirectories holds parentEq (by simpa using named)
      obtain ⟨w', replaces, leaves⟩ := undisturbed.replace ready left
      exact ⟨w', (Yields.check makes _).bind replaces, leaves⟩
    · next unnamed =>
      have ready : undisturbed.Ready w :=
        undisturbed.noDirectory holds (by simpa [parentEq] using unnamed)
      exact undisturbed.replace ready left
  · next rootless =>
    have ready : undisturbed.Ready w :=
      undisturbed.noDirectory holds (by simp [rootless])
    exact undisturbed.replace ready left

private theorem setEntry
    (key : String)
    (entry : CachedQuote) :
    ∃ w', Yields (f.setEntry key entry) w () w' ∧
      undisturbed.ReadAs w' (t.unsigned.insert key entry) := by
  obtain ⟨w', writes, leaves⟩ :=
    undisturbed.writeAll readAs (t.unsigned.insert key entry)
  exact ⟨w', (undisturbed.readAll readAs).bind writes, leaves⟩

private theorem deleteEntry
    (key : String) :
    ∃ w', Yields (f.deleteEntry key) w () w' ∧
      undisturbed.ReadAs w' (t.unsigned.erase key) := by
  have reads := undisturbed.readAll readAs
  cases found : t.unsigned.get? key with
  | none =>
      refine ⟨w, reads.bind ?_, ?_⟩
      · simp only [found]
        exact Yields.pure () w
      · rw [Table.erase_of_get?_eq_none found]
        exact undisturbed.readAs_unsigned readAs
  | some entry =>
      obtain ⟨w', writes, leaves⟩ :=
        undisturbed.writeAll readAs (t.unsigned.erase key)
      refine ⟨w', reads.bind ?_, leaves⟩
      simp only [found]
      exact writes

private theorem deleteEntryIfExpired
    (key : String)
    (now : Instant) :
    ∃ w', Yields (f.deleteEntryIfExpired key now) w
        (t.unsigned.dropIfExpired key now).1 w' ∧
      undisturbed.ReadAs w' (t.unsigned.dropIfExpired key now).2 := by
  have reads := undisturbed.readAll readAs
  cases dropped : (t.unsigned.dropIfExpired key now).1 with
  | false =>
      refine ⟨w, reads.bind ?_, ?_⟩
      · simp only [dropped]
        exact Yields.pure false w
      · rw [QuoteTable.dropIfExpired_of_kept dropped]
        exact undisturbed.readAs_unsigned readAs
  | true =>
      obtain ⟨w', writes, leaves⟩ :=
        undisturbed.writeAll readAs (t.unsigned.dropIfExpired key now).2
      refine ⟨w', reads.bind ?_, leaves⟩
      simp only [dropped]
      exact writes.bind (Yields.pure true w')

private theorem deleteExpiredEntries
    (now : Instant) :
    ∃ w', Yields (f.deleteExpiredEntries now) w
        (t.unsigned.dropExpired now).1 w' ∧
      undisturbed.ReadAs w' (t.unsigned.dropExpired now).2 := by
  have reads := undisturbed.readAll readAs
  by_cases dropped : 0 < (t.unsigned.dropExpired now).1
  · obtain ⟨w', writes, leaves⟩ :=
      undisturbed.writeAll readAs (t.unsigned.dropExpired now).2
    refine ⟨w', reads.bind ?_, leaves⟩
    simp only [dropped, if_true]
    exact writes.bind (Yields.pure _ w')
  · refine ⟨w, reads.bind ?_, ?_⟩
    · simp only [dropped, if_false]
      exact Yields.pure _ w
    · rw [QuoteTable.dropExpired_of_kept (Nat.eq_zero_of_not_pos dropped)]
      exact undisturbed.readAs_unsigned readAs

/-- A call on a file answers what it answers on the table that is read, and
leaves a file that is read as what the call leaves of that table. -/
private theorem perform
    (call : StoreCall) :
    ∃ w', (call.perform f.store).run w = ((call.onTable t.unsigned).1, w') ∧
      undisturbed.ReadAs w' (call.onTable t.unsigned).2 := by
  cases call with
  | get key =>
      have looks :
          Yields (do return (← f.readAll).get? key) w (t.unsigned.get? key) w :=
        (undisturbed.readAll readAs).bind (Yields.pure _ w)
      exact ⟨w, looks.answer _, undisturbed.readAs_unsigned readAs⟩
  | set key entry =>
      obtain ⟨w', sets, leaves⟩ := undisturbed.setEntry readAs key entry
      exact ⟨w', sets.answer _, leaves⟩
  | delete key =>
      obtain ⟨w', deletes, leaves⟩ := undisturbed.deleteEntry readAs key
      exact ⟨w', deletes.answer _, leaves⟩
  | deleteIfExpired key now =>
      obtain ⟨w', deletes, leaves⟩ :=
        undisturbed.deleteEntryIfExpired readAs key now
      exact ⟨w', deletes.answer _, leaves⟩
  | deleteExpired now =>
      obtain ⟨w', deletes, leaves⟩ := undisturbed.deleteExpiredEntries readAs now
      exact ⟨w', deletes.answer _, leaves⟩

omit readAs in
/-- A run of calls on a file is answered as on the table that the file is read
as, where its signed zeros are left out. -/
theorem run_answers
    {files : Files (StateM World)}
    {path : String}
    (undisturbed : (QuoteFile.mk files path).Undisturbed)
    (readAs : undisturbed.ReadAs w t)
    (calls : List StoreCall) :
    ((QuoteFile.answers files path calls).run w).1 =
      (StoreCall.allOnTable t calls).1.map StoreAnswer.unsigned := by
  unfold QuoteFile.answers
  -- The table in memory keeps its signs from call to call; the file is only
  -- known to be read as that table without them.
  induction calls generalizing w t with
  | nil => rfl
  | cons call calls inductionHypothesis =>
      obtain ⟨w', performed, held', holds', contentsEq⟩ :=
        undisturbed.perform readAs call
      obtain ⟨sameAnswer, sameTable⟩ := call.onTable_unsigned_table t
      rw [sameTable] at contentsEq
      have others := inductionHypothesis ⟨held', holds', contentsEq⟩
      rw [run_mapM_cons, performed, others, sameAnswer]
      rfl

end Undisturbed

end QuoteFile

/-! ## A file in a tree -/

/-- In a tree, a quote file lies in a directory below the root, and the second
file beside it. -/
structure FileTree.HasQuotes
    (path directoryPath directory name draftName : String) : Prop where
  leads : LeadsTo path directory name
  draftLeads : LeadsTo (QuoteFile.mk files path).temporaryPath directory draftName
  apart : draftName ≠ name
  parent_eq : Path.parent? path = some directoryPath
  parts_eq : Path.parts directoryPath = [directory]

namespace FileTree.HasQuotes

variable {path directoryPath directory name draftName : String} {t : FileTree}

/-- What the file holds where no file has the name of the directory, and no
directory has the name of a file. -/
def Holds
    (directory name draftName : String)
    (t : FileTree)
    (held : Option String) :
    Prop :=
  (t.get? [directory] = some .directory ∨
      (t.get? [directory] = none ∧ held = none)) ∧
    t.get? [directory, name] = held.map .file ∧
      t.get? [directory, draftName] ≠ some .directory

/-- The directory is there. -/
def Ready
    (directory name draftName : String)
    (t : FileTree) :
    Prop :=
  t.get? [directory] = some .directory ∧
    t.get? [directory, name] ≠ some .directory ∧
      t.get? [directory, draftName] ≠ some .directory

/-- The second file holds a text. -/
def Drafted
    (directory name draftName : String)
    (t : FileTree)
    (text : String) :
    Prop :=
  t.get? [directory] = some .directory ∧
    t.get? [directory, name] ≠ some .directory ∧
      t.get? [directory, draftName] = some (.file text)

variable (quotes : HasQuotes path directoryPath directory name draftName)

include quotes

private theorem read
    {held : Option String}
    (holds : Holds directory name draftName t held) :
    (files.read path).run t =
      (held.elim (.error .missing) .ok, t) := by
  obtain ⟨isThere | ⟨isMissing, rfl⟩, found, -⟩ := holds
  · have readEq := quotes.leads.read_eq isThere
    rw [found] at readEq
    cases held <;> exact Prod.ext readEq rfl
  · have notLocated : t.read path = .error .missing := by
      rw [FileTree.read, quotes.leads.locate_missing isMissing]
      rfl
    exact Prod.ext notLocated rfl

private theorem makeDirectories
    {held : Option String}
    {parent : String}
    (holds : Holds directory name draftName t held)
    (isParent : Path.parent? path = some parent)
    (_named : parent.isEmpty = false) :
    ∃ t', (files.makeDirectories parent).run t = (.ok (), t') ∧
      Ready directory name draftName t' := by
  obtain ⟨directoryState, found, noDraftDirectory⟩ := holds
  have sameParent : parent = directoryPath := by
    rw [quotes.parent_eq] at isParent
    exact (Option.some.inj isParent).symm
  subst sameParent
  have noFile :
      t.get? [directory] = some .directory ∨ t.get? [directory] = none :=
    directoryState.imp_right And.left
  have noDirectory : t.get? [directory, name] ≠ some .directory := by
    rw [found]
    cases held <;> simp
  refine ⟨_, makeDirectories_eq quotes.parts_eq quotes.leads.enter_directory noFile,
    ?_⟩
  rcases noFile with isThere | isMissing
  · simp [Ready, isThere, noDirectory, noDraftDirectory]
  · simp [Ready, isMissing, Table.get?_insert, noDirectory, noDraftDirectory]

private theorem noDirectory
    {held : Option String}
    (_holds : Holds directory name draftName t held)
    (unnamed : ∀ parent ∈ Path.parent? path, parent.isEmpty = true) :
    Ready directory name draftName t := by
  have isEmpty : directoryPath = "" :=
    String.isEmpty_iff.mp (unnamed directoryPath quotes.parent_eq)
  have noParts : Path.parts "" = [] := by decide +kernel
  have someParts := quotes.parts_eq
  rw [isEmpty, noParts] at someParts
  exact absurd someParts (List.cons_ne_nil _ _).symm

private theorem write
    (text : String)
    (ready : Ready directory name draftName t) :
    ∃ t',
      (files.write (QuoteFile.mk files path).temporaryPath text).run t =
          (.ok (), t') ∧
        Drafted directory name draftName t' text := by
  obtain ⟨isThere, noDirectory, noDraftDirectory⟩ := ready
  have writes :
      t.write (QuoteFile.mk files path).temporaryPath text =
        .ok (t.insert [directory, draftName] (.file text)) :=
    quotes.draftLeads.write_eq isThere noDraftDirectory
  refine ⟨_, run_write writes, ?_⟩
  simp [Drafted, Table.get?_insert, isThere, noDirectory, quotes.apart.symm]

private theorem rename
    {text : String}
    (drafted : Drafted directory name draftName t text) :
    ∃ t',
      (files.rename (QuoteFile.mk files path).temporaryPath path).run t =
          (.ok (), t') ∧
        Holds directory name draftName t' (some text) := by
  obtain ⟨isThere, noDirectory, hasText⟩ := drafted
  have renames :=
    quotes.draftLeads.rename_eq quotes.leads isThere hasText noDirectory
  refine ⟨_, run_rename renames, ?_⟩
  simp [Holds, Table.get?_insert, Table.get?_erase, isThere, quotes.apart]

omit quotes in
/-- In a tree nothing gets in the way of a quote file. -/
def undisturbed
    (quotes : HasQuotes path directoryPath directory name draftName) :
    (QuoteFile.mk files path).Undisturbed where
  Holds := Holds directory name draftName
  Ready := Ready directory name draftName
  Drafted := Drafted directory name draftName
  read := quotes.read
  makeDirectories := quotes.makeDirectories
  noDirectory := quotes.noDirectory
  write := quotes.write
  rename := quotes.rename

end FileTree.HasQuotes

/-! ## The run -/

namespace QuoteFile

/-- A quote file that is missing or blank answers every run of calls, each on a
store that is opened for it, as an empty store in memory does, but for the signs
of prices that are zero; where no such price is set, the answers are the same. -/
theorem answers_as_in_memory
    {World : Type}
    {files : Files (StateM World)}
    {path : String}
    (undisturbed : (QuoteFile.mk files path).Undisturbed)
    {w : World}
    {held : Option String}
    (holds : undisturbed.Holds w held)
    (blank : ∀ text ∈ held, Text.isBlankText text = true)
    (calls : List StoreCall) :
    ((QuoteFile.answers files path calls).run w).1 =
        ((QuoteTable.answers calls).run .empty).1.map StoreAnswer.unsigned ∧
      ((∀ key entry, .set key entry ∈ calls →
          ¬ entry.quote.price.IsSignedZero) →
        ((QuoteFile.answers files path calls).run w).1 =
          ((QuoteTable.answers calls).run .empty).1) := by
  have empty : contents? held = some (QuoteTable.unsigned .empty) := by
    cases held with
    | none => rfl
    | some text =>
        rw [contents?, QuoteTable.ofText?, if_pos (blank text rfl)]
        rfl
  have answered := undisturbed.run_answers ⟨held, holds, empty⟩ calls
  rw [QuoteTable.run_answers]
  refine ⟨answered, fun noSignedZero => ?_⟩
  have callsPlain : ∀ call ∈ calls, call.unsigned = call := by
    intro call mem
    cases call with
    | set key entry =>
        have priceKept :=
          Decimal.unsignedZero_of_not_isSignedZero (noSignedZero key entry mem)
        simp [StoreCall.unsigned, CachedQuote.unsigned, Quote.unsigned, priceKept]
    | _ => rfl
  rw [answered, StoreCall.unsigned_allOnTable callsPlain rfl]

/-- An entry at a price, which expires at the end of time. -/
def entryAt
    (price : Decimal) :
    CachedQuote where
  quote :=
    { assetClass := .stock
      symbol := "AAPL"
      name := "Apple"
      price := price
      currency := "USD"
      observedAt := .epoch
      source := "seed" }
  expiresAt := .greatest

theorem leadsToQuotes :
    FileTree.LeadsTo "cache/quotes.json" "cache" "quotes.json" where
  parts_eq := by decide +kernel
  isEmpty_eq := by decide +kernel
  followed := by
    simp only [String.contains_char_eq]
    decide +kernel
  endsOpen_eq := by decide +kernel
  enter_directory := by decide +kernel
  enter_name := by decide +kernel

theorem leadsToDraft :
    FileTree.LeadsTo (QuoteFile.mk FileTree.files "cache/quotes.json").temporaryPath
      "cache" "quotes.json.tmp" where
  parts_eq := by decide +kernel
  isEmpty_eq := by decide +kernel
  followed := by
    simp only [String.contains_char_eq]
    decide +kernel
  endsOpen_eq := by decide +kernel
  enter_directory := by decide +kernel
  enter_name := by decide +kernel

private theorem hasQuotes :
    FileTree.HasQuotes "cache/quotes.json" "cache" "cache" "quotes.json"
      "quotes.json.tmp" where
  leads := leadsToQuotes
  draftLeads := leadsToDraft
  apart := by decide +kernel
  parent_eq := by decide +kernel
  parts_eq := by decide +kernel

/-- A tree in which the file of quotes is blank. -/
def blankQuotes :
    FileTree :=
  (Table.empty.insert ["cache"] .directory).insert ["cache", "quotes.json"]
    (.file "\n")

/-- A file that starts blank, run through a price that has no sign to lose, up
to the end of time. -/
theorem answers_as_in_memory_from_blank :
    Text.isBlankText "\n" = true ∧
      ¬ Decimal.one.IsSignedZero ∧
        ((QuoteFile.answers FileTree.files "cache/quotes.json"
            [.get "stock_AAPL", .set "stock_AAPL" (entryAt .one), .get "stock_AAPL",
              .deleteIfExpired "stock_AAPL" .epoch, .deleteExpired .greatest,
              .get "stock_AAPL"]).run blankQuotes).1 =
          [.entry none, .done, .entry (some (entryAt .one)), .removed false,
            .count 1, .entry none] := by
  have blank : ∀ text ∈ some "\n", Text.isBlankText text = true := by
    rintro text ⟨⟩
    rfl
  have holds :
      FileTree.HasQuotes.Holds "cache" "quotes.json" "quotes.json.tmp" blankQuotes
        (some "\n") :=
    ⟨.inl rfl, rfl, by decide⟩
  have noSign : ¬ Decimal.one.IsSignedZero := by
    rintro ⟨isZero, -⟩
    cases isZero
  refine ⟨rfl, noSign, ?_⟩
  refine ((answers_as_in_memory hasQuotes.undisturbed holds blank _).2 ?_).trans ?_
  · intro key entry mem
    have isSet : key = "stock_AAPL" ∧ entry = entryAt .one := by simpa using mem
    rw [isSet.2]
    exact noSign
  · rw [QuoteTable.run_answers]
    decide +kernel

/-- A price below zero of which no digit is left. -/
def roundedAway :
    Decimal :=
  (Decimal.ofText? "-0.04e-27").getD .zero

/-- A price below zero that is rounded away when it is read keeps its sign in
memory and loses it in the file. -/
theorem answers_differ_of_roundedAway :
    Decimal.ofText? "-0.04e-27" = some roundedAway ∧
      ((QuoteFile.answers FileTree.files "cache/quotes.json"
          [.set "stock_AAPL" (entryAt roundedAway), .get "stock_AAPL"]).run
            .empty).1 ≠
        ((QuoteTable.answers
          [.set "stock_AAPL" (entryAt roundedAway), .get "stock_AAPL"]).run
            .empty).1 := by
  have holds :
      FileTree.HasQuotes.Holds "cache" "quotes.json" "quotes.json.tmp" .empty none :=
    ⟨.inr ⟨rfl, rfl⟩, rfl, by decide⟩
  have readAs : hasQuotes.undisturbed.ReadAs .empty .empty := ⟨none, holds, rfl⟩
  have answered :=
    hasQuotes.undisturbed.run_answers readAs
      [.set "stock_AAPL" (entryAt roundedAway), .get "stock_AAPL"]
  refine ⟨by decide +kernel, ?_⟩
  rw [answered, QuoteTable.run_answers]
  decide +kernel

end QuoteFile

end NetWorth
