import Mathlib
import NetWorth.Proofs.Files.Destination
import NetWorth.Proofs.Quote.FileStore

/-!
# A quote file is never torn

A call of the quote file takes several steps on the file system.  Each of them
may fail, and the process may stop before, during or after any of them.  Whatever
happens, the file has the text that it had, or the whole text of the table that
the call makes of what it has read.

Every call reads, and then changes nothing but a second file, until that takes
the place of the first.  So each step is shown to spare the file at the path, and
the last one to leave the whole text there.
-/

namespace NetWorth

/-! ## Steps that do not complete -/

/-- What a step leaves that does not complete: the directories that it has made,
counted along the path, and what it has written of a file. -/
structure Remains where
  directories : Nat
  draft : Option String

/-- What becomes of a step on files.  It completes, or it fails, or the process
stops before it completes or after. -/
inductive Fate where
  | completed
  | failed (remains : Remains)
  | stopped (remains : Remains)
  | stoppedAfter

/-- A call that may be left without a result, with the fates of the steps that it
takes.  Steps beyond the last fate complete. -/
abbrev Attempt :=
  OptionT (StateM (FileTree × List Fate))

namespace Attempt

/-- A step that leaves something else if it does not complete. -/
def step
    {α : Type}
    (complete : StateM FileTree (Except FileError α))
    (leave : Remains → FileTree → FileTree) :
    Attempt (Except FileError α) :=
  OptionT.mk fun (t, fates) =>
    match fates with
    | [] => (some (complete.run t).1, (complete.run t).2, [])
    | .completed :: fates => (some (complete.run t).1, (complete.run t).2, fates)
    | .failed remains :: fates =>
        (some (.error .refused), leave remains t, fates)
    | .stopped remains :: fates => (none, leave remains t, fates)
    | .stoppedAfter :: fates => (none, (complete.run t).2, fates)

end Attempt

namespace FileTree

/-- The steps on a tree as their fates let them complete.  A second file may be
left with any text; moving a file has no effect if it fails. -/
def fatedFiles : Files Attempt where
  exist path := OptionT.mk fun (t, fates) => (some (t.exist path), t, fates)
  read path := Attempt.step (files.read path) fun _ t => t
  makeDirectories path :=
    Attempt.step (files.makeDirectories path) fun remains t =>
      (t.makeAlong [] ((Path.parts path).take remains.directories)).2
  write path text :=
    Attempt.step (files.write path text) fun remains t =>
      match remains.draft with
      | some draft => ((files.write path draft).run t).2
      | none => t
  rename source target :=
    Attempt.step (files.rename source target) fun _ t => t

/-- The table that a quote file at a path is read as. -/
def tableAt
    (t : FileTree)
    (path : String) :
    Option QuoteTable :=
  match t.read path with
  | .ok text => QuoteTable.ofText? text
  | .error .missing => some .empty
  | .error .refused => none

end FileTree

/-! ## What an attempt ends with -/

namespace Attempt

variable {α β : Type} {t t' : FileTree}

/-- Whatever its fates, an attempt ends with a result, or none, and a tree that
satisfy a condition. -/
def Ends
    (attempt : Attempt α)
    (t : FileTree)
    (condition : Option α → FileTree → Prop) :
    Prop :=
  ∀ fates,
    condition (attempt.run.run (t, fates)).1 (attempt.run.run (t, fates)).2.1

theorem Ends.weaken
    {attempt : Attempt α}
    {strong weak : Option α → FileTree → Prop}
    (ends : Ends attempt t strong)
    (implies : ∀ result t', strong result t' → weak result t') :
    Ends attempt t weak :=
  fun fates => implies _ _ (ends fates)

theorem Ends.pure
    {condition : Option α → FileTree → Prop}
    {result : α}
    (holds : condition (some result) t) :
    Ends (Pure.pure result) t condition :=
  fun _ => holds

/-- An attempt that goes on after a first part may stop in that part. -/
theorem Ends.bind
    {attempt : Attempt α}
    {next : α → Attempt β}
    {between : Option α → FileTree → Prop}
    {condition : Option β → FileTree → Prop}
    (first : Ends attempt t between)
    (stops : ∀ t', between none t' → condition none t')
    (goesOn : ∀ a t', between (some a) t' → Ends (next a) t' condition) :
    Ends (attempt >>= next) t condition := by
  intro fates
  have reached := first fates
  rw [OptionT.run_bind, Option.elimM, StateT.run_bind]
  generalize attempt.run.run (t, fates) = outcome at reached ⊢
  obtain ⟨result, t', fates'⟩ := outcome
  cases result with
  | none => exact stops t' reached
  | some a => exact goesOn a t' reached fates'

/-- A step completes and is answered, or it does not and leaves what it leaves. -/
theorem ends_step
    {complete : StateM FileTree (Except FileError α)}
    {leave : Remains → FileTree → FileTree}
    {condition : Option (Except FileError α) → FileTree → Prop}
    (completed : condition (some (complete.run t).1) (complete.run t).2)
    (failed : ∀ remains, condition (some (.error .refused)) (leave remains t))
    (stopped : ∀ remains, condition none (leave remains t))
    (stoppedAfter : condition none (complete.run t).2) :
    Ends (step complete leave) t condition := by
  intro fates
  match fates with
  | [] => exact completed
  | .completed :: _ => exact completed
  | .failed remains :: _ => exact failed remains
  | .stopped remains :: _ => exact stopped remains
  | .stoppedAfter :: _ => exact stoppedAfter

end Attempt

/-! ## The parts of a call -/

namespace QuoteFile

open FileTree (Spares fatedFiles destination)
open Attempt (Ends ends_step)

variable {α β : Type} {t t' : FileTree} {path : String}

/-- A call that goes on after a first part may stop or fail in that part. -/
private theorem ends_bind
    {part : ExceptT QuoteFileError Attempt α}
    {next : α → ExceptT QuoteFileError Attempt β}
    {between : Option (Except QuoteFileError α) → FileTree → Prop}
    {condition : Option (Except QuoteFileError β) → FileTree → Prop}
    (first : Ends part.run t between)
    (stops : ∀ t', between none t' → condition none t')
    (fails : ∀ e t', between (some (.error e)) t' → condition (some (.error e)) t')
    (goesOn : ∀ a t', between (some (.ok a)) t' → Ends (next a).run t' condition) :
    Ends (part >>= next).run t condition := by
  rw [ExceptT.run_bind]
  refine first.bind stops fun result t' reached => ?_
  cases result with
  | error e => exact Ends.pure (fails e t' reached)
  | ok a => exact goesOn a t' reached

private theorem ends_step_bind
    {step : Attempt α}
    {next : α → ExceptT QuoteFileError Attempt β}
    {between : Option α → FileTree → Prop}
    {condition : Option (Except QuoteFileError β) → FileTree → Prop}
    (first : Ends step t between)
    (stops : ∀ t', between none t' → condition none t')
    (goesOn : ∀ a t', between (some a) t' → Ends (next a).run t' condition) :
    Ends (liftM step >>= next).run t condition := by
  change Ends (ExceptT.lift step >>= next).run t condition
  rw [ExceptT.run_bind_lift]
  exact first.bind stops goesOn

private theorem ends_check
    {step : Attempt (Except FileError Unit)}
    {failure : QuoteFileError}
    {condition : Option (Except QuoteFileError Unit) → FileTree → Prop}
    (ends : Ends step t fun result t' =>
      condition (result.map (Except.mapError fun _ => failure)) t') :
    Ends (check step failure).run t condition := by
  refine ends_step_bind ends (fun _ reached => reached) fun result t' reached => ?_
  cases result with
  | ok _ => exact Ends.pure reached
  | error _ => exact Ends.pure reached

/-- A step that reads leaves the tree, and answers what is there or fails. -/
private theorem ends_readStep
    (path : String)
    (t : FileTree) :
    Ends (fatedFiles.read path) t fun result t' =>
      t' = t ∧
        ∀ answer, result = some answer →
          answer = t.read path ∨ answer = .error .refused := by
  change Ends (Attempt.step (FileTree.files.read path) fun _ t => t) t _
  refine ends_step ⟨rfl, fun answer same => ?_⟩
    (fun _ => ⟨rfl, fun answer same => ?_⟩) (fun _ => ⟨rfl, nofun⟩) ⟨rfl, nofun⟩
  · exact .inl (Option.some.inj same).symm
  · exact .inr (Option.some.inj same).symm

/-- Reading leaves the tree, and what it finds is there. -/
private theorem ends_readAll
    (path : String)
    (t : FileTree) :
    Ends (QuoteFile.mk fatedFiles path).readAll.run t fun result t' =>
      t' = t ∧ ∀ table, result = some (.ok table) → t.tableAt path = some table := by
  refine ends_step_bind (ends_readStep path t) (fun _ ⟨same, _⟩ => ⟨same, nofun⟩)
    fun result t' ⟨same, isRead⟩ => ?_
  subst same
  rcases isRead result rfl with rfl | rfl
  · unfold FileTree.tableAt
    cases t'.read path with
    | error e =>
        cases e with
        | missing => exact Ends.pure ⟨rfl, fun _ found => by cases found; rfl⟩
        | refused => exact Ends.pure ⟨rfl, nofun⟩
    | ok text =>
        cases parsed : QuoteTable.ofText? text with
        | none =>
            simp only [parsed]
            exact Ends.pure ⟨rfl, nofun⟩
        | some held =>
            simp only [parsed]
            exact Ends.pure ⟨rfl, fun _ found => by cases found; rfl⟩
  · exact Ends.pure ⟨rfl, nofun⟩

/-- Making directories spares the file, however far it comes. -/
private theorem ends_makeDirectories
    (path directory : String)
    (t : FileTree) :
    Ends (fatedFiles.makeDirectories directory) t fun _ t' => Spares path t t' := by
  change Ends (Attempt.step (FileTree.files.makeDirectories directory) fun remains t =>
      (t.makeAlong [] ((Path.parts directory).take remains.directories)).2) t _
  have made : Spares path t (t.makeAlong [] (Path.parts directory)).2 :=
    FileTree.spares_makeAlong [] _
  exact ends_step made (fun _ => FileTree.spares_makeAlong [] _)
    (fun _ => FileTree.spares_makeAlong [] _) made

private theorem run_commit_eq
    (step : FileTree → Except FileError FileTree)
    (t : FileTree) :
    (FileTree.commit step).run t =
      match step t with
      | .ok t' => (.ok (), t')
      | .error e => (.error e, t) := rfl

/-- Writing a file spares the one that is somewhere else, however far it comes. -/
private theorem ends_write
    {draftPath : String}
    (apart : destination draftPath ≠ destination path)
    (text : String)
    (t : FileTree) :
    Ends (fatedFiles.write draftPath text) t fun result t' =>
      Spares path t t' ∧
        (result = some (.ok ()) → t'.textAt draftPath = some text) := by
  have spared (text : String) :
      Spares path t ((FileTree.files.write draftPath text).run t).2 := by
    change Spares path t ((FileTree.commit (·.write draftPath text)).run t).2
    rw [run_commit_eq]
    cases writes : t.write draftPath text with
    | error e => exact .refl path t
    | ok t' => exact FileTree.spares_write apart writes
  change Ends (Attempt.step (FileTree.files.write draftPath text) fun remains t =>
    match remains.draft with
    | some draft => ((FileTree.files.write draftPath draft).run t).2
    | none => t) t _
  refine ends_step ⟨spared text, ?_⟩ (fun remains => ⟨?_, nofun⟩)
    (fun remains => ⟨?_, nofun⟩) ⟨spared text, nofun⟩
  · change some ((FileTree.commit (·.write draftPath text)).run t).1 = _ →
      ((FileTree.commit (·.write draftPath text)).run t).2.textAt draftPath = _
    rw [run_commit_eq]
    cases writes : t.write draftPath text with
    | error e => nofun
    | ok t' => exact fun _ => FileTree.textAt_of_write writes
  all_goals
    cases remains.draft with
    | none => exact .refl path t
    | some draft => exact spared draft

/-- A text takes the place of the file at a path, or spares it.  A step that
answers that it failed has spared the file; one that answers that it succeeded
has replaced it. -/
private def Replaced
    {ε : Type}
    (path : String)
    (t : FileTree)
    (text : String)
    (result : Option (Except ε Unit))
    (t' : FileTree) :
    Prop :=
  (result ≠ some (.ok ()) ∧ Spares path t t') ∨
    ((∀ e, result ≠ some (.error e)) ∧ t'.read path = .ok text)

private theorem Replaced.after
    {ε : Type}
    {between : FileTree}
    {text : String}
    {result : Option (Except ε Unit)}
    (spares : Spares path t between)
    (replaced : Replaced path between text result t') :
    Replaced path t text result t' :=
  replaced.imp_left fun ⟨notDone, spared⟩ => ⟨notDone, spares.trans spared⟩

private theorem Replaced.mapError
    {text : String}
    {result : Option (Except FileError Unit)}
    (failure : QuoteFileError)
    (replaced : Replaced path t text result t') :
    Replaced path t text (result.map (Except.mapError fun _ => failure)) t' := by
  rcases replaced with ⟨notDone, spared⟩ | ⟨notFailed, read⟩
  · refine .inl ⟨fun isDone => ?_, spared⟩
    obtain ⟨answer, rfl, same⟩ := Option.map_eq_some_iff.mp isDone
    cases answer with
    | error _ => cases same
    | ok _ => exact notDone rfl
  · refine .inr ⟨fun _ isFailed => ?_, read⟩
    obtain ⟨answer, rfl, same⟩ := Option.map_eq_some_iff.mp isFailed
    cases answer with
    | error e => exact notFailed e rfl
    | ok _ => cases same

/-- A file is moved in one step: nothing has happened, or all of it. -/
private theorem ends_rename
    {draftPath text : String}
    (hasText : t.textAt draftPath = some text) :
    Ends (fatedFiles.rename draftPath path) t (Replaced path t text) := by
  change Ends (Attempt.step (FileTree.commit (·.rename draftPath path)) fun _ t => t)
    t _
  have spared (result : Option (Except FileError Unit))
      (notDone : result ≠ some (.ok ())) :
      Replaced path t text result t :=
    .inl ⟨notDone, .refl path t⟩
  cases renames : t.rename draftPath path with
  | error e =>
      refine ends_step ?_ (fun _ => spared _ nofun) (fun _ => spared _ nofun) ?_
      all_goals
        rw [run_commit_eq, renames]
        exact spared _ nofun
  | ok t' =>
      refine ends_step ?_ (fun _ => spared _ nofun) (fun _ => spared _ nofun) ?_
      all_goals
        rw [run_commit_eq, renames]
        exact .inr ⟨nofun, FileTree.read_of_rename hasText renames⟩

/-- A text that is written beside the file takes its place, or spares it. -/
private theorem ends_replace
    {draftPath : String}
    (apart : destination draftPath ≠ destination path)
    (text : String)
    (unwritable notReplaced : QuoteFileError)
    (t : FileTree) :
    Ends (ExceptT.run do
        check (fatedFiles.write draftPath text) unwritable
        check (fatedFiles.rename draftPath path) notReplaced)
      t (Replaced path t text) := by
  have writes :
      Ends (check (fatedFiles.write draftPath text) unwritable).run t
        fun result t' =>
          Spares path t t' ∧
            (result = some (.ok ()) → t'.textAt draftPath = some text) := by
    refine ends_check ((ends_write apart text t).weaken
      fun result t' ⟨spares, drafted⟩ => ⟨spares, fun done => drafted ?_⟩)
    match result with
    | some (.ok ()) => rfl
  refine ends_bind writes (fun _ reached => .inl ⟨nofun, reached.1⟩)
    (fun _ _ reached => .inl ⟨nofun, reached.1⟩)
    fun _ between ⟨spares, drafted⟩ => ends_check ?_
  exact (ends_rename (drafted rfl)).weaken fun result t' replaced =>
    .after spares (replaced.mapError notReplaced)

/-- Writing all entries replaces the file by their whole text, or spares it. -/
private theorem ends_writeAll
    (hasName : Path.HasName path)
    (left : QuoteTable)
    (t : FileTree) :
    Ends ((QuoteFile.mk fatedFiles path).writeAll left).run t
      (Replaced path t left.toText) := by
  have apart :
      destination (QuoteFile.mk fatedFiles path).temporaryPath ≠ destination path :=
    FileTree.destination_withExtension_ne hasName (by decide) (by decide)
  unfold writeAll
  split
  · next directory _ =>
    split
    · have makes :
          Ends (check (fatedFiles.makeDirectories directory) .noDirectory).run t
            fun _ t' => Spares path t t' :=
        ends_check (ends_makeDirectories path directory t)
      exact ends_bind makes (fun _ spares => .inl ⟨nofun, spares⟩)
        (fun _ _ spares => .inl ⟨nofun, spares⟩)
        fun _ between spares => (ends_replace apart _ _ _ between).weaken
          fun _ _ replaced => .after spares replaced
    · exact ends_replace apart _ _ _ t
  · exact ends_replace apart _ _ _ t

/-! ## Calls -/

/-- How a call of a quote file may end.  It spares the file and has no answer or a
failure; it leaves the whole text of the table that it makes of the one it has
read; or that table is the same and nothing has changed. -/
inductive EndsWhole
    (path : String)
    (call : StoreCall)
    (t : FileTree) :
    Option StoreAnswer → FileTree → Prop
  | spared {result : Option StoreAnswer} {t' : FileTree}
      (unanswered : ∀ answer ∈ result, ∃ cause, answer = .failed cause)
      (spares : Spares path t t')
      (unread : t.tableAt path = none → t' = t) :
      EndsWhole path call t result t'
  | replaced {before : QuoteTable} {result : Option StoreAnswer} {t' : FileTree}
      (isRead : t.tableAt path = some before)
      (answered : ∀ answer ∈ result, answer = (call.onTable before).1)
      (holds : t'.read path = .ok (call.onTable before).2.toText) :
      EndsWhole path call t result t'
  | unchanged {before : QuoteTable} {result : Option StoreAnswer}
      (isRead : t.tableAt path = some before)
      (answered : ∀ answer ∈ result, answer = (call.onTable before).1)
      (same : (call.onTable before).2 = before) :
      EndsWhole path call t result t

/-- The answer that is given for the result of a call. -/
private def answerOf
    (answer : α → StoreAnswer)
    (result : Except QuoteFileError α) :
    StoreAnswer :=
  StoreAnswer.ofResult answer (result.mapError QuoteFileError.message)

private theorem ends_answer
    {part : ExceptT QuoteFileError Attempt α}
    {answer : α → StoreAnswer}
    {condition : Option StoreAnswer → FileTree → Prop}
    (ends : Ends part.run t fun result t' =>
      condition (result.map (answerOf answer)) t') :
    Ends (StoreAnswer.ofResult answer <$> explained part) t condition := by
  have explains :
      Ends (explained part) t fun result t' =>
        condition (result.map (StoreAnswer.ofResult answer)) t' := by
    refine ends.bind (fun _ reached => reached) fun result t' reached => ?_
    cases result with
    | ok _ => exact Ends.pure reached
    | error _ => exact Ends.pure reached
  rw [map_eq_pure_bind]
  exact explains.bind (fun _ reached => reached) fun _ _ reached => Ends.pure reached

variable {call : StoreCall} {before left : QuoteTable} {answer : α → StoreAnswer}

private theorem not_answered
    {condition : StoreAnswer → Prop} :
    ∀ given ∈ (none : Option StoreAnswer), condition given :=
  fun given isThere => absurd isThere (Option.not_mem_none given)

private theorem failed_of_error
    (e : QuoteFileError) :
    ∀ given ∈ (some (.error e)).map (answerOf answer),
      ∃ cause, given = .failed cause :=
  fun _ same => ⟨e.message, (Option.some.inj same).symm⟩

private theorem answered_of_ok
    (a : α) :
    ∀ given ∈ (some (.ok a)).map (answerOf answer), given = answer a :=
  fun _ same => (Option.some.inj same).symm

/-- A call that cannot read changes nothing. -/
private theorem ends_of_read
    {next : QuoteTable → ExceptT QuoteFileError Attempt α}
    (goesOn : ∀ before,
      t.tableAt path = some before →
        Ends (next before).run t fun result t' =>
          EndsWhole path call t (result.map (answerOf answer)) t') :
    Ends ((QuoteFile.mk fatedFiles path).readAll >>= next).run t fun result t' =>
      EndsWhole path call t (result.map (answerOf answer)) t' := by
  refine ends_bind (ends_readAll path t) (fun t' ⟨same, _⟩ => ?_)
    (fun e t' ⟨same, _⟩ => ?_) fun before t' ⟨same, isRead⟩ => ?_
  all_goals subst same
  · exact .spared not_answered (.refl path t') fun _ => rfl
  · exact .spared (failed_of_error e) (.refl path t') fun _ => rfl
  · exact goesOn before (isRead before rfl)

/-- A call that goes on without a change answers for the table it has read. -/
private theorem ends_unchanged
    {a : α}
    (isRead : t.tableAt path = some before)
    (onTable_eq : call.onTable before = (answer a, before)) :
    Ends (ExceptT.run (pure a)) t fun result t' =>
      EndsWhole path call t (result.map (answerOf answer)) t' := by
  refine Ends.pure (.unchanged isRead ?_ (congrArg Prod.snd onTable_eq))
  rw [onTable_eq]
  exact answered_of_ok a

/-- A call that goes on to write all entries replaces the file or spares it. -/
private theorem ends_changed
    (hasName : Path.HasName path)
    {a : α}
    (isRead : t.tableAt path = some before)
    (onTable_eq : call.onTable before = (answer a, left)) :
    Ends (ExceptT.run do
        (QuoteFile.mk fatedFiles path).writeAll left
        pure a)
      t fun result t' =>
      EndsWhole path call t (result.map (answerOf answer)) t' := by
  have isSpared
      {result : Option StoreAnswer}
      {t' : FileTree}
      (unanswered : ∀ answer ∈ result, ∃ cause, answer = .failed cause)
      (spares : Spares path t t') :
      EndsWhole path call t result t' :=
    .spared unanswered spares fun unread => by simp [unread] at isRead
  have isReplaced
      {result : Option StoreAnswer}
      {t' : FileTree}
      (answered : ∀ given ∈ result, given = answer a)
      (holds : t'.read path = .ok left.toText) :
      EndsWhole path call t result t' :=
    .replaced isRead (by rwa [onTable_eq]) (by rwa [onTable_eq])
  refine ends_bind (ends_writeAll hasName left t) (fun t' replaced => ?_)
    (fun e t' replaced => ?_) fun _ t' replaced => Ends.pure ?_
  · rcases replaced with ⟨-, spares⟩ | ⟨-, holds⟩
    · exact isSpared not_answered spares
    · exact isReplaced not_answered holds
  · rcases replaced with ⟨-, spares⟩ | ⟨notFailed, -⟩
    · exact isSpared (failed_of_error e) spares
    · exact absurd rfl (notFailed e)
  · rcases replaced with ⟨notDone, -⟩ | ⟨-, holds⟩
    · exact absurd rfl notDone
    · exact isReplaced (answered_of_ok a) holds

/-- However its steps end, a call spares the file at a path that ends in a name,
or leaves the whole text of the new table there. -/
private theorem ends_perform
    (hasName : Path.HasName path)
    (call : StoreCall)
    (t : FileTree) :
    Ends (call.perform (QuoteFile.mk fatedFiles path).store) t
      (EndsWhole path call t) := by
  cases call with
  | get key =>
      exact ends_answer (ends_of_read fun before isRead =>
        ends_unchanged isRead rfl)
  | set key entry =>
      refine ends_answer (ends_of_read fun before isRead => ?_)
      rw [← bind_pure_unit (x := (QuoteFile.mk fatedFiles path).writeAll _)]
      exact ends_changed hasName isRead rfl
  | delete key =>
      refine ends_answer (ends_of_read fun before isRead => ?_)
      cases found : before.get? key with
      | some entry =>
          rw [← bind_pure_unit (x := (QuoteFile.mk fatedFiles path).writeAll _)]
          exact ends_changed hasName isRead rfl
      | none =>
          exact ends_unchanged isRead
            (Prod.ext rfl (Table.erase_of_get?_eq_none found))
  | deleteIfExpired key now =>
      refine ends_answer (ends_of_read fun before isRead => ?_)
      cases dropped : (before.dropIfExpired key now).1 with
      | true =>
          simp only [dropped, if_true]
          exact ends_changed hasName isRead (by rw [StoreCall.onTable, dropped])
      | false =>
          simp only [dropped]
          refine ends_unchanged isRead (Prod.ext (congrArg StoreAnswer.removed dropped) ?_)
          exact QuoteTable.dropIfExpired_of_kept dropped
  | deleteExpired now =>
      refine ends_answer (ends_of_read fun before isRead => ?_)
      by_cases dropped : 0 < (before.dropExpired now).1
      · simp only [dropped, if_true]
        exact ends_changed hasName isRead rfl
      · simp only [dropped, if_false]
        refine ends_unchanged isRead (Prod.ext rfl ?_)
        exact QuoteTable.dropExpired_of_kept (Nat.eq_zero_of_not_pos dropped)

/-! ## What is left of the file -/

/-- The file has the text that it had, or the whole text of the new table. -/
private theorem EndsWhole.text
    {result : Option StoreAnswer}
    (ends : EndsWhole path call t result t') :
    t'.textAt path = t.textAt path ∨
      ∃ before,
        t.tableAt path = some before ∧
          t'.textAt path = some (call.onTable before).2.toText := by
  cases ends with
  | spared _ spares _ => exact .inl spares.textAt_eq
  | replaced isRead _ holds =>
      exact .inr ⟨_, isRead, (FileTree.read_eq_ok_iff.mp holds).2⟩
  | unchanged => exact .inl rfl

/-- An answer that is no failure is the answer for the table that was read, and
the file is read as the new table. -/
private theorem EndsWhole.given
    {given : StoreAnswer}
    (ends : EndsWhole path call t (some given) t') :
    (∃ cause, given = .failed cause) ∧ t'.textAt path = t.textAt path ∨
      ∃ before,
        t.tableAt path = some before ∧
          given = (call.onTable before).1 ∧
            (t'.read path = .ok (call.onTable before).2.toText ∨
              t' = t ∧ (call.onTable before).2 = before) := by
  cases ends with
  | spared unanswered spares _ =>
      exact .inl ⟨unanswered given rfl, spares.textAt_eq⟩
  | replaced isRead answered holds =>
      exact .inr ⟨_, isRead, answered given rfl, .inl holds⟩
  | unchanged isRead answered same =>
      exact .inr ⟨_, isRead, answered given rfl, .inr ⟨rfl, same⟩⟩

private theorem tableAt_eq_some
    {table : QuoteTable}
    (isRead : t.tableAt path = some table) :
    (∃ text, t.read path = .ok text ∧ QuoteTable.ofText? text = some table) ∨
      t.read path = .error .missing ∧ table = .empty := by
  unfold FileTree.tableAt at isRead
  split at isRead
  · next text read_eq => exact .inl ⟨text, read_eq, isRead⟩
  · next read_eq => exact .inr ⟨read_eq, (Option.some.inj isRead).symm⟩
  · cases isRead

/-- A store that is opened again reads the table that it would have read before,
or the one that the file held, or the new one. -/
private theorem EndsWhole.reopened
    {result : Option StoreAnswer}
    (ends : EndsWhole path call t result t')
    {table : QuoteTable}
    (isRead : t'.tableAt path = some table) :
    t.tableAt path = some table ∨
      contents? (t.textAt path) = some table ∨
        ∃ before,
          t.tableAt path = some before ∧
            table = (call.onTable before).2.unsigned := by
  cases ends with
  | spared _ spares unread =>
      rcases tableAt_eq_some isRead with ⟨text, read_eq, parsed⟩ | ⟨missing, rfl⟩
      · have held := (FileTree.read_eq_ok_iff.mp read_eq).2
        rw [spares.textAt_eq] at held
        exact .inr (.inl (by rw [held]; exact parsed))
      · -- A file that is missing now was not read before.
        cases wasRead : t.tableAt path with
        | none =>
            rw [unread wasRead, wasRead] at isRead
            cases isRead
        | some before =>
            rcases tableAt_eq_some wasRead with ⟨text, read_eq, -⟩ | ⟨-, rfl⟩
            · rw [spares.read read_eq] at missing
              cases missing
            · exact .inl rfl
  | @replaced before _ _ wasRead _ holds =>
      refine .inr (.inr ⟨before, wasRead, ?_⟩)
      rw [FileTree.tableAt, holds] at isRead
      exact Option.some.inj
        (isRead.symm.trans (QuoteTable.ofText?_toText (call.onTable before).2))
  | unchanged => exact .inl isRead

/-- A call on a quote file may end anywhere, and any of its steps may fail.  If
the path ends in a name, the file there has then the text that it had, or the
whole text of the table that the call makes of the one it has read.  A call that
answers with a failure leaves the text as it was, and one that answers otherwise
leaves the new table.  So a store that is opened again never reads a part of
one. -/
theorem never_torn
    {path : String}
    (hasName : Path.HasName path)
    (t : FileTree)
    (call : StoreCall)
    (fates : List Fate) :
    let ended := (call.perform (QuoteFile.mk fatedFiles path).store).run.run (t, fates)
    let t' := ended.2.1
    (t'.textAt path = t.textAt path ∨
        ∃ before,
          t.tableAt path = some before ∧
            t'.textAt path = some (call.onTable before).2.toText) ∧
      (∀ given,
        ended.1 = some given →
          (∃ cause, given = .failed cause) ∧ t'.textAt path = t.textAt path ∨
            ∃ before,
              t.tableAt path = some before ∧
                given = (call.onTable before).1 ∧
                  (t'.read path = .ok (call.onTable before).2.toText ∨
                    t' = t ∧ (call.onTable before).2 = before)) ∧
        ∀ table,
          t'.tableAt path = some table →
            t.tableAt path = some table ∨
              contents? (t.textAt path) = some table ∨
                ∃ before,
                  t.tableAt path = some before ∧
                    table = (call.onTable before).2.unsigned := by
  intro ended t'
  have ends : EndsWhole path call t ended.1 t' := ends_perform hasName call t fates
  exact ⟨ends.text, fun given isGiven => (isGiven ▸ ends).given,
    fun table isRead => ends.reopened isRead⟩

/-- The fates of steps of which the third, a write, fails after one character. -/
def tornDraft :
    List Fate :=
  [.completed, .completed, .failed ⟨0, some "\x7b"⟩]

/-- The call that is torn fails and leaves its character in the second file. -/
private theorem run_tornDraft :
    ((StoreCall.set "stock_AAPL" (entryAt .one)).perform
        (QuoteFile.mk fatedFiles "cache/quotes.json").store).run.run
          (blankQuotes, tornDraft) =
      (pure
        (some (.failed "Failed to write cache/quotes.json.tmp"),
          blankQuotes.insert ["cache", "quotes.json.tmp"] (.file "\x7b"), []) :
        Id _) := by
  have readStep :
      (fatedFiles.read "cache/quotes.json").run.run (blankQuotes, tornDraft) =
        (pure (some (.ok "\n"), blankQuotes, tornDraft.tail) : Id _) :=
    congrArg (fun answer => (some answer, blankQuotes, tornDraft.tail))
      (leadsToQuotes.read_eq rfl)
  have parsed : QuoteTable.ofText? "\n" = some .empty := by
    rw [QuoteTable.ofText?, if_pos (show Text.isBlankText "\n" = true from rfl)]
  have parent_eq : Path.parent? "cache/quotes.json" = some "cache" := by
    decide +kernel
  have makeStep :
      (fatedFiles.makeDirectories "cache").run.run (blankQuotes, tornDraft.tail) =
        (pure (some (.ok ()), blankQuotes, tornDraft.tail.tail) : Id _) := by
    have made : blankQuotes.makeDirectories "cache" = (.ok (), blankQuotes) :=
      FileTree.makeDirectories_eq (by decide +kernel)
        leadsToQuotes.enter_directory (.inl rfl)
    exact congrArg (fun made => (some made.1, made.2, tornDraft.tail.tail)) made
  have writeStep (text : String) :
      (fatedFiles.write (QuoteFile.mk fatedFiles "cache/quotes.json").temporaryPath
          text).run.run (blankQuotes, tornDraft.tail.tail) =
        (pure
          (some (.error .refused),
            blankQuotes.insert ["cache", "quotes.json.tmp"] (.file "\x7b"), []) :
          Id _) := by
    have written :
        (FileTree.files.write
            (QuoteFile.mk FileTree.files "cache/quotes.json").temporaryPath
            "\x7b").run blankQuotes = _ :=
      FileTree.run_write (leadsToDraft.write_eq rfl (by decide))
    exact congrArg
      (fun written : Except FileError Unit × FileTree =>
        (some (Except.error FileError.refused : Except FileError Unit), written.2,
          ([] : List Fate))) written
  have message :
      (QuoteFileError.unwritable
        (QuoteFile.mk fatedFiles "cache/quotes.json").temporaryPath).message =
          "Failed to write cache/quotes.json.tmp" := by
    decide +kernel
  simp [StoreCall.perform, store, explained, setEntry, readAll, writeAll, check,
    Option.elimM, readStep, parsed, parent_eq, makeStep, writeStep, message,
    StoreAnswer.ofResult]

/-- A price is set in a file that starts blank, and writing beside it fails after
one character. -/
theorem never_torn_of_tornDraft :
    let ended :=
      ((StoreCall.set "stock_AAPL" (entryAt .one)).perform
        (QuoteFile.mk fatedFiles "cache/quotes.json").store).run.run
          (blankQuotes, tornDraft)
    Path.HasName "cache/quotes.json" ∧
      ended.1 = some (.failed "Failed to write cache/quotes.json.tmp") ∧
        ended.2.1.textAt "cache/quotes.json.tmp" = some "\x7b" ∧
          ended.2.1.textAt "cache/quotes.json" = some "\n" := by
  intro ended
  have hasName : Path.HasName "cache/quotes.json" := by decide +kernel
  have failed :
      ended.1 = some (.failed "Failed to write cache/quotes.json.tmp") :=
    congrArg Prod.fst run_tornDraft
  have drafted : ended.2.1.textAt "cache/quotes.json.tmp" = some "\x7b" := by
    rw [show ended = _ from run_tornDraft]
    decide +kernel
  refine ⟨hasName, failed, drafted, ?_⟩
  rcases (never_torn hasName blankQuotes _ _).2.1 _ failed with
    ⟨-, same⟩ | ⟨before, -, answered, -⟩
  · exact same.trans (by decide +kernel)
  · cases answered

end QuoteFile

end NetWorth
