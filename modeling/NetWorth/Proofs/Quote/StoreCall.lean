import Mathlib
import NetWorth.Proofs.Quote.Records
import NetWorth.Proofs.Quote.Script

/-!
# Calls of a store

The calls of a store as data, so that a run of them can be put to two stores.
The store in memory does with its table what each call says; and a table without
the signs of zeros goes through a run as the table does, but for those signs.
-/

namespace NetWorth

open QuoteTable (memoryStore)

/-- A call of a store. -/
inductive StoreCall where
  | get (key : String)
  | set (key : String) (entry : CachedQuote)
  | delete (key : String)
  | deleteIfExpired (key : String) (now : Instant)
  | deleteExpired (now : Instant)
  deriving DecidableEq

/-- What a call is answered with. -/
inductive StoreAnswer where
  | entry (found : Option CachedQuote)
  | done
  | removed (wasExpired : Bool)
  | count (expired : Nat)
  | failed (cause : String)
  deriving DecidableEq

namespace StoreAnswer

/-- The answer that a result of a call is. -/
def ofResult
    {α : Type}
    (answer : α → StoreAnswer) :
    Except String α → StoreAnswer
  | .ok result => answer result
  | .error cause => .failed cause

/-- The answer with an entry whose price is no signed zero. -/
def unsigned :
    StoreAnswer → StoreAnswer
  | .entry found => .entry (found.map CachedQuote.unsigned)
  | answer => answer

end StoreAnswer

namespace StoreCall

variable {m : Type → Type} [Monad m]

/-- Performs a call on a store. -/
def perform
    (store : QuoteStore m) :
    StoreCall → m StoreAnswer
  | .get key => StoreAnswer.ofResult .entry <$> store.get key
  | .set key entry => StoreAnswer.ofResult (fun _ => .done) <$> store.set key entry
  | .delete key => StoreAnswer.ofResult (fun _ => .done) <$> store.delete key
  | .deleteIfExpired key now =>
      StoreAnswer.ofResult .removed <$> store.deleteIfExpired key now
  | .deleteExpired now =>
      StoreAnswer.ofResult .count <$> store.deleteExpired now

/-- The call with an entry whose price is no signed zero. -/
def unsigned :
    StoreCall → StoreCall
  | .set key entry => .set key entry.unsigned
  | call => call

/-- What a call answers and leaves of a table. -/
def onTable
    (t : QuoteTable) :
    StoreCall → StoreAnswer × QuoteTable
  | .get key => (.entry (t.get? key), t)
  | .set key entry => (.done, t.insert key entry)
  | .delete key => (.done, t.erase key)
  | .deleteIfExpired key now =>
      (.removed (t.dropIfExpired key now).1, (t.dropIfExpired key now).2)
  | .deleteExpired now => (.count (t.dropExpired now).1, (t.dropExpired now).2)

/-- What calls one after the other answer and leave of a table. -/
def allOnTable
    (t : QuoteTable) :
    List StoreCall → List StoreAnswer × QuoteTable
  | [] => ([], t)
  | call :: calls =>
      let (answer, t) := call.onTable t
      let (answers, t) := allOnTable t calls
      (answer :: answers, t)

end StoreCall

/-- The answers of the store in memory to calls. -/
def QuoteTable.answers
    (calls : List StoreCall) :
    StateM QuoteTable (List StoreAnswer) :=
  calls.mapM fun call => call.perform memoryStore

/-! ## Calls on a table -/

namespace QuoteTable

/-- The table without the signs of zeros. -/
abbrev unsigned
    (t : QuoteTable) :
    QuoteTable :=
  t.mapValues CachedQuote.unsigned

@[simp] theorem unsigned_unsigned
    (t : QuoteTable) :
    t.unsigned.unsigned = t.unsigned :=
  Table.eq_of_entries (by simp [Table.mapValues])

theorem dropIfExpired_unsigned
    (t : QuoteTable)
    (key : String)
    (now : Instant) :
    t.unsigned.dropIfExpired key now =
      ((t.dropIfExpired key now).1, (t.dropIfExpired key now).2.unsigned) := by
  unfold dropIfExpired
  rw [Table.get?_mapValues]
  cases t.get? key with
  | none => rfl
  | some entry =>
      by_cases fresh : entry.IsFresh now
      · simp [fresh]
      · simp [fresh, Table.mapValues_erase]

theorem dropExpired_unsigned
    (t : QuoteTable)
    (now : Instant) :
    t.unsigned.dropExpired now =
      ((t.dropExpired now).1, (t.dropExpired now).2.unsigned) := by
  have kept :
      unsigned (t.filter fun _ entry => entry.IsFresh now) =
        t.unsigned.filter fun _ entry => entry.IsFresh now :=
    Table.mapValues_filter CachedQuote.unsigned t fun _ entry => entry.IsFresh now
  simp only [dropExpired]
  rw [← kept, Table.size_mapValues, Table.size_mapValues]

/-- What is left when nothing was dropped is the table. -/
theorem dropIfExpired_of_kept
    {t : QuoteTable}
    {key : String}
    {now : Instant}
    (kept : (t.dropIfExpired key now).1 = false) :
    (t.dropIfExpired key now).2 = t := by
  unfold dropIfExpired at kept ⊢
  split at kept
  · split at kept
    · next fresh => simp [*]
    · cases kept
  · simp [*]

theorem dropExpired_of_kept
    {t : QuoteTable}
    {now : Instant}
    (kept : (t.dropExpired now).1 = 0) :
    (t.dropExpired now).2 = t := by
  have sameLength :
      (t.entries.filter fun entry => entry.2.IsFresh now).length =
        t.entries.length := by
    have := List.length_filter_le (fun entry => entry.2.IsFresh now) t.entries
    simp only [dropExpired, Table.size, Table.filter] at kept
    omega
  exact Table.eq_of_entries (List.filter_sublist.eq_of_length sameLength)

end QuoteTable

namespace StoreCall

/-- A call without signed zeros, on a table without them, answers and leaves
what the call does, without their signs. -/
theorem onTable_unsigned
    (t : QuoteTable)
    (call : StoreCall) :
    call.unsigned.onTable t.unsigned =
      ((call.onTable t).1.unsigned, (call.onTable t).2.unsigned) := by
  cases call with
  | get key => simp [unsigned, onTable, StoreAnswer.unsigned]
  | set key entry =>
      simp [unsigned, onTable, StoreAnswer.unsigned, Table.mapValues_insert]
  | delete key =>
      simp [unsigned, onTable, StoreAnswer.unsigned, Table.mapValues_erase]
  | deleteIfExpired key now =>
      simp [unsigned, onTable, StoreAnswer.unsigned,
        QuoteTable.dropIfExpired_unsigned]
  | deleteExpired now =>
      simp [unsigned, onTable, StoreAnswer.unsigned,
        QuoteTable.dropExpired_unsigned]

/-- On a table without signed zeros a call answers without them. -/
theorem unsigned_onTable
    {t : QuoteTable}
    (plain : t.unsigned = t)
    (call : StoreCall) :
    (call.onTable t).1.unsigned = (call.onTable t).1 := by
  cases call with
  | get key =>
      rw [← plain]
      simp [onTable, StoreAnswer.unsigned, Function.comp_def]
  | _ => rfl

/-- A call on a table without the signs of zeros is answered as on the table,
without them, and leaves the same but for them. -/
theorem onTable_unsigned_table
    (t : QuoteTable)
    (call : StoreCall) :
    (call.onTable t.unsigned).1 = (call.onTable t).1.unsigned ∧
      (call.onTable t.unsigned).2.unsigned = (call.onTable t).2.unsigned := by
  have onUnsigned := onTable_unsigned t.unsigned call
  rw [QuoteTable.unsigned_unsigned, onTable_unsigned t call, Prod.mk.injEq,
    unsigned_onTable (QuoteTable.unsigned_unsigned t)] at onUnsigned
  exact ⟨onUnsigned.1.symm, onUnsigned.2.symm⟩

/-- Calls one after the other that bring in no signed zero are answered without
one. -/
theorem unsigned_allOnTable
    {calls : List StoreCall}
    (callsPlain : ∀ call ∈ calls, call.unsigned = call)
    {t : QuoteTable}
    (plain : t.unsigned = t) :
    (allOnTable t calls).1.map StoreAnswer.unsigned = (allOnTable t calls).1 := by
  induction calls generalizing t with
  | nil => rfl
  | cons call calls inductionHypothesis =>
      rw [List.forall_mem_cons] at callsPlain
      obtain ⟨callPlain, othersPlain⟩ := callsPlain
      have left := onTable_unsigned t call
      rw [callPlain, plain] at left
      have leftPlain : (call.onTable t).2.unsigned = (call.onTable t).2 :=
        (congrArg Prod.snd left).symm
      simp only [allOnTable, List.map_cons, unsigned_onTable plain,
        inductionHypothesis othersPlain leftPlain]

/-- The store in memory does with its table what the call does. -/
theorem perform_memoryStore
    (call : StoreCall)
    (t : QuoteTable) :
    (call.perform memoryStore).run t = call.onTable t := by
  cases call <;> rfl

end StoreCall

theorem QuoteTable.run_answers
    (calls : List StoreCall)
    (t : QuoteTable) :
    (QuoteTable.answers calls).run t = StoreCall.allOnTable t calls := by
  unfold answers
  induction calls generalizing t with
  | nil => rfl
  | cons call calls inductionHypothesis =>
      rw [run_mapM_cons, StoreCall.perform_memoryStore, inductionHypothesis]
      rfl

end NetWorth
