import Mathlib
import NetWorth.Proofs.Rates.Spellings
import NetWorth.Proofs.Time.Instant
import NetWorth.Rates.RateBook

/-!
# The history of stored rates

Rates are stored one by one or a whole table at a time, and the rates for a base
are read from all that is stored.  A table may be stored, and stored rates may be
read, in any order.  What is read is determined by the rows that have been
written: each code has the rate of the last row for it, and the time is the
latest of the times of these rows.
-/

namespace NetWorth

namespace RateBook

/-! ## Rows -/

/-- The row that is written for a rate of a base. -/
def row
    (base : String)
    (updatedAt : Instant)
    (entry : String × Decimal) :
    StoredRate where
  base :=
    normalCode base
  target :=
    normalCode entry.1
  rate :=
    entry.2
  updatedAt :=
    updatedAt

/-- The last row for a pair of codes. -/
def lastRow?
    (rows : List StoredRate)
    (base target : String) :
    Option StoredRate :=
  rows.reverse.find? fun row => row.base = base ∧ row.target = target

theorem lastRow?_append
    (earlier later : List StoredRate)
    (base target : String) :
    lastRow? (earlier ++ later) base target =
      (lastRow? later base target).or (lastRow? earlier base target) := by
  unfold lastRow?
  rw [List.reverse_append, List.find?_append]

theorem lastRow?_eq_some
    {rows : List StoredRate}
    {base target : String}
    {row : StoredRate}
    (found : lastRow? rows base target = some row) :
    row ∈ rows ∧ row.base = base ∧ row.target = target := by
  constructor
  · exact List.mem_reverse.mp (List.mem_of_find?_eq_some found)
  · simpa using List.find?_some found

theorem lastRow?_eq_none_iff
    {rows : List StoredRate}
    {base target : String} :
    lastRow? rows base target = none ↔
      ∀ row ∈ rows, row.base = base → row.target ≠ target := by
  unfold lastRow?
  rw [List.find?_eq_none]
  simp

/-- Of the rows for the rates of one base, the last for a code has the rate that
is found last under one of its spellings. -/
theorem lastRow?_map_row
    (entries : List (String × Decimal))
    (base : String)
    (updatedAt : Instant)
    (rowBase target : String) :
    lastRow? (entries.map (row base updatedAt)) rowBase target =
      if rowBase = normalCode base then
        ((entries.reverse.find? fun entry =>
            normalCode entry.1 = target).map (·.2)).map fun rate =>
          ⟨rowBase, target, rate, updatedAt⟩
      else
        none := by
  induction entries using List.reverseRecOn with
  | nil =>
      simp [lastRow?]
  | append_singleton earlier entry inductionHypothesis =>
      rw [List.map_append, lastRow?_append, inductionHypothesis,
        List.reverse_concat, List.find?_cons]
      by_cases sameBase : rowBase = normalCode base
      · by_cases sameCode : normalCode entry.1 = target
        · simp [lastRow?, row, sameBase, sameCode]
        · simp [lastRow?, row, sameBase, sameCode]
      · simp [lastRow?, row, sameBase, Ne.symm sameBase]

/-! ## Writes -/

/-- A call that stores rates: one of them, or those of a table that has been
made by setting rates in turn. -/
inductive Write where
  | upsert (base target : String) (rate : Decimal) (updatedAt : Instant)
  | load
      (base : String)
      (rates : List (String × Decimal))
      (updatedAt : Instant)

namespace Write

/-- The rows that a call writes, in turn. -/
def rows :
    Write → List StoredRate
  | .upsert base target rate updatedAt => [row base updatedAt (target, rate)]
  | .load base rates updatedAt => rates.map (row base updatedAt)

/-- The table that a call stores. -/
def table
    (base : String)
    (rates : List (String × Decimal)) :
    RateTable :=
  .ofRates base rates none

/-- What a call makes of stored rates.  A table is stored in any order. -/
inductive Leads :
    Write → RateBook → RateBook → Prop where
  | upsert
      (book : RateBook)
      (base target : String)
      (rate : Decimal)
      (updatedAt : Instant) :
      Leads (.upsert base target rate updatedAt) book
        (book.upsert base target rate updatedAt)
  | load
      (book : RateBook)
      (base : String)
      (rates : List (String × Decimal))
      (updatedAt : Instant)
      {order : List (String × Decimal)}
      (reordered : order.Perm (table base rates).rates.entries) :
      Leads (.load base rates updatedAt) book
        (order.foldl
          (fun book entry =>
            book.upsert (table base rates).base entry.1 entry.2 updatedAt)
          book)

/-- Makes a call.  A table is stored in its own order. -/
def perform
    (book : RateBook) :
    Write → RateBook
  | .upsert base target rate updatedAt => book.upsert base target rate updatedAt
  | .load base rates updatedAt => book.load (table base rates) updatedAt

/-- The order in which a call is made is one of the orders. -/
theorem leads_perform
    (write : Write)
    (book : RateBook) :
    write.Leads book (write.perform book) := by
  cases write with
  | upsert base target rate updatedAt =>
      exact .upsert book base target rate updatedAt
  | load base rates updatedAt =>
      exact .load book base rates updatedAt (.refl _)

end Write

/-- The stored rates after calls in turn, from none. -/
inductive Reached :
    List Write → RateBook → Prop where
  | start : Reached [] .empty
  | step
      {writes : List Write}
      {book next : RateBook}
      {write : Write}
      (reached : Reached writes book)
      (leads : write.Leads book next) :
      Reached (writes ++ [write]) next

/-- The stored rates after calls that are made in turn. -/
def performed
    (writes : List Write) :
    RateBook :=
  writes.foldl Write.perform .empty

theorem reached_performed
    (writes : List Write) :
    Reached writes (performed writes) := by
  induction writes using List.reverseRecOn with
  | nil =>
      exact .start
  | append_singleton earlier last inductionHypothesis =>
      rw [performed, List.foldl_concat]
      exact inductionHypothesis.step (last.leads_perform _)

/-! ## What is stored -/

/-- The only candidate is found. -/
private theorem find?_eq_of_iff
    {items : List α}
    {property : α → Bool}
    {found : Option α}
    (only : ∀ item, item ∈ items ∧ property item ↔ found = some item) :
    items.find? property = found := by
  cases isFound : items.find? property with
  | some item =>
      have isCandidate :=
        And.intro (List.mem_of_find?_eq_some isFound) (List.find?_some isFound)
      exact ((only item).mp isCandidate).symm
  | none =>
      rw [eq_comm, Option.eq_none_iff_forall_ne_some]
      intro item isOnly
      obtain ⟨member, holds⟩ := (only item).mpr isOnly
      exact List.find?_eq_none.mp isFound item member holds

/-- Under each pair of codes the last row for it is stored. -/
def Holds
    (book : RateBook)
    (rows : List StoredRate) :
    Prop :=
  ∀ base target,
    book.rates.get? (base, target) = lastRow? rows base target

namespace Holds

variable {book : RateBook} {rows : List StoredRate}

theorem upsert
    (holds : book.Holds rows)
    (base target : String)
    (rate : Decimal)
    (updatedAt : Instant) :
    (book.upsert base target rate updatedAt).Holds
      (rows ++ [row base updatedAt (target, rate)]) := by
  intro rowBase rowTarget
  rw [lastRow?_append, ← holds rowBase rowTarget, RateBook.upsert]
  dsimp only
  rw [Table.get?_insert]
  by_cases samePair :
      (rowBase, rowTarget) = (normalCode base, normalCode target)
  · cases samePair
    simp [lastRow?, row]
  · have otherPair :
        ¬ (normalCode base = rowBase ∧ normalCode target = rowTarget) := by
      rintro ⟨rfl, rfl⟩
      exact samePair rfl
    simp [lastRow?, row, samePair, otherPair]

/-- Rates that are stored one by one leave their rows. -/
theorem upserts
    (holds : book.Holds rows)
    (base : String)
    (updatedAt : Instant)
    (entries : List (String × Decimal)) :
    (entries.foldl
        (fun book entry => book.upsert base entry.1 entry.2 updatedAt)
        book).Holds
      (rows ++ entries.map (row base updatedAt)) := by
  induction entries generalizing book rows with
  | nil =>
      simpa using holds
  | cons entry rest inductionHypothesis =>
      have restStored :=
        inductionHypothesis (holds.upsert base entry.1 entry.2 updatedAt)
      rw [List.append_assoc] at restStored
      exact restStored

end Holds

/-- The rates of a table in any order are, code by code, those that have been
set last. -/
theorem find?_entries
    {base : String}
    {rates order : List (String × Decimal)}
    (reordered : order.Perm (Write.table base rates).rates.entries)
    (target : String) :
    (order.reverse.find? fun entry => normalCode entry.1 = target).map (·.2) =
      (rates.reverse.find? fun entry => normalCode entry.1 = target).map
        (·.2) := by
  have isNormal := RateTable.isNormal_ofRates base rates none
  have onlyOne :
      (order.reverse.find? fun entry => normalCode entry.1 = target) =
        ((Write.table base rates).rates.get? target).map (target, ·) := by
    apply find?_eq_of_iff
    rintro ⟨code, rate⟩
    rw [List.mem_reverse, reordered.mem_iff, decide_eq_true_eq,
      Option.map_eq_some_iff]
    constructor
    · rintro ⟨member, sameCode⟩
      have ownCode : normalCode code = code :=
        isNormal.codes_eq code (List.mem_map_of_mem member)
      obtain rfl : code = target := ownCode.symm.trans sameCode
      exact ⟨rate, Table.get?_eq_some_iff.mpr member, rfl⟩
    · rintro ⟨stored, isStored, same⟩
      cases same
      have member := Table.get?_eq_some_iff.mp isStored
      exact ⟨member, isNormal.codes_eq target (List.mem_map_of_mem member)⟩
  rw [onlyOne, ← RateTable.get?_ofRates base rates none, Option.map_map]
  exact Option.map_id'

/-- A call stores its rows, in whichever order. -/
theorem Holds.leads
    {book next : RateBook}
    {rows : List StoredRate}
    {write : Write}
    (holds : book.Holds rows)
    (leads : write.Leads book next) :
    next.Holds (rows ++ write.rows) := by
  cases leads with
  | upsert _ base target rate updatedAt =>
      exact holds.upsert base target rate updatedAt
  | @load _ base rates updatedAt order reordered =>
      intro rowBase target
      have stored :=
        holds.upserts (Write.table base rates).base updatedAt order
          rowBase target
      rw [stored, lastRow?_append, lastRow?_append, Write.rows,
        lastRow?_map_row, lastRow?_map_row, find?_entries reordered,
        Write.table, RateTable.base_ofRates, normalCode_normalCode]

/-- After any calls the last row of each pair is stored. -/
theorem Reached.holds
    {writes : List Write}
    {book : RateBook}
    (reached : Reached writes book) :
    book.Holds (writes.flatMap Write.rows) := by
  induction reached with
  | start =>
      intro base target
      rfl
  | step _ leads inductionHypothesis =>
      rw [List.flatMap_append, List.flatMap_singleton]
      exact inductionHypothesis.leads leads

/-- The rows that are stored are the last ones of their pairs. -/
theorem Holds.mem_values_iff
    {book : RateBook}
    {rows : List StoredRate}
    (holds : book.Holds rows)
    {stored : StoredRate} :
    stored ∈ book.rates.values ↔
      lastRow? rows stored.base stored.target = some stored := by
  rw [← holds stored.base stored.target, Table.get?_eq_some_iff, Table.values,
    List.mem_map]
  constructor
  · rintro ⟨⟨⟨base, target⟩, value⟩, member, rfl⟩
    have isLast : lastRow? rows base target = some value := by
      rw [← holds base target, Table.get?_eq_some_iff]
      exact member
    obtain ⟨-, sameBase, sameTarget⟩ := lastRow?_eq_some isLast
    rw [sameBase, sameTarget]
    exact member
  · intro member
    exact ⟨_, member, rfl⟩

/-! ## What is read -/

/-- The rows for a base, in the order in which stored rates are met. -/
def rowsFor
    (order : List StoredRate)
    (base : String) :
    List StoredRate :=
  order.filter (·.base == normalCode base)

/-- The rates for a base, where stored rates are met in some order. -/
def readIn
    (order : List StoredRate)
    (base : String) :
    RateTable :=
  (rowsFor order base).foldl addStored (.empty base)

/-- Reading stored rates in their own order is one of the ways. -/
theorem ratesFor_eq_readIn
    (book : RateBook)
    (base : String) :
    book.ratesFor base = readIn book.rates.values base :=
  rfl

private theorem foldl_addStored_eq
    (stored : List StoredRate)
    (t : RateTable) :
    stored.foldl addStored t =
      { t with
        rates :=
          stored.foldl
            (fun table row => table.insert row.target row.rate) t.rates
        updatedAt := (stored.map (·.updatedAt)).foldl later t.updatedAt } := by
  induction stored generalizing t with
  | nil =>
      rfl
  | cons row rest inductionHypothesis =>
      rw [List.foldl_cons, inductionHypothesis]
      rfl

/-- Of two times the later is one of them and not before either. -/
theorem exists_later
    (first second : Instant) :
    ∃ latest,
      later (some first) second = some latest ∧
        IsGreatest {first, second} latest := by
  rw [later]
  split
  case isTrue secondLe =>
    refine ⟨first, rfl, .inl rfl, ?_⟩
    rintro time (rfl | rfl)
    · exact Instant.le_refl _
    · exact secondLe
  case isFalse notLe =>
    refine ⟨second, rfl, .inr rfl, ?_⟩
    rintro time (rfl | rfl)
    · exact (Instant.le_total _ _).resolve_right notLe
    · exact Instant.le_refl _

/-- Of some times the latest is kept. -/
theorem exists_foldl_later
    {times : List Instant}
    (someTime : times ≠ []) :
    ∃ latest,
      times.foldl later none = some latest ∧
        IsGreatest {time | time ∈ times} latest := by
  induction times using List.reverseRecOn with
  | nil =>
      exact absurd rfl someTime
  | append_singleton earlier last inductionHypothesis =>
      rw [List.foldl_concat]
      by_cases isFirst : earlier = []
      · subst isFirst
        exact ⟨last, rfl, by simp [IsGreatest, upperBounds, Instant.le_refl]⟩
      · obtain ⟨time, found, isTime, noneAfter⟩ := inductionHypothesis isFirst
        obtain ⟨latest, isLatest, isOne, notBefore⟩ := exists_later time last
        rw [found]
        refine ⟨latest, isLatest, ?_, ?_⟩
        · rcases isOne with rfl | rfl
          · exact List.mem_append_left _ isTime
          · exact List.mem_append_right _ List.mem_cons_self
        · intro other member
          rcases List.mem_append.mp member with isOther | isLast
          · exact Instant.le_trans (noneAfter isOther) (notBefore (.inl rfl))
          · exact notBefore (.inr (List.mem_singleton.mp isLast))

section Read

variable
  {book : RateBook}
  {rows order : List StoredRate}

/-- What is read for a base are the last rows for its codes. -/
theorem Holds.mem_read_iff
    (holds : book.Holds rows)
    (listed : order.Perm book.rates.values)
    (base : String)
    {stored : StoredRate} :
    stored ∈ rowsFor order base ↔
      lastRow? rows (normalCode base) stored.target = some stored := by
  rw [rowsFor, List.mem_filter, listed.mem_iff, holds.mem_values_iff,
    beq_iff_eq]
  constructor
  · rintro ⟨isLast, sameBase⟩
    rw [← sameBase]
    exact isLast
  · intro isLast
    obtain ⟨-, sameBase, -⟩ := lastRow?_eq_some isLast
    rw [sameBase]
    exact ⟨isLast, rfl⟩

/-- Only the last row for a code is met. -/
theorem Holds.find?_read
    (holds : book.Holds rows)
    (listed : order.Perm book.rates.values)
    (base target : String) :
    ((rowsFor order base).reverse.find? fun stored =>
        stored.target = target) =
      lastRow? rows (normalCode base) target := by
  apply find?_eq_of_iff
  intro stored
  rw [List.mem_reverse, holds.mem_read_iff listed, decide_eq_true_eq]
  constructor
  · rintro ⟨isLast, rfl⟩
    exact isLast
  · intro isLast
    obtain ⟨-, -, sameTarget⟩ := lastRow?_eq_some isLast
    rw [sameTarget]
    exact ⟨isLast, rfl⟩

/-- A code is read with the rate of the last row for it. -/
theorem Holds.get?_readIn
    (holds : book.Holds rows)
    (listed : order.Perm book.rates.values)
    (base target : String) :
    (readIn order base).rates.get? target =
      (lastRow? rows (normalCode base) target).map (·.rate) := by
  have found :=
    Table.get?_foldl_insert StoredRate.target StoredRate.rate
      (rowsFor order base) .empty target
  rw [holds.find?_read listed] at found
  rw [readIn, foldl_addStored_eq]
  exact found.trans Option.or_none

/-- The time of what is read is the latest time of what is met. -/
theorem updatedAt_readIn
    (order : List StoredRate)
    (base : String) :
    (readIn order base).updatedAt =
      ((rowsFor order base).map (·.updatedAt)).foldl later none := by
  rw [readIn, foldl_addStored_eq]
  rfl

theorem base_readIn
    (order : List StoredRate)
    (base : String) :
    (readIn order base).base = normalCode base := by
  rw [readIn, foldl_addStored_eq]
  rfl

/-- Nothing is met only where no row has been written for the base. -/
theorem Holds.rowsFor_eq_nil_iff
    (holds : book.Holds rows)
    (listed : order.Perm book.rates.values)
    (base : String) :
    rowsFor order base = [] ↔ ∀ row ∈ rows, row.base ≠ normalCode base := by
  rw [List.eq_nil_iff_forall_not_mem]
  constructor
  · intro noneMet row member sameBase
    cases last : lastRow? rows (normalCode base) row.target with
    | none =>
        exact lastRow?_eq_none_iff.mp last row member sameBase rfl
    | some stored =>
        obtain ⟨-, -, sameTarget⟩ := lastRow?_eq_some last
        rw [← sameTarget] at last
        exact noneMet stored ((holds.mem_read_iff listed base).mpr last)
  · intro noneWritten stored isMet
    obtain ⟨member, sameBase, -⟩ :=
      lastRow?_eq_some ((holds.mem_read_iff listed base).mp isMet)
    exact noneWritten stored member sameBase

/-- The times of the last rows for the codes of a base. -/
def lastTimes
    (rows : List StoredRate)
    (base : String) :
    Set Instant :=
  {time |
    ∃ target stored,
      lastRow? rows base target = some stored ∧ stored.updatedAt = time}

/-- The times that are met are those of the last rows. -/
theorem Holds.mem_times_read
    (holds : book.Holds rows)
    (listed : order.Perm book.rates.values)
    (base : String) :
    {time | time ∈ (rowsFor order base).map (·.updatedAt)} =
      lastTimes rows (normalCode base) := by
  ext time
  constructor
  · intro isMet
    obtain ⟨stored, member, isTime⟩ := List.mem_map.mp isMet
    exact ⟨stored.target, stored, (holds.mem_read_iff listed base).mp member,
      isTime⟩
  · rintro ⟨target, stored, last, isTime⟩
    obtain ⟨-, -, sameTarget⟩ := lastRow?_eq_some last
    rw [← sameTarget] at last
    exact List.mem_map.mpr
      ⟨stored, (holds.mem_read_iff listed base).mpr last, isTime⟩

end Read

/--
A table that is determined by rows: it has one rate for each code that there is a
row for, that of the last one, and the latest time of these last rows.  Rows for
other bases have no part in it.
-/
structure Reflects
    (table : RateTable)
    (rows : List StoredRate)
    (base : String) :
    Prop where
  base_eq : table.base = normalCode base
  codes_nodup : table.rates.keys.Nodup
  code_iff :
    ∀ target,
      target ∈ table.rates.keys ↔
        ∃ row ∈ rows, row.base = normalCode base ∧ row.target = target
  get?_eq :
    ∀ target,
      table.rates.get? target =
        (lastRow? rows (normalCode base) target).map (·.rate)
  updatedAt_eq_none_iff :
    table.updatedAt = none ↔ ∀ row ∈ rows, row.base ≠ normalCode base
  updatedAt_isGreatest :
    ∀ time,
      table.updatedAt = some time →
        IsGreatest (lastTimes rows (normalCode base)) time
  rate?_eq :
    ∀ currency,
      table.rate? currency =
        if normalCode currency = normalCode base then
          some .one
        else
          ((lastRow? rows (normalCode base) (normalCode currency)).map
            (·.rate)).filter (·.IsPositive)

/-- What is read in any order is determined by the rows whose last ones are
stored. -/
theorem Holds.reflects_readIn
    {book : RateBook}
    {rows order : List StoredRate}
    (holds : book.Holds rows)
    (listed : order.Perm book.rates.values)
    (base : String) :
    Reflects (readIn order base) rows base := by
  constructor
  · exact base_readIn order base
  · exact (readIn order base).rates.nodup
  · intro target
    rw [← not_iff_not, ← Table.get?_eq_none_iff, holds.get?_readIn listed,
      Option.map_eq_none_iff, lastRow?_eq_none_iff]
    simp only [ne_eq, not_exists, not_and]
  · exact holds.get?_readIn listed base
  · rw [updatedAt_readIn, ← holds.rowsFor_eq_nil_iff listed]
    constructor
    · intro missing
      by_contra someMet
      obtain ⟨latest, isLatest, -⟩ :=
        exists_foldl_later (mt List.map_eq_nil_iff.mp someMet)
      rw [missing] at isLatest
      cases isLatest
    · intro noneMet
      rw [noneMet]
      rfl
  · intro time isTime
    rw [updatedAt_readIn] at isTime
    have someTime : (rowsFor order base).map (·.updatedAt) ≠ [] := by
      intro noTime
      rw [noTime] at isTime
      cases isTime
    obtain ⟨latest, isLatest, isGreatest⟩ := exists_foldl_later someTime
    rw [isTime, Option.some.injEq] at isLatest
    rw [← holds.mem_times_read listed base, isLatest]
    exact isGreatest
  · intro currency
    simp only [RateTable.rate?, base_readIn, holds.get?_readIn listed]

/--
The rates for a base after any calls are determined by the rows that the calls
have written, in whichever order tables are stored and stored rates are met.
-/
theorem rates_read_reflect_history
    (writes : List Write)
    (base : String) :
    Reflects ((performed writes).ratesFor base) (writes.flatMap Write.rows)
        base ∧
      ∀ (book : RateBook) (order : List StoredRate),
        Reached writes book →
          order.Perm book.rates.values →
            Reflects (readIn order base) (writes.flatMap Write.rows) base := by
  constructor
  · rw [ratesFor_eq_readIn]
    exact (reached_performed writes).holds.reflects_readIn (.refl _) base
  · intro book order reached listed
    exact reached.holds.reflects_readIn listed base

/-- A rate that is stored again with an earlier time, and a table with two
spellings of one code. -/
def spelledWrites :
    List Write :=
  [.upsert "twd" " usd" .hundred .greatest,
    .upsert "TWD" "USD" .one .epoch,
    .load "usd" [("twd", .one), ("jpy", .zero), ("TWD ", .hundred)] .greatest]

/-- The later call sets the rate, although its time is earlier. -/
theorem rates_read_reflect_history_spelledWrites :
    Reached spelledWrites (performed spelledWrites) ∧
      Reflects
        (readIn (performed spelledWrites).rates.values.reverse "Usd")
        (spelledWrites.flatMap Write.rows) "Usd" ∧
      (((performed spelledWrites).ratesFor "Twd").rate? "usd").map
          Decimal.toText =
        some "1" ∧
      ((performed spelledWrites).ratesFor "Twd").updatedAt = some .epoch ∧
      (((performed spelledWrites).ratesFor "Usd").rate? "twd").map
          Decimal.toText =
        some "100" ∧
      ((performed spelledWrites).ratesFor "Usd").rate? "JPY" = none := by
  have reached := reached_performed spelledWrites
  obtain ⟨-, inAnyOrder⟩ := rates_read_reflect_history spelledWrites "Usd"
  refine ⟨reached, inAnyOrder _ _ reached (List.reverse_perm _), ?_⟩
  decide +kernel

end RateBook

end NetWorth
