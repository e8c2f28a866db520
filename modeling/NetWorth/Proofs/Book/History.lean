import Mathlib
import NetWorth.Proofs.Book.Memory
import NetWorth.Proofs.Ledger.GroupOrder

/-!
# The history of a book in memory

What is read from a book in memory is determined by the updates that it has seen.
Trades are read as they were added, and accounts in the order in which they were
first saved; of a currency, an account and a snapshot, the last one counts.  The
snapshots of a user are found by a walk along the rows of all users, which takes
in nothing of the users before and after.
-/

namespace NetWorth.MemoryBook

/-! ## What updates say -/

namespace Update

/-- The users that an update names. -/
def users :
    Update → List String
  | .addUser user => [user]
  | .setDisplayCurrency user _ => [user]
  | .appendTrades trades => trades.map (·.userId)
  | .saveAccount account => [account.userId]
  | .putSnapshot _ => []

/-- The trades that an update adds, in turn. -/
def trades :
    Update → List Trade
  | .appendTrades trades => trades
  | _ => []

/-- The account that an update saves. -/
def accounts :
    Update → List Account
  | .saveAccount account => [account]
  | _ => []

/-- The display currency that an update sets, behind its user. -/
def currencies :
    Update → List (String × String)
  | .setDisplayCurrency user currency => [(user, currency)]
  | _ => []

/-- The snapshot that an update keeps. -/
def snapshots :
    Update → List Snapshot
  | .putSnapshot snapshot => [snapshot]
  | _ => []

end Update

/-! ## What one update does -/

section Step

variable (memory : MemoryBook)

/-- Trades add their users, and themselves; they change nothing else. -/
theorem appendTrades_eq
    (trades : List Trade) :
    memory.appendTrades trades =
      { memory with
        users := (memory.appendTrades trades).users
        trades := (memory.appendTrades trades).trades } := by
  induction trades generalizing memory with
  | nil => rfl
  | cons first rest inductionHypothesis =>
      exact inductionHypothesis (memory.appendTrade first)

theorem mem_users_appendTrades
    (trades : List Trade)
    {name : String} :
    name ∈ (memory.appendTrades trades).users ↔
      name ∈ memory.users ∨ name ∈ trades.map (·.userId) := by
  induction trades generalizing memory with
  | nil => simp [appendTrades]
  | cons first rest inductionHypothesis =>
      have added :
          name ∈ (memory.appendTrade first).users ↔
            name = first.userId ∨ name ∈ memory.users :=
        mem_insertUser
      rw [appendTrades, List.foldl_cons, ← appendTrades, inductionHypothesis,
        added, List.map_cons, List.mem_cons, or_assoc, or_left_comm]

theorem tradesOf_appendTrades
    (trades : List Trade)
    (user : String) :
    (memory.appendTrades trades).tradesOf user =
      memory.tradesOf user ++ trades.filter (·.userId = user) := by
  induction trades generalizing memory with
  | nil => simp [appendTrades]
  | cons first rest inductionHypothesis =>
      have added :
          (memory.appendTrade first).tradesOf user =
            memory.tradesOf user ++ [first].filter (·.userId = user) := by
        rw [tradesOf, appendTrade, Table.get?_insert]
        by_cases isUser : user = first.userId
        · simp [isUser]
        · simp [isUser, Ne.symm isUser, tradesOf]
      rw [appendTrades, List.foldl_cons, ← appendTrades, inductionHypothesis,
        added, List.append_assoc, ← List.filter_append, List.singleton_append]

variable (update : Update)

/-- An update lists the users that it names. -/
theorem mem_users_update
    {name : String} :
    name ∈ (memory.update update).users ↔
      name ∈ memory.users ∨ name ∈ update.users := by
  have added (user : String) :
      name ∈ insertUser user memory.users ↔
        name ∈ memory.users ∨ name ∈ [user] := by
    rw [mem_insertUser, List.mem_singleton, or_comm]
  cases update with
  | addUser user => exact added user
  | setDisplayCurrency user currency => exact added user
  | appendTrades trades => exact mem_users_appendTrades memory trades
  | saveAccount account => exact added account.userId
  | putSnapshot snapshot => exact (or_iff_left List.not_mem_nil).symm

/-- An update adds its trades behind those of their users. -/
theorem tradesOf_update
    (user : String) :
    (memory.update update).tradesOf user =
      memory.tradesOf user ++ update.trades.filter (·.userId = user) := by
  cases update with
  | appendTrades trades => exact tradesOf_appendTrades memory trades user
  | _ => exact (List.append_nil _).symm

/-- An update saves its account among those of the user. -/
theorem accountsOf_update
    (user : String) :
    (memory.update update).accountsOf user =
      (update.accounts.filter (·.userId = user)).foldl
        (fun saved account => replaceAccount account saved)
        (memory.accountsOf user) := by
  cases update with
  | appendTrades trades =>
      rw [MemoryBook.update, appendTrades_eq]
      rfl
  | saveAccount account =>
      rw [MemoryBook.update, accountsOf, saveAccount, Table.get?_insert]
      by_cases isUser : user = account.userId
      · simp [Update.accounts, isUser]
      · simp [Update.accounts, isUser, Ne.symm isUser, accountsOf]
  | _ => rfl

/-- An update sets its currency in the place of the one before. -/
theorem currencies_update
    (user : String) :
    (memory.update update).currencies.get? user =
      ((update.currencies.reverse.find? (·.1 = user)).map
        fun found => normalCode found.2).or
          (memory.currencies.get? user) := by
  cases update with
  | appendTrades trades =>
      rw [MemoryBook.update, appendTrades_eq]
      rfl
  | setDisplayCurrency name currency =>
      rw [MemoryBook.update, setDisplayCurrency, Table.get?_insert]
      by_cases isUser : user = name
      · simp [Update.currencies, isUser]
      · simp [Update.currencies, isUser, Ne.symm isUser]
  | _ => rfl

/-- An update keeps its snapshot in the place of the one before. -/
theorem snapshots_update
    (key : String × Date) :
    (memory.update update).snapshots.get? key =
      (update.snapshots.reverse.find? (snapshotKey · = key)).or
        (memory.snapshots.get? key) := by
  cases update with
  | appendTrades trades =>
      rw [MemoryBook.update, appendTrades_eq]
      rfl
  | putSnapshot snapshot =>
      rw [MemoryBook.update, putSnapshot, Table.get?_insert]
      by_cases isKey : key = snapshotKey snapshot
      · refine (if_pos isKey).trans ?_
        simp [Update.snapshots, isKey]
      · refine (if_neg isKey).trans ?_
        simp [Update.snapshots, Ne.symm isKey]
  | _ => rfl

end Step

/-! ## What all updates did -/

/-- A book that keeps what updates have said. -/
structure Reflects
    (updates : List Update)
    (memory : MemoryBook) :
    Prop where
  users :
    ∀ name, name ∈ memory.users ↔ name ∈ updates.flatMap Update.users
  trades :
    ∀ user,
      memory.tradesOf user =
        (updates.flatMap Update.trades).filter (·.userId = user)
  accounts :
    ∀ user,
      memory.accountsOf user =
        ((updates.flatMap Update.accounts).filter (·.userId = user)).foldl
          (fun saved account => replaceAccount account saved) []
  currencies :
    ∀ user,
      memory.currencies.get? user =
        ((updates.flatMap Update.currencies).reverse.find? (·.1 = user)).map
          fun found => normalCode found.2
  snapshots :
    ∀ key,
      memory.snapshots.get? key =
        (updates.flatMap Update.snapshots).reverse.find? (snapshotKey · = key)

/-- An empty book has seen no update. -/
theorem Reflects.empty :
    Reflects [] MemoryBook.empty where
  users _ := iff_of_false List.not_mem_nil List.not_mem_nil
  trades _ := rfl
  accounts _ := rfl
  currencies _ := rfl
  snapshots _ := rfl

/-- What one update has said is kept with what the earlier ones have said. -/
theorem Reflects.update
    {updates : List Update}
    {memory : MemoryBook}
    (reflects : Reflects updates memory)
    (update : Update) :
    Reflects (updates ++ [update]) (memory.update update) where
  users name := by
    rw [mem_users_update, reflects.users, List.flatMap_append,
      List.flatMap_singleton, List.mem_append]
  trades user := by
    rw [tradesOf_update, reflects.trades, List.flatMap_append,
      List.flatMap_singleton, List.filter_append]
  accounts user := by
    rw [accountsOf_update, reflects.accounts, List.flatMap_append,
      List.flatMap_singleton, List.filter_append, List.foldl_append]
  currencies user := by
    rw [currencies_update, reflects.currencies, List.flatMap_append,
      List.flatMap_singleton, List.reverse_append, List.find?_append,
      Option.map_or]
  snapshots key := by
    rw [snapshots_update, reflects.snapshots, List.flatMap_append,
      List.flatMap_singleton, List.reverse_append, List.find?_append]

/-- Every book keeps what its updates have said. -/
theorem reflects_ofUpdates
    (updates : List Update) :
    Reflects updates (ofUpdates updates) := by
  induction updates using List.reverseRecOn with
  | nil => exact .empty
  | append_singleton earlier last inductionHypothesis =>
      rw [ofUpdates, List.foldl_concat]
      exact inductionHypothesis.update last

/-! ## Accounts -/

section Accounts

variable
  (account : Account)
  (saved : List Account)

/-- An identifier keeps its place, and a new one is added at the end. -/
theorem ids_replaceAccount :
    (replaceAccount account saved).map (·.id) =
      if account.id ∈ saved.map (·.id) then saved.map (·.id)
      else saved.map (·.id) ++ [account.id] := by
  induction saved with
  | nil => rfl
  | cons other rest inductionHypothesis =>
      unfold replaceAccount
      by_cases isOther : other.id = account.id
      · simp [isOther]
      · simp only [if_neg isOther, List.map_cons, inductionHypothesis,
          List.mem_cons, Ne.symm isOther, false_or]
        split <;> rfl

/-- Identifiers stay distinct. -/
theorem nodup_replaceAccount
    (distinct : (saved.map (·.id)).Nodup) :
    ((replaceAccount account saved).map (·.id)).Nodup := by
  rw [ids_replaceAccount]
  split
  case isTrue => exact distinct
  case isFalse isNew =>
    refine List.nodup_append.mpr ⟨distinct, List.nodup_singleton _, ?_⟩
    rintro id isSaved _ isLast rfl
    rw [List.mem_singleton.mp isLast] at isSaved
    exact isNew isSaved

/-- What is listed afterwards is the account, or has another identifier and was
listed before. -/
theorem mem_replaceAccount
    {account : Account}
    {saved : List Account}
    (distinct : (saved.map (·.id)).Nodup)
    {other : Account}
    (listed : other ∈ replaceAccount account saved) :
    other = account ∨ other ∈ saved ∧ other.id ≠ account.id := by
  induction saved with
  | nil => exact .inl (List.mem_singleton.mp listed)
  | cons first rest inductionHypothesis =>
      obtain ⟨firstOnly, restDistinct⟩ := List.nodup_cons.mp distinct
      unfold replaceAccount at listed
      split at listed
      case isTrue isFirst =>
        refine (List.mem_cons.mp listed).imp_right fun inRest =>
          ⟨List.mem_cons_of_mem _ inRest, fun sameId => firstOnly ?_⟩
        exact List.mem_map.mpr ⟨other, inRest, sameId.trans isFirst.symm⟩
      case isFalse differs =>
        rcases List.mem_cons.mp listed with rfl | inRest
        · exact .inr ⟨List.mem_cons_self, differs⟩
        · exact (inductionHypothesis restDistinct inRest).imp_right fun before =>
            ⟨List.mem_cons_of_mem _ before.1, before.2⟩

end Accounts

/-- Only a new identifier is added to those that have come up. -/
private theorem eraseDups_concat
    (ids : List String)
    (id : String) :
    (ids ++ [id]).eraseDups =
      if id ∈ ids then ids.eraseDups else ids.eraseDups ++ [id] := by
  rw [List.eraseDups_append]
  by_cases known : id ∈ ids
  · simp [List.removeAll, known]
  · simp [List.removeAll, known, List.eraseDups_cons]

/-- Accounts that are saved in turn: there is one for each identifier, in the order
in which the identifiers first came up, and it is the last one. -/
theorem accounts_foldl_replaceAccount
    (accounts : List Account) :
    let saved :=
      accounts.foldl (fun saved account => replaceAccount account saved) []
    (saved.map (·.id)).Nodup ∧
      saved.map (·.id) = (accounts.map (·.id)).eraseDups ∧
        ∀ account ∈ saved,
          accounts.reverse.find? (·.id = account.id) = some account := by
  induction accounts using List.reverseRecOn with
  | nil => exact ⟨List.nodup_nil, rfl, fun _ isSaved => by cases isSaved⟩
  | append_singleton earlier last inductionHypothesis =>
      obtain ⟨distinct, sameIds, areLast⟩ := inductionHypothesis
      rw [List.foldl_concat]
      refine ⟨nodup_replaceAccount _ _ distinct, ?ids, fun account listed => ?_⟩
      case ids =>
        rw [ids_replaceAccount, sameIds, List.map_append, List.map_singleton,
          eraseDups_concat]
        exact if_congr List.mem_eraseDups rfl rfl
      rw [List.reverse_concat]
      rcases mem_replaceAccount distinct listed with rfl | ⟨before, differs⟩
      · exact List.find?_cons_of_pos (by simp)
      · rw [List.find?_cons_of_neg (by simpa using differs.symm)]
        exact areLast account before

/-! ## The rows of snapshots -/

section Rows

variable {first second third : String × Date}

theorem rowLe_iff :
    rowLe first second ↔
      first.1 < second.1 ∨ first.1 = second.1 ∧ first.2.day ≤ second.2.day := by
  simp [rowLe, Date.le_def]

theorem rowLe_trans
    (firstLe : rowLe first second)
    (secondLe : rowLe second third) :
    rowLe first third := by
  rw [rowLe_iff] at firstLe secondLe ⊢
  rcases firstLe with firstLt | ⟨sameUser, dayLe⟩
  · rcases secondLe with secondLt | ⟨sameUser, -⟩
    · exact .inl (firstLt.trans secondLt)
    · exact .inl (sameUser ▸ firstLt)
  · rw [sameUser]
    exact secondLe.imp_right fun later => ⟨later.1, dayLe.trans later.2⟩

theorem rowLe_total
    (first second : String × Date) :
    rowLe first second || rowLe second first := by
  rw [Bool.or_eq_true, rowLe_iff, rowLe_iff]
  rcases lt_trichotomy first.1 second.1 with before | sameUser | after
  · exact .inl (.inl before)
  · rcases le_total first.2.day second.2.day with dayLe | dayLe
    · exact .inl (.inr ⟨sameUser, dayLe⟩)
    · exact .inr (.inr ⟨sameUser.symm, dayLe⟩)
  · exact .inr (.inl after)

/-- Between two rows of a user there are only rows of that user. -/
theorem between_iff
    {user : String}
    {first last : Date}
    {row : String × Date} :
    rowLe (user, first) row ∧ rowLe row (user, last) ↔
      row.1 = user ∧ first ≤ row.2 ∧ row.2 ≤ last := by
  rw [rowLe_iff, rowLe_iff]
  constructor
  · rintro ⟨after | ⟨sameUser, firstLe⟩, before | ⟨otherUser, leLast⟩⟩
    · exact absurd after before.asymm
    · exact absurd otherUser after.ne'
    · exact absurd sameUser.symm before.ne
    · exact ⟨otherUser, firstLe, leLast⟩
  · rintro ⟨sameUser, firstLe, leLast⟩
    exact ⟨.inr ⟨sameUser.symm, firstLe⟩, .inr ⟨sameUser, leLast⟩⟩

end Rows

section Walk

variable
  {Item : Type}
  {property : Item → Bool}
  {items : List Item}

/-- Where nothing that has a property follows something that has it not, the items
with the property are those in front. -/
private theorem takeWhile_eq_filter
    (closed :
      items.Pairwise fun earlier later => property later → property earlier) :
    items.takeWhile property = items.filter property := by
  induction closed with
  | nil => rfl
  | @cons head rest closedHead _ inductionHypothesis =>
      by_cases has : property head
      · rw [List.takeWhile_cons_of_pos has, List.filter_cons_of_pos has,
          inductionHypothesis]
      · have noneFollows : rest.filter property = [] :=
          List.filter_eq_nil_iff.mpr fun later follows =>
            mt (closedHead later follows) has
        rw [List.takeWhile_cons_of_neg has, List.filter_cons_of_neg has,
          noneFollows]

/-- The items without the property are those behind. -/
private theorem dropWhile_eq_filter
    (closed :
      items.Pairwise fun earlier later => property later → property earlier) :
    items.dropWhile property = items.filter fun item => !property item := by
  induction closed with
  | nil => rfl
  | @cons head rest closedHead _ inductionHypothesis =>
      by_cases has : property head
      · rw [List.dropWhile_cons_of_pos has,
          List.filter_cons_of_neg (by simp [has]), inductionHypothesis]
      · have allFollow : rest.filter (fun item => !property item) = rest :=
          List.filter_eq_self.mpr fun later follows => by
            simpa using mt (closedHead later follows) has
        rw [List.dropWhile_cons_of_neg has,
          List.filter_cons_of_pos (by simp [has]), allFollow]

end Walk

section Within

variable (memory : MemoryBook)

theorem pairwise_sortedRows :
    memory.sortedRows.Pairwise fun x y => rowLe x.1 y.1 := by
  refine List.pairwise_mergeSort ?_ ?_ _
  · intro x y z xLe yLe
    exact rowLe_trans xLe yLe
  · intro x y
    exact rowLe_total x.1 y.1

theorem perm_sortedRows :
    memory.sortedRows.Perm memory.snapshots.entries :=
  List.mergeSort_perm _ _

/-- A walk from one row to another takes in all rows between them, in their
order. -/
theorem rowsWithin_eq
    (first last : String × Date) :
    memory.rowsWithin first last =
      memory.sortedRows.filter fun row =>
        rowLe first row.1 && rowLe row.1 last := by
  have sorted := memory.pairwise_sortedRows
  have notReachedBefore :
      memory.sortedRows.Pairwise fun earlier later =>
        (!rowLe first later.1) = true → (!rowLe first earlier.1) = true := by
    refine sorted.imp fun inOrder notReached => ?_
    rw [Bool.not_eq_true', Bool.eq_false_iff] at notReached ⊢
    exact fun reached => notReached (rowLe_trans reached inOrder)
  have passed :
      memory.sortedRows.dropWhile (fun row => !rowLe first row.1) =
        memory.sortedRows.filter fun row => rowLe first row.1 := by
    rw [dropWhile_eq_filter notReachedBefore]
    simp only [Bool.not_not]
  have sortedRest := sorted.filter fun row => rowLe first row.1
  rw [rowsWithin, passed,
    takeWhile_eq_filter (sortedRest.imp fun inOrder notPassed =>
      rowLe_trans inOrder notPassed),
    List.filter_filter]
  simp only [Bool.and_comm]

/-- The rows come in their order, each of them once. -/
theorem pairwise_rowsWithin
    (first last : String × Date) :
    (memory.rowsWithin first last).Pairwise fun x y =>
      rowLe x.1 y.1 ∧ x.1 ≠ y.1 := by
  have distinct : (memory.sortedRows.map (·.1)).Nodup :=
    (memory.perm_sortedRows.map _).nodup_iff.mpr memory.snapshots.nodup
  rw [rowsWithin_eq]
  exact (memory.pairwise_sortedRows.and (List.pairwise_map.mp distinct)).filter _

theorem mem_rowsWithin
    {first last : String × Date}
    {row : (String × Date) × Snapshot} :
    row ∈ memory.rowsWithin first last ↔
      memory.snapshots.get? row.1 = some row.2 ∧
        rowLe first row.1 ∧ rowLe row.1 last := by
  rw [rowsWithin_eq, List.mem_filter, memory.perm_sortedRows.mem_iff,
    Table.get?_eq_some_iff, Bool.and_eq_true]

end Within

section Snapshots

variable
  {updates : List Update}
  {memory : MemoryBook}
  (reflects : Reflects updates memory)

include reflects

/-- A snapshot is kept under its own user and day. -/
theorem Reflects.key_eq
    {key : String × Date}
    {snapshot : Snapshot}
    (kept : memory.snapshots.get? key = some snapshot) :
    snapshotKey snapshot = key := by
  rw [reflects.snapshots] at kept
  simpa using List.find?_some kept

/-- The snapshots of a user from one day to another are the last ones that were
kept for the user and for a day between them. -/
theorem Reflects.mem_snapshotsOf
    {user : String}
    {first last : Date}
    {snapshot : Snapshot} :
    snapshot ∈ memory.snapshotsOf user first last ↔
      (snapshot.userId = user ∧ first ≤ snapshot.date ∧ snapshot.date ≤ last) ∧
        (updates.flatMap Update.snapshots).reverse.find?
            (snapshotKey · = snapshotKey snapshot) =
          some snapshot := by
  rw [← reflects.snapshots]
  unfold snapshotsOf
  split
  case isTrue isEmpty =>
    refine iff_of_false List.not_mem_nil ?_
    rintro ⟨⟨-, firstLe, leLast⟩, -⟩
    rw [Date.lt_def] at isEmpty
    rw [Date.le_def] at firstLe leLast
    omega
  case isFalse =>
    rw [List.mem_map]
    constructor
    · rintro ⟨row, isWithin, rfl⟩
      obtain ⟨kept, between⟩ := memory.mem_rowsWithin.mp isWithin
      have isKey := reflects.key_eq kept
      rw [← isKey] at kept between
      exact ⟨between_iff.mp between, kept⟩
    · rintro ⟨between, kept⟩
      exact ⟨(snapshotKey snapshot, snapshot),
        memory.mem_rowsWithin.mpr ⟨kept, between_iff.mpr between⟩, rfl⟩

/-- The snapshots of a user are listed by day, the oldest first. -/
theorem Reflects.ascending_snapshotsOf
    (user : String)
    (first last : Date) :
    ((memory.snapshotsOf user first last).map (·.date)).Pairwise (· < ·) := by
  unfold snapshotsOf
  split
  case isTrue => exact .nil
  case isFalse =>
    rw [List.map_map, List.pairwise_map]
    refine (memory.pairwise_rowsWithin _ _).imp_of_mem
      fun {earlier later} earlierWithin laterWithin inOrder => ?_
    obtain ⟨earlierKept, earlierBetween⟩ := memory.mem_rowsWithin.mp earlierWithin
    obtain ⟨laterKept, laterBetween⟩ := memory.mem_rowsWithin.mp laterWithin
    obtain ⟨earlierUser, -⟩ := between_iff.mp earlierBetween
    obtain ⟨laterUser, -⟩ := between_iff.mp laterBetween
    have sameUser : earlier.1.1 = later.1.1 := earlierUser.trans laterUser.symm
    have earlierDate : earlier.2.date = earlier.1.2 :=
      congrArg Prod.snd (reflects.key_eq earlierKept)
    have laterDate : later.2.date = later.1.2 :=
      congrArg Prod.snd (reflects.key_eq laterKept)
    have differentDays : earlier.1.2.day ≠ later.1.2.day := fun sameDay =>
      inOrder.2 (Prod.ext sameUser (Date.day_injective sameDay))
    change earlier.2.date < later.2.date
    rw [earlierDate, laterDate, Date.lt_def]
    rcases rowLe_iff.mp inOrder.1 with before | ⟨-, dayLe⟩
    · exact absurd sameUser before.ne
    · exact lt_of_le_of_ne dayLe differentDays

end Snapshots

/-! ## What is read -/

/--
What is read from a book in memory after any updates, for any user.  The trades
are all that were added for the user, in turn.  There is one account for each
identifier that was saved for the user, in the order in which the identifiers
first came up, and it is the last one saved.  The display currency is the normal
form of the last one set.  The users are all that were named, in ascending order.
The snapshots from one day to another are the last ones kept for the user and for
these days, the oldest first.  Reading changes nothing, and the call that keeps a
snapshot is one more update.
-/
theorem reads_reflect_updates
    (updates : List Update)
    (user : String) :
    let memory := ofUpdates updates
    let added := updates.flatMap Update.trades
    let saved :=
      (updates.flatMap Update.accounts).filter (·.userId = user)
    let set := updates.flatMap Update.currencies
    let named := updates.flatMap Update.users
    let kept := updates.flatMap Update.snapshots
    (book.trades user).run memory =
        (.ok (added.filter (·.userId = user)), memory) ∧
      (∃ accounts,
        (book.accounts user).run memory = (.ok accounts, memory) ∧
          accounts.map (·.id) = (saved.map (·.id)).eraseDups ∧
          ∀ account ∈ accounts,
            saved.reverse.find? (·.id = account.id) = some account) ∧
      (book.displayCurrency user).run memory =
        (.ok ((set.reverse.find? (·.1 = user)).map fun last =>
            normalCode last.2),
          memory) ∧
      (∃ users,
        book.users.run memory = (.ok users, memory) ∧
          users.Pairwise (· < ·) ∧ ∀ name, name ∈ users ↔ name ∈ named) ∧
      (∀ first last : Date,
        ∃ snapshots,
          (book.snapshots user first last).run memory =
              (.ok snapshots, memory) ∧
            (snapshots.map (·.date)).Pairwise (· < ·) ∧
            (last < first → snapshots = []) ∧
            ∀ snapshot,
              snapshot ∈ snapshots ↔
                (snapshot.userId = user ∧
                  first ≤ snapshot.date ∧ snapshot.date ≤ last) ∧
                kept.reverse.find? (snapshotKey · = snapshotKey snapshot) =
                  some snapshot) ∧
      ∀ snapshot,
        (book.putSnapshot snapshot).run memory =
          (.ok (), ofUpdates (updates ++ [.putSnapshot snapshot])) := by
  intro memory added saved set named kept
  have reflects : Reflects updates memory := reflects_ofUpdates updates
  obtain ⟨-, sameIds, areLast⟩ := accounts_foldl_replaceAccount saved
  rw [← reflects.accounts user] at sameIds areLast
  refine ⟨?trades, ⟨_, rfl, sameIds, areLast⟩, ?currency,
    ⟨_, rfl, (complete_ofUpdates updates).ascending, reflects.users⟩,
    fun first last => ⟨_, rfl, reflects.ascending_snapshotsOf user first last,
      fun isEmpty => if_pos isEmpty, fun _ => reflects.mem_snapshotsOf⟩,
    fun snapshot => ?keeping⟩
  case trades =>
    rw [← reflects.trades user]
    rfl
  case currency =>
    rw [← reflects.currencies user]
    rfl
  case keeping =>
    rw [ofUpdates, List.foldl_concat]
    rfl

end NetWorth.MemoryBook
