import Mathlib
import NetWorth.Book.Memory
import NetWorth.Proofs.Table

/-!
# Books in memory

A book in memory comes about by updates.  It lists its users in ascending order,
each of them once, and whoever has a profile, a trade or an account is among
them.  Snapshots that are kept change nothing but their own rows.
-/

namespace NetWorth.MemoryBook

/-- What can be done to a book. -/
inductive Update where
  | addUser (user : String)
  | setDisplayCurrency (user currency : String)
  | appendTrades (trades : List Trade)
  | saveAccount (account : Account)
  | putSnapshot (snapshot : Snapshot)

/-- Performs an update. -/
def update
    (book : MemoryBook) :
    Update → MemoryBook
  | .addUser user => book.addUser user
  | .setDisplayCurrency user currency => book.setDisplayCurrency user currency
  | .appendTrades trades => book.appendTrades trades
  | .saveAccount account => book.saveAccount account
  | .putSnapshot snapshot => book.putSnapshot snapshot

/-- The book after updates, of which the first one is made to an empty book. -/
def ofUpdates
    (updates : List Update) :
    MemoryBook :=
  updates.foldl update empty

/-! ## Ascending lists of users -/

@[simp] theorem mem_insertUser
    {name user : String}
    {users : List String} :
    name ∈ insertUser user users ↔ name = user ∨ name ∈ users := by
  induction users with
  | nil => simp [insertUser]
  | cons other rest inductionHypothesis =>
      unfold insertUser
      split
      case isTrue => exact List.mem_cons
      case isFalse =>
        split
        case isTrue isSame => simp [isSame]
        case isFalse =>
          rw [List.mem_cons, inductionHypothesis, List.mem_cons,
            or_left_comm]

theorem ascending_insertUser
    {users : List String}
    (ascending : users.Pairwise (· < ·))
    (user : String) :
    (insertUser user users).Pairwise (· < ·) := by
  induction users with
  | nil => exact List.pairwise_singleton _ _
  | cons other rest inductionHypothesis =>
      obtain ⟨otherFirst, restAscending⟩ := List.pairwise_cons.mp ascending
      unfold insertUser
      split
      case isTrue before =>
        refine List.pairwise_cons.mpr ⟨fun name listed => ?_, ascending⟩
        rcases List.mem_cons.mp listed with rfl | inRest
        · exact before
        · exact before.trans (otherFirst name inRest)
      case isFalse notBefore =>
        split
        case isTrue => exact ascending
        case isFalse differs =>
          refine List.pairwise_cons.mpr
            ⟨fun name listed => ?_, inductionHypothesis restAscending⟩
          rcases mem_insertUser.mp listed with rfl | inRest
          · exact lt_of_le_of_ne (not_lt.mp notBefore) (Ne.symm differs)
          · exact otherFirst name inRest

/-! ## Complete directories -/

/-- Whether all names with an entry in a table are known. -/
def Knows
    {Entry : Type}
    (users : List String)
    (table : Table String Entry) :
    Prop :=
  ∀ user, (table.get? user).isSome → user ∈ users

section Knows

variable
  {Entry : Type}
  {users : List String}
  {table : Table String Entry}

/-- Names that are known stay known. -/
theorem Knows.insertUser
    (known : Knows users table)
    (user : String) :
    Knows (insertUser user users) table :=
  fun name hasEntry => mem_insertUser.mpr (.inr (known name hasEntry))

/-- An entry may be added for a user who is known by then. -/
theorem Knows.insert
    (known : Knows users table)
    (user : String)
    (entry : Entry) :
    Knows (MemoryBook.insertUser user users) (table.insert user entry) := by
  intro name hasEntry
  rw [Table.get?_insert] at hasEntry
  by_cases isUser : name = user
  · exact mem_insertUser.mpr (.inl isUser)
  · rw [if_neg isUser] at hasEntry
    exact mem_insertUser.mpr (.inr (known name hasEntry))

end Knows

/-- A book that lists each user once, and everyone that it keeps something for. -/
structure Complete
    (book : MemoryBook) :
    Prop where
  ascending : book.users.Pairwise (· < ·)
  profiles : Knows book.users book.currencies
  trades : Knows book.users book.trades
  accounts : Knows book.users book.accounts

namespace Complete

theorem empty :
    MemoryBook.empty.Complete where
  ascending := .nil
  profiles _ hasEntry := by cases hasEntry
  trades _ hasEntry := by cases hasEntry
  accounts _ hasEntry := by cases hasEntry

variable
  {book : MemoryBook}
  (complete : book.Complete)

include complete

theorem nodup_users :
    book.users.Nodup :=
  complete.ascending.imp ne_of_lt

theorem addUser
    (user : String) :
    (book.addUser user).Complete where
  ascending := ascending_insertUser complete.ascending user
  profiles := complete.profiles.insertUser user
  trades := complete.trades.insertUser user
  accounts := complete.accounts.insertUser user

theorem setDisplayCurrency
    (user currency : String) :
    (book.setDisplayCurrency user currency).Complete :=
  { complete.addUser user with
    profiles := complete.profiles.insert user _ }

theorem appendTrade
    (trade : Trade) :
    (book.appendTrade trade).Complete :=
  { complete.addUser trade.userId with
    trades := complete.trades.insert trade.userId _ }

theorem appendTrades
    (trades : List Trade) :
    (book.appendTrades trades).Complete := by
  induction trades generalizing book with
  | nil => exact complete
  | cons trade rest inductionHypothesis =>
      exact inductionHypothesis (complete.appendTrade trade)

theorem saveAccount
    (account : Account) :
    (book.saveAccount account).Complete :=
  { complete.addUser account.userId with
    accounts := complete.accounts.insert account.userId _ }

/-- An update leaves the directory complete. -/
theorem update
    (update : Update) :
    (book.update update).Complete := by
  cases update with
  | addUser user => exact complete.addUser user
  | setDisplayCurrency user currency =>
      exact complete.setDisplayCurrency user currency
  | appendTrades trades => exact complete.appendTrades trades
  | saveAccount account => exact complete.saveAccount account
  | putSnapshot snapshot => exact { complete with }

end Complete

/-- The directory of every book is complete. -/
theorem complete_ofUpdates
    (updates : List Update) :
    (ofUpdates updates).Complete := by
  suffices run :
      ∀ book : MemoryBook,
        book.Complete → (updates.foldl update book).Complete from
    run _ .empty
  induction updates with
  | nil => exact fun _ complete => complete
  | cons first rest inductionHypothesis =>
      exact fun book complete =>
        inductionHypothesis _ (complete.update first)

/-- Whether a book keeps a profile, a trade or an account of a user. -/
def Concerns
    (book : MemoryBook)
    (user : String) :
    Prop :=
  (book.currencies.get? user).isSome ∨
    book.tradesOf user ≠ [] ∨
    book.accountsOf user ≠ []

/-- Only users with an entry have anything in a list of entries. -/
private theorem isSome_of_getD_ne_nil
    {Item : Type}
    {found : Option (List Item)}
    (notEmpty : found.getD [] ≠ []) :
    found.isSome := by
  cases found with
  | none => exact absurd rfl notEmpty
  | some entry => rfl

/-- Whoever a book keeps something for is listed. -/
theorem Complete.mem_users
    {book : MemoryBook}
    (complete : book.Complete)
    {user : String}
    (concerned : book.Concerns user) :
    user ∈ book.users := by
  rcases concerned with hasProfile | hasTrade | hasAccount
  · exact complete.profiles user hasProfile
  · exact complete.trades user (isSome_of_getD_ne_nil hasTrade)
  · exact complete.accounts user (isSome_of_getD_ne_nil hasAccount)

/-! ## Keeping snapshots -/

section Snapshots

variable (book : MemoryBook)

/-- The day and the user that a snapshot is kept for. -/
def snapshotKey
    (snapshot : Snapshot) :
    String × Date :=
  (snapshot.userId, snapshot.date)

/-- Keeps snapshots one after the other. -/
def putSnapshots
    (snapshots : List Snapshot) :
    MemoryBook :=
  snapshots.foldl putSnapshot book

/-- Snapshots change nothing else of a book. -/
theorem putSnapshots_eq
    (snapshots : List Snapshot) :
    book.putSnapshots snapshots =
      { book with snapshots := (book.putSnapshots snapshots).snapshots } := by
  induction snapshots generalizing book with
  | nil => rfl
  | cons first rest inductionHypothesis =>
      exact inductionHypothesis (book.putSnapshot first)

theorem users_putSnapshots
    (snapshots : List Snapshot) :
    (book.putSnapshots snapshots).users = book.users := by
  rw [putSnapshots_eq]

/-- Rows for which no snapshot is kept stay as they are. -/
theorem get?_putSnapshots_of_not_mem
    {snapshots : List Snapshot}
    {key : String × Date}
    (untouched : key ∉ snapshots.map snapshotKey) :
    (book.putSnapshots snapshots).snapshots.get? key =
      book.snapshots.get? key := by
  induction snapshots generalizing book with
  | nil => rfl
  | cons first rest inductionHypothesis =>
      rw [List.map_cons, List.mem_cons, not_or] at untouched
      calc
        ((book.putSnapshot first).putSnapshots rest).snapshots.get? key =
            (book.putSnapshot first).snapshots.get? key :=
          inductionHypothesis _ untouched.2
        _ = book.snapshots.get? key := by
          rw [putSnapshot, Table.get?_insert]
          exact if_neg untouched.1

/-- A snapshot is found that no later one takes the place of. -/
theorem get?_putSnapshots_of_mem
    {snapshots : List Snapshot}
    (distinct : (snapshots.map snapshotKey).Nodup)
    {snapshot : Snapshot}
    (kept : snapshot ∈ snapshots) :
    (book.putSnapshots snapshots).snapshots.get? (snapshotKey snapshot) =
      some snapshot := by
  induction snapshots generalizing book with
  | nil => cases kept
  | cons first rest inductionHypothesis =>
      rw [List.map_cons, List.nodup_cons] at distinct
      rcases List.mem_cons.mp kept with rfl | inRest
      · calc
          ((book.putSnapshot snapshot).putSnapshots rest).snapshots.get?
                (snapshotKey snapshot) =
              (book.putSnapshot snapshot).snapshots.get?
                (snapshotKey snapshot) :=
            get?_putSnapshots_of_not_mem _ distinct.1
          _ = some snapshot := by
            rw [putSnapshot, Table.get?_insert]
            exact if_pos rfl
      · exact inductionHypothesis _ distinct.2 inRest

/-- Keeping snapshots that are kept already leaves a book. -/
theorem putSnapshots_of_kept
    {snapshots : List Snapshot}
    (kept :
      ∀ snapshot ∈ snapshots,
        book.snapshots.get? (snapshotKey snapshot) = some snapshot) :
    book.putSnapshots snapshots = book := by
  induction snapshots with
  | nil => rfl
  | cons first rest inductionHypothesis =>
      obtain ⟨firstKept, restKept⟩ := List.forall_mem_cons.mp kept
      have unchanged : book.putSnapshot first = book :=
        congrArg (fun snapshots => { book with snapshots })
          (Table.insert_of_get?_eq_some firstKept)
      rw [putSnapshots, List.foldl_cons, unchanged]
      exact inductionHypothesis restKept

end Snapshots

end NetWorth.MemoryBook
