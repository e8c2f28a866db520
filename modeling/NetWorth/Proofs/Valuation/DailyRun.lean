import Mathlib
import NetWorth.Proofs.Holding.Isolation
import NetWorth.Proofs.Valuation.Office

/-!
# The daily run

The daily run keeps a snapshot for every user whose ledger is accepted.  A user
whose ledger is refused is passed over, and nothing else is changed, so that the
run may be repeated.
-/

namespace NetWorth

/-- Whether the ledger of a user is accepted. -/
def MemoryBook.replays
    (book : MemoryBook)
    (user : String) :
    Bool :=
  (Ledger.positions (book.tradesOf user)).isOk

theorem MemoryBook.replays_putSnapshots
    (book : MemoryBook)
    (snapshots : List Snapshot) :
    (book.putSnapshots snapshots).replays = book.replays := by
  rw [putSnapshots_eq]
  rfl

namespace Office

variable {World : Type}

section Snapshots

variable
  (office : Office World)
  (book : MemoryBook)
  (answers : AssetClass → String → PriceAnswer)
  (date : Date)

/-- The snapshot of a total. -/
def snapshotOf
    (user : String)
    (valuation : Valuation) :
    Snapshot where
  userId :=
    user
  date :=
    date
  totalValue :=
    valuation.totalValue
  currency :=
    valuation.currency

/-- The snapshot of a user, unless the ledger is refused. -/
def snapshotOf?
    (user : String) :
    Option Snapshot :=
  (office.valuationOf book answers user .epoch).toOption.map
    (snapshotOf date user)

/-- The snapshots of all users that are listed. -/
def snapshotsOf :
    List Snapshot :=
  book.users.filterMap (office.snapshotOf? book answers date)

/-- The book with these snapshots. -/
def recordedBook :
    MemoryBook :=
  book.putSnapshots (office.snapshotsOf book answers date)

/-- The time of a total does not show in its snapshot. -/
theorem snapshotOf?_eq
    (user : String)
    (asOf : Instant) :
    office.snapshotOf? book answers date user =
      (office.valuationOf book answers user asOf).toOption.map
        (snapshotOf date user) := by
  unfold snapshotOf? valuationOf
  cases office.holdingsOf book answers user <;> rfl

/-- There is a snapshot of a user if the ledger is accepted. -/
theorem isSome_snapshotOf?
    (user : String) :
    (office.snapshotOf? book answers date user).isSome =
      book.replays user := by
  unfold snapshotOf? valuationOf holdingsOf MemoryBook.replays
  cases Ledger.positions (book.tradesOf user) <;> rfl

/-- There are as many snapshots as ledgers that are accepted. -/
theorem length_snapshotsOf :
    (office.snapshotsOf book answers date).length =
      book.users.countP book.replays := by
  rw [snapshotsOf, List.length_filterMap_eq_countP]
  exact List.countP_congr fun user _ => by rw [isSome_snapshotOf?]

/-- A snapshot of a user is kept for the user and the day. -/
theorem snapshotKey_of_snapshotOf?
    {user : String}
    {snapshot : Snapshot}
    (isSnapshot :
      office.snapshotOf? book answers date user = some snapshot) :
    MemoryBook.snapshotKey snapshot = (user, date) := by
  obtain ⟨valuation, -, rfl⟩ := Option.map_eq_some_iff.mp isSnapshot
  rfl

/-- Snapshots are kept for the listed users whose ledgers are accepted. -/
theorem mem_snapshotKeys
    {user : String}
    {day : Date} :
    (user, day) ∈
        (office.snapshotsOf book answers date).map MemoryBook.snapshotKey ↔
      day = date ∧ user ∈ book.users ∧ book.replays user := by
  rw [List.mem_map]
  constructor
  · rintro ⟨snapshot, isKept, isKey⟩
    obtain ⟨owner, isListed, isSnapshot⟩ := List.mem_filterMap.mp isKept
    rw [snapshotKey_of_snapshotOf? _ _ _ _ isSnapshot, Prod.mk.injEq] at isKey
    obtain ⟨rfl, rfl⟩ := isKey
    refine ⟨rfl, isListed, ?_⟩
    rw [← isSome_snapshotOf? office book answers date, isSnapshot]
    rfl
  · rintro ⟨rfl, isListed, replays⟩
    rw [← isSome_snapshotOf? office book answers day,
      Option.isSome_iff_exists] at replays
    obtain ⟨snapshot, isSnapshot⟩ := replays
    exact ⟨snapshot, List.mem_filterMap.mpr ⟨user, isListed, isSnapshot⟩,
      snapshotKey_of_snapshotOf? _ _ _ _ isSnapshot⟩

/-- Users that are listed once have one snapshot for a day. -/
theorem nodup_snapshotKeys
    (distinct : book.users.Nodup) :
    ((office.snapshotsOf book answers date).map
      MemoryBook.snapshotKey).Nodup := by
  rw [snapshotsOf, List.map_filterMap]
  refine distinct.filterMap fun user other key isKey isOtherKey => ?_
  obtain ⟨snapshot, isSnapshot, rfl⟩ := Option.map_eq_some_iff.mp isKey
  obtain ⟨another, isAnother, sameKey⟩ :=
    Option.map_eq_some_iff.mp isOtherKey
  rw [snapshotKey_of_snapshotOf? _ _ _ _ isSnapshot,
    snapshotKey_of_snapshotOf? _ _ _ _ isAnother, Prod.mk.injEq] at sameKey
  exact sameKey.1.symm

/-- Snapshots that are kept do not show in those to come. -/
theorem snapshotOf?_putSnapshots
    (snapshots : List Snapshot) :
    office.snapshotOf? (book.putSnapshots snapshots) answers date =
      office.snapshotOf? book answers date := by
  rw [MemoryBook.putSnapshots_eq]
  rfl

/-- Snapshots that are kept already are not changed by being kept again. -/
theorem recordedBook_recordedBook
    (distinct : book.users.Nodup) :
    office.recordedBook (office.recordedBook book answers date) answers date =
      office.recordedBook book answers date := by
  have sameSnapshots :
      office.snapshotsOf (office.recordedBook book answers date) answers date =
        office.snapshotsOf book answers date := by
    unfold snapshotsOf recordedBook
    rw [snapshotOf?_putSnapshots, MemoryBook.users_putSnapshots]
  rw [recordedBook, sameSnapshots]
  apply MemoryBook.putSnapshots_of_kept
  intro snapshot isKept
  exact book.get?_putSnapshots_of_mem
    (nodup_snapshotKeys office book answers date distinct) isKept

end Snapshots

/-! ## The run -/

section Runs

variable
  {office : Office World}
  (book : MemoryBook)
  {answers : AssetClass → String → PriceAnswer}
  (date : Date)
  {start world : World}

/-- A user whose ledger is accepted is recorded, and any other one is passed
over. -/
theorem recordUser_outcome
    (steady : office.Steady start answers)
    (reached : Reached office start world)
    (user : String) :
    ∃ after result,
      Reached office start after ∧
        Services.outcome (office.services.recordUser date user)
            ⟨world, book⟩ =
          (result,
            ⟨after, book.putSnapshots
              (office.snapshotOf? book answers date user).toList⟩) ∧
        result.isOk = (office.snapshotOf? book answers date user).isSome := by
  obtain ⟨after, asOf, reachedAfter, valued⟩ :=
    valuate_outcome book user steady reached
  rw [snapshotOf?_eq office book answers date user asOf]
  cases found : office.valuationOf book answers user asOf with
  | error error =>
      rw [found] at valued
      exact ⟨after, .error error, reachedAfter,
        Services.outcome_bind_error valued _, rfl⟩
  | ok valuation =>
      rw [found] at valued
      exact ⟨after, .ok (), reachedAfter,
        Services.outcome_bind_ok valued _, rfl⟩

theorem recordEach_run
    (steady : office.Steady start answers)
    (reached : Reached office start world)
    (users : List String) :
    ∃ after,
      Reached office start after ∧
        (office.services.recordEach date users).run ⟨world, book⟩ =
          ((users.filterMap (office.snapshotOf? book answers date)).length,
            ⟨after, book.putSnapshots
              (users.filterMap (office.snapshotOf? book answers date))⟩) := by
  induction users generalizing world book with
  | nil => exact ⟨world, reached, rfl⟩
  | cons user rest inductionHypothesis =>
      obtain ⟨next, result, reachedNext, recorded, isRecorded⟩ :=
        recordUser_outcome book date steady reached user
      obtain ⟨after, reachedAfter, others⟩ := inductionHypothesis
        (book.putSnapshots
          (office.snapshotOf? book answers date user).toList)
        reachedNext
      refine ⟨after, reachedAfter, ?_⟩
      rw [Services.recordEach_cons_run, recorded]
      dsimp only
      rw [others, isRecorded, snapshotOf?_putSnapshots, List.filterMap_cons]
      cases office.snapshotOf? book answers date user with
      | none =>
          rw [Option.isSome_none, if_neg Bool.false_ne_true, zero_add]
          rfl
      | some snapshot =>
          rw [Option.isSome_some, if_pos rfl, add_comm]
          rfl

/-- The run of a day keeps the snapshots of all users. -/
theorem recordDay_outcome
    (steady : office.Steady start answers)
    (reached : Reached office start world) :
    ∃ after,
      Reached office start after ∧
        Services.outcome (office.services.recordDay date) ⟨world, book⟩ =
          (.ok (book.users.countP book.replays),
            ⟨after, office.recordedBook book answers date⟩) := by
  obtain ⟨after, reachedAfter, recorded⟩ :=
    recordEach_run book date steady reached book.users
  refine ⟨after, reachedAfter, ?_⟩
  have listed :
      Services.outcome
          (Services.during .listUsers office.services.book.users)
          ⟨world, book⟩ =
        (.ok book.users, ⟨world, book⟩) :=
    rfl
  rw [Services.recordDay, Services.outcome_bind_ok listed,
    Services.outcome_lift, recorded,
    ← length_snapshotsOf office book answers date]
  rfl

/-- A second run counts the same users, and keeps what is kept already. -/
theorem recordDay_outcome_again
    (steady : office.Steady start answers)
    (reached : Reached office start world)
    (distinct : book.users.Nodup) :
    ∃ after,
      Services.outcome (office.services.recordDay date)
          ⟨world, office.recordedBook book answers date⟩ =
        (.ok (book.users.countP book.replays),
          ⟨after, office.recordedBook book answers date⟩) := by
  obtain ⟨after, -, again⟩ := recordDay_outcome
    (office.recordedBook book answers date) date steady reached
  rw [recordedBook_recordedBook office book answers date distinct] at again
  refine ⟨after, again.trans ?_⟩
  unfold recordedBook
  rw [MemoryBook.users_putSnapshots, MemoryBook.replays_putSnapshots]

end Runs

/--
What a daily run leaves behind: for each user whose ledger is accepted a snapshot
of the total that the user has, whichever snapshots are kept and whenever it is
asked for, and all else as it was.
-/
structure DayRecorded
    (office : Office World)
    (start : World)
    (book : MemoryBook)
    (date : Date)
    (after : State World) :
    Prop where
  reached : Reached office start after.world
  book_eq : after.book = { book with snapshots := after.book.snapshots }
  recorded :
    ∀ user ∈ book.users,
      book.replays user →
        ∀ world snapshots,
          Reached office start world →
            ∃ valuation,
              (Services.outcome (office.services.valuate user)
                    ⟨world, { book with snapshots }⟩).1 =
                  .ok valuation ∧
                after.book.snapshots.get? (user, date) =
                  some (snapshotOf date user valuation)
  others :
    ∀ user day,
      ¬ (day = date ∧ user ∈ book.users ∧ book.replays user) →
        after.book.snapshots.get? (user, day) =
          book.snapshots.get? (user, day)

/-- The book with the snapshots of all users records the day. -/
theorem dayRecorded_recordedBook
    {office : Office World}
    {start world : World}
    {answers : AssetClass → String → PriceAnswer}
    (steady : office.Steady start answers)
    (reached : Reached office start world)
    {book : MemoryBook}
    (distinct : book.users.Nodup)
    (date : Date) :
    DayRecorded office start book date
      ⟨world, office.recordedBook book answers date⟩ where
  reached :=
    reached
  book_eq :=
    book.putSnapshots_eq _
  recorded user isListed replays current snapshots reachedCurrent := by
    obtain ⟨later, asOf, -, valued⟩ := valuate_outcome
      { book with snapshots } user steady reachedCurrent
    obtain ⟨snapshot, isSnapshot⟩ :
        ∃ snapshot,
          office.snapshotOf? book answers date user = some snapshot := by
      rw [← Option.isSome_iff_exists, isSome_snapshotOf?]
      exact replays
    have isKept : snapshot ∈ office.snapshotsOf book answers date :=
      List.mem_filterMap.mpr ⟨user, isListed, isSnapshot⟩
    have found := book.get?_putSnapshots_of_mem
      (nodup_snapshotKeys office book answers date distinct) isKept
    rw [snapshotKey_of_snapshotOf? _ _ _ _ isSnapshot] at found
    -- the total does not depend on the snapshots that are kept
    have sameTotal :
        office.valuationOf { book with snapshots } answers user asOf =
          office.valuationOf book answers user asOf :=
      rfl
    rw [snapshotOf?_eq office book answers date user asOf] at isSnapshot
    rw [valued, sameTotal]
    cases valuedHere : office.valuationOf book answers user asOf with
    | error error =>
        rw [valuedHere] at isSnapshot
        cases isSnapshot
    | ok valuation =>
        rw [valuedHere] at isSnapshot
        cases isSnapshot
        exact ⟨valuation, rfl, found⟩
  others user day isOther :=
    book.get?_putSnapshots_of_not_mem
      (mt (mem_snapshotKeys office book answers date).mp isOther)

/--
The daily run on a book in memory, while prices are steady.  It answers how many
ledgers of listed users are accepted, keeps their snapshots and changes nothing
else.  A second run answers the same and changes nothing at all.  Whoever has a
profile, a trade or an account is listed, and everyone is listed once.
-/
theorem daily_run_records_each_user
    {office : Office World}
    {start : World}
    {answers : AssetClass → String → PriceAnswer}
    (steady : office.Steady start answers)
    (updates : List MemoryBook.Update)
    (date : Date) :
    (∀ user,
        (MemoryBook.ofUpdates updates).Concerns user →
          user ∈ (MemoryBook.ofUpdates updates).users) ∧
      (MemoryBook.ofUpdates updates).users.Nodup ∧
      ∃ after,
        Services.outcome (office.services.recordDay date)
            ⟨start, MemoryBook.ofUpdates updates⟩ =
          (.ok ((MemoryBook.ofUpdates updates).users.countP
            (MemoryBook.ofUpdates updates).replays), after) ∧
        DayRecorded office start (MemoryBook.ofUpdates updates) date after ∧
        ∃ last,
          Services.outcome (office.services.recordDay date) after =
            (.ok ((MemoryBook.ofUpdates updates).users.countP
              (MemoryBook.ofUpdates updates).replays),
              { after with world := last }) := by
  have complete := MemoryBook.complete_ofUpdates updates
  have distinct := complete.nodup_users
  obtain ⟨world, reached, recorded⟩ :=
    recordDay_outcome (MemoryBook.ofUpdates updates) date steady .start
  exact ⟨fun user => complete.mem_users, distinct, _, recorded,
    dayRecorded_recordedBook steady reached distinct date,
    recordDay_outcome_again _ date steady reached distinct⟩

/-! ## A refused ledger among others -/

/-- An office in a world that counts what is asked of it. -/
def countingOffice :
    Office Nat where
  prices :=
    { name := "sample"
      price assetClass symbol := do
        modify (· + 1)
        return Appraisal.shareAnswer "down" assetClass symbol }
  clock :=
    ⟨do modify (· + 1); return .epoch⟩
  rateBook :=
    RateBook.empty.upsert "twd" "usd" (Ledger.sampleDecimal 3125 5) .epoch
  defaultCurrency :=
    "TWD"

theorem steady_countingOffice :
    countingOffice.Steady 0 (Appraisal.shareAnswer "down") :=
  fun _ _ _ _ => rfl

/-- A sale of what has never been bought. -/
def shortSale :
    Trade :=
  { Ledger.sampleTrade .sell .stock "AAPL" .one .one 1 with
    userId := "w" }

/-- The day that is recorded. -/
def recordedDay :
    Date :=
  Instant.epoch.date

/-- A user with shares, one with a currency only, and one whose ledger is refused
and who has a snapshot of the day. -/
def sampleUpdates :
    List MemoryBook.Update :=
  [.appendTrades (shortSale :: Ledger.spanningSale),
    .setDisplayCurrency "idle" " usd",
    .putSnapshot ⟨"w", recordedDay, .one, "TWD"⟩]

private theorem positions_shortSale :
    (Ledger.positions [shortSale]).isOk = false := by
  have keys : Ledger.keys [shortSale] = [⟨.stock, "AAPL", "USD"⟩] := by
    cbv
  have group :
      Ledger.group [shortSale] ⟨.stock, "AAPL", "USD"⟩ =
        [⟨0, shortSale⟩] := by
    cbv
  have replay :
      Ledger.replay (.empty ⟨.stock, "AAPL", "USD"⟩) [⟨0, shortSale⟩] =
        .error (.insufficientHolding ⟨.stock, "AAPL", "USD"⟩ .one .zero
          .one) := by
    decide +kernel
  rw [Ledger.positions, Ledger.allPositions, keys]
  simp only [List.mapM_cons, group, replay]
  rfl

private theorem tradesOf_sampleUpdates :
    (MemoryBook.ofUpdates sampleUpdates).tradesOf "idle" = [] ∧
      (MemoryBook.ofUpdates sampleUpdates).tradesOf "u" =
        Ledger.spanningSale ∧
      (MemoryBook.ofUpdates sampleUpdates).tradesOf "w" = [shortSale] := by
  decide +kernel

private theorem replays_sampleUpdates :
    (MemoryBook.ofUpdates sampleUpdates).replays "idle" = true ∧
      (MemoryBook.ofUpdates sampleUpdates).replays "u" = true ∧
      (MemoryBook.ofUpdates sampleUpdates).replays "w" = false := by
  obtain ⟨idle, held, short⟩ := tradesOf_sampleUpdates
  unfold MemoryBook.replays
  rw [idle, held, short, positions_shortSale, Ledger.positions_spanningSale]
  exact ⟨by cbv, rfl, rfl⟩

/-- Two of three users are recorded; the third one keeps the old snapshot. -/
theorem daily_run_records_each_user_of_three :
    countingOffice.Steady 0 (Appraisal.shareAnswer "down") ∧
      ∃ after,
        Services.outcome (countingOffice.services.recordDay recordedDay)
            ⟨0, MemoryBook.ofUpdates sampleUpdates⟩ =
          (.ok 2, after) ∧
        (∃ valuation,
          (Services.outcome (countingOffice.services.valuate "u") after).1 =
              .ok valuation ∧
            after.book.snapshots.get? ("u", recordedDay) =
              some (snapshotOf recordedDay "u" valuation)) ∧
        after.book.snapshots.get? ("w", recordedDay) =
          some ⟨"w", recordedDay, .one, "TWD"⟩ := by
  obtain ⟨idle, held, short⟩ := replays_sampleUpdates
  have users :
      (MemoryBook.ofUpdates sampleUpdates).users = ["idle", "u", "w"] := by
    decide +kernel
  have kept :
      (MemoryBook.ofUpdates sampleUpdates).snapshots.get?
          ("w", recordedDay) =
        some ⟨"w", recordedDay, .one, "TWD"⟩ := by
    decide +kernel
  obtain ⟨-, -, after, recorded, day, -⟩ :=
    daily_run_records_each_user steady_countingOffice sampleUpdates
      recordedDay
  refine ⟨steady_countingOffice, after, ?_, ?_, ?_⟩
  · rw [recorded, users]
    simp [idle, held, short]
  · have listed : "u" ∈ (MemoryBook.ofUpdates sampleUpdates).users := by
      simp [users]
    have recordedUser := day.recorded "u" listed held after.world
      after.book.snapshots day.reached
    rw [← day.book_eq] at recordedUser
    exact recordedUser
  · rw [day.others "w" recordedDay (by simp [short]), kept]

end Office

end NetWorth
