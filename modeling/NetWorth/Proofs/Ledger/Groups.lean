import Mathlib
import NetWorth.Ledger.Replay
import NetWorth.Proofs.Decimal.Value

/-!
# The groups of a ledger

The keys of a ledger come strictly ascending in a lawful order, a group holds
exactly the entries with its key, and the positions of a ledger are determined
by replaying each group on its own: the ledger fails with the first group that
fails, and otherwise the open positions are those of the groups.
-/

namespace NetWorth

namespace Position

@[simp] theorem named_key
    (position : Position)
    (tickerName : String) :
    (position.named tickerName).key = position.key := by
  unfold named
  split <;> rfl

@[simp] theorem settle_key
    (position : Position)
    (balance : Balance) :
    (position.settle balance).key = position.key := by
  unfold settle
  split <;> rfl

/-- A position that accepts a trade takes over the balance after it. -/
theorem apply_eq_ok
    {position next : Position}
    {sequence : Nat}
    {trade : Trade} :
    position.apply sequence trade = .ok next ↔
      ∃ balance,
        position.afterTrade sequence trade = .ok balance ∧
          (position.settle balance).named trade.tickerName = next := by
  unfold apply
  cases position.afterTrade sequence trade with
  | error error =>
      simp
  | ok balance =>
      simp

/-- A trade leaves the key of its position alone. -/
theorem apply_key
    {position next : Position}
    {sequence : Nat}
    {trade : Trade}
    (applied : position.apply sequence trade = .ok next) :
    next.key = position.key := by
  obtain ⟨balance, -, rfl⟩ := apply_eq_ok.mp applied
  rw [named_key, settle_key]

end Position

namespace GroupKey

/-- Keys are compared by class, then by ticker, then by currency. -/
private theorem compare_eq_compareLex :
    (compare : GroupKey → GroupKey → Ordering) =
      compareLex (compareOn fun key => key.assetClass.rank)
        (compareLex (compareOn fun key => key.ticker)
          (compareOn fun key => key.currency)) :=
  rfl

instance : Std.TransOrd GroupKey := by
  rw [Std.TransOrd, compare_eq_compareLex]
  infer_instance

instance : Std.LawfulEqOrd GroupKey where
  eq_of_compare := by
    intro first second same
    obtain ⟨sameClass, others⟩ := Ordering.then_eq_eq.mp same
    obtain ⟨sameTicker, sameCurrency⟩ := Ordering.then_eq_eq.mp others
    have classEq : first.assetClass = second.assetClass := by
      have ranks := Std.LawfulEqOrd.eq_of_compare sameClass
      revert ranks
      cases first.assetClass <;> cases second.assetClass <;> decide
    cases first
    cases second
    simp only at classEq
    rw [mk.injEq]
    exact ⟨classEq, Std.LawfulEqOrd.eq_of_compare sameTicker,
      Std.LawfulEqOrd.eq_of_compare sameCurrency⟩

theorem mem_sortDistinct
    {keys : List GroupKey}
    {key : GroupKey} :
    key ∈ sortDistinct keys ↔ key ∈ keys := by
  simp [sortDistinct]

/-- Each key is kept once. -/
private theorem nodup_eraseDups
    (keys : List GroupKey) :
    keys.eraseDups.Nodup := by
  induction lengthEq : keys.length using Nat.strong_induction_on
    generalizing keys with
  | _ count inductionHypothesis =>
      cases keys with
      | nil =>
          exact List.nodup_nil
      | cons key rest =>
          have shorter :
              (rest.filter fun other => !other == key).length < count := by
            rw [← lengthEq]
            exact Nat.lt_succ_of_le (List.length_filter_le _ _)
          rw [List.eraseDups_cons, List.nodup_cons]
          exact ⟨by simp, inductionHypothesis _ shorter _ rfl⟩

theorem nodup_sortDistinct
    (keys : List GroupKey) :
    (sortDistinct keys).Nodup :=
  (List.mergeSort_perm _ _).nodup_iff.mpr (nodup_eraseDups keys)

theorem le_trans
    (first second third : GroupKey)
    (firstLe : first.le second)
    (secondLe : second.le third) :
    first.le third :=
  Std.TransOrd.isLE_trans firstLe secondLe

theorem le_total
    (first second : GroupKey) :
    first.le second || second.le first := by
  unfold le
  rw [Std.OrientedOrd.eq_swap (a := second)]
  cases compare first second <;> rfl

/-- Different keys come in one order only. -/
theorem le_antisymm
    {first second : GroupKey}
    (firstLe : first.le second)
    (secondLe : second.le first) :
    first = second := by
  unfold le at firstLe secondLe
  rw [Std.OrientedOrd.eq_swap (a := second)] at secondLe
  cases order : compare first second with
  | eq =>
      exact Std.LawfulEqOrd.eq_of_compare order
  | lt =>
      rw [order] at secondLe
      cases secondLe
  | gt =>
      rw [order] at firstLe
      cases firstLe

/-- The keys come strictly ascending. -/
theorem pairwise_sortDistinct
    (keys : List GroupKey) :
    (sortDistinct keys).Pairwise
      fun first second => compare first second = .lt := by
  have sorted := List.pairwise_mergeSort le_trans le_total keys.eraseDups
  apply (sorted.and (nodup_sortDistinct keys)).imp
  rintro first second ⟨firstLe, different⟩
  cases order : compare first second with
  | lt =>
      rfl
  | eq =>
      exact absurd (Std.LawfulEqOrd.eq_of_compare order) different
  | gt =>
      simp [le, order] at firstLe

/-- The different keys depend on which keys there are only. -/
theorem sortDistinct_congr
    {first second : List GroupKey}
    (sameMembers : ∀ key, key ∈ first ↔ key ∈ second) :
    sortDistinct first = sortDistinct second := by
  have asymm
      (key other : GroupKey)
      (_ : key ∈ sortDistinct first)
      (_ : other ∈ sortDistinct second)
      (smaller : compare key other = .lt)
      (larger : compare other key = .lt) :
      key = other := by
    rw [Std.OrientedOrd.eq_swap, larger] at smaller
    cases smaller
  apply List.Perm.eq_of_pairwise asymm (pairwise_sortDistinct first)
    (pairwise_sortDistinct second)
  rw [List.perm_ext_iff_of_nodup (nodup_sortDistinct first)
    (nodup_sortDistinct second)]
  intro key
  rw [mem_sortDistinct, mem_sortDistinct, sameMembers]

end GroupKey

namespace Ledger

/-! ## Groups -/

/-- An entry is a trade of the ledger with its place. -/
theorem mem_entries
    {trades : List Trade}
    {entry : Entry} :
    entry ∈ entries trades ↔ trades[entry.sequence]? = some entry.trade := by
  constructor
  · intro member
    obtain ⟨⟨trade, place⟩, found, rfl⟩ := List.mem_map.mp member
    exact List.mem_zipIdx_iff_getElem?.mp found
  · intro found
    exact List.mem_map.mpr
      ⟨(entry.trade, entry.sequence),
        List.mem_zipIdx_iff_getElem?.mpr found, rfl⟩

/-- A group holds the entries with its key. -/
theorem mem_group
    {trades : List Trade}
    {key : GroupKey}
    {entry : Entry} :
    entry ∈ group trades key ↔
      trades[entry.sequence]? = some entry.trade ∧
        GroupKey.ofTrade entry.trade = key := by
  rw [group, List.mem_mergeSort, List.mem_filter, mem_entries, beq_iff_eq]

/-- Every trade of a ledger is in the group with its key. -/
theorem exists_mem_group
    {trades : List Trade}
    {trade : Trade}
    (member : trade ∈ trades) :
    ∃ entry ∈ group trades (GroupKey.ofTrade trade),
      entry.trade = trade := by
  obtain ⟨place, found⟩ := List.mem_iff_getElem?.mp member
  exact ⟨⟨place, trade⟩, mem_group.mpr ⟨found, rfl⟩, rfl⟩

theorem mem_keys
    {trades : List Trade}
    {key : GroupKey} :
    key ∈ keys trades ↔ ∃ trade ∈ trades, GroupKey.ofTrade trade = key := by
  rw [keys, GroupKey.mem_sortDistinct, List.mem_map]

/-- A key without trades has an empty group. -/
theorem group_eq_nil
    {trades : List Trade}
    {key : GroupKey}
    (missing : key ∉ keys trades) :
    group trades key = [] := by
  apply List.eq_nil_iff_forall_not_mem.mpr
  intro entry member
  obtain ⟨found, sameKey⟩ := mem_group.mp member
  exact missing
    (mem_keys.mpr ⟨entry.trade, List.mem_of_getElem? found, sameKey⟩)

/-! ## Replaying the groups -/

@[simp] theorem replay_nil
    (start : Position) :
    replay start [] = .ok start :=
  rfl

theorem replay_cons
    (start : Position)
    (entry : Entry)
    (rest : List Entry) :
    replay start (entry :: rest) =
      (start.apply entry.sequence entry.trade).bind
        fun next => replay next rest := by
  rw [replay, List.foldlM_cons]
  rfl

/-- A history replays if its first entry does and the rest after it. -/
theorem replay_cons_eq_ok
    {start final : Position}
    {entry : Entry}
    {rest : List Entry} :
    replay start (entry :: rest) = .ok final ↔
      ∃ next,
        start.apply entry.sequence entry.trade = .ok next ∧
          replay next rest = .ok final := by
  rw [replay_cons]
  cases start.apply entry.sequence entry.trade with
  | error error =>
      simp [Except.bind]
  | ok next =>
      simp [Except.bind]

theorem replay_key
    {start final : Position}
    {entries : List Entry}
    (replays : replay start entries = .ok final) :
    final.key = start.key := by
  induction entries generalizing start with
  | nil =>
      rw [replay_nil, Except.ok.injEq] at replays
      rw [replays]
  | cons entry rest inductionHypothesis =>
      obtain ⟨next, applied, restReplays⟩ := replay_cons_eq_ok.mp replays
      exact (inductionHypothesis restReplays).trans
        (Position.apply_key applied)

/-- What replaying one group on its own gives. -/
def replayed
    (trades : List Trade)
    (key : GroupKey) :
    Except LedgerError Position :=
  replay (.empty key) (group trades key)

theorem replayed_of_not_mem_keys
    {trades : List Trade}
    {key : GroupKey}
    (missing : key ∉ keys trades) :
    replayed trades key = .ok (.empty key) := by
  rw [replayed, group_eq_nil missing]
  rfl

theorem replayed_key
    {trades : List Trade}
    {key : GroupKey}
    {position : Position}
    (replays : replayed trades key = .ok position) :
    position.key = key :=
  replay_key replays

/-- Replaying group after group stops at the first group that fails. -/
private theorem mapM_replayed_cases
    (trades : List Trade)
    (groupKeys : List GroupKey) :
    (∃ all,
      groupKeys.mapM (replayed trades) = .ok all ∧
        all.map (·.key) = groupKeys ∧
        ∀ position ∈ all,
          replayed trades position.key = .ok position) ∨
    (∃ error earlier key later,
      groupKeys.mapM (replayed trades) = .error error ∧
        groupKeys = earlier ++ key :: later ∧
        replayed trades key = .error error ∧
        ∀ other ∈ earlier,
          ∃ position, replayed trades other = .ok position) := by
  induction groupKeys with
  | nil =>
      exact .inl ⟨[], rfl, rfl, by simp⟩
  | cons key rest inductionHypothesis =>
      rw [List.mapM_cons]
      cases head : replayed trades key with
      | error error =>
          exact .inr ⟨error, [], key, rest, rfl, rfl, head, by simp⟩
      | ok position =>
          have positionKey := replayed_key head
          rcases inductionHypothesis with
              ⟨all, mapped, allKeys, replays⟩ |
              ⟨error, earlier, failing, later, mapped, split, failed,
                replays⟩
          · refine .inl ⟨position :: all, ?_, ?_, ?_⟩
            · rw [mapped]
              rfl
            · rw [List.map_cons, allKeys, positionKey]
            · intro other member
              rcases List.mem_cons.mp member with isHead | inRest
              · rw [isHead, positionKey]
                exact head
              · exact replays other inRest
          · refine .inr ⟨error, key :: earlier, failing, later, ?_, ?_,
              failed, ?_⟩
            · rw [mapped]
              rfl
            · rw [split]
              rfl
            · intro other member
              rcases List.mem_cons.mp member with isHead | inEarlier
              · subst other
                exact ⟨position, head⟩
              · exact replays other inEarlier

private theorem positions_eq_map
    (trades : List Trade) :
    positions trades =
      ((keys trades).mapM (replayed trades)).map
        (·.filter (·.quantity.IsPositive)) :=
  rfl

section Accepted

variable {trades : List Trade} {found : List Position}

private theorem exists_all_positions
    (accepted : positions trades = .ok found) :
    ∃ all : List Position,
      found = all.filter (·.quantity.IsPositive) ∧
        all.map (·.key) = keys trades ∧
        ∀ position ∈ all,
          replayed trades position.key = .ok position := by
  rw [positions_eq_map] at accepted
  rcases mapM_replayed_cases trades (keys trades) with
      ⟨all, mapped, allKeys, replays⟩ |
      ⟨error, earlier, failing, later, mapped, others⟩
  · rw [mapped] at accepted
    injection accepted with isFiltered
    exact ⟨all, isFiltered.symm, allKeys, replays⟩
  · rw [mapped] at accepted
    cases accepted

/-- In an accepted ledger every group replays. -/
theorem exists_replayed
    (accepted : positions trades = .ok found)
    (key : GroupKey) :
    ∃ position, replayed trades key = .ok position := by
  obtain ⟨all, -, allKeys, replays⟩ := exists_all_positions accepted
  by_cases isKey : key ∈ keys trades
  · rw [← allKeys] at isKey
    obtain ⟨position, member, rfl⟩ := List.mem_map.mp isKey
    exact ⟨position, replays position member⟩
  · exact ⟨.empty key, replayed_of_not_mem_keys isKey⟩

/-- The open positions of a ledger are those of its groups. -/
theorem mem_positions
    (accepted : positions trades = .ok found)
    {position : Position} :
    position ∈ found ↔
      replayed trades position.key = .ok position ∧
        position.quantity.IsPositive := by
  obtain ⟨all, rfl, allKeys, replays⟩ := exists_all_positions accepted
  rw [List.mem_filter, decide_eq_true_eq]
  refine and_congr_left fun isPositive => ⟨replays position, ?_⟩
  intro isReplayed
  have isKey : position.key ∈ all.map (·.key) := by
    by_contra missing
    rw [allKeys] at missing
    rw [replayed_of_not_mem_keys missing, Except.ok.injEq] at isReplayed
    rw [← isReplayed] at isPositive
    exact Decimal.not_isPositive_zero isPositive
  obtain ⟨other, member, sameKey⟩ := List.mem_map.mp isKey
  have sameReplay := replays other member
  rw [sameKey, isReplayed, Except.ok.injEq] at sameReplay
  rw [sameReplay]
  exact member

/-- No two open positions have one key. -/
theorem nodup_positions_keys
    (accepted : positions trades = .ok found) :
    (found.map (·.key)).Nodup := by
  obtain ⟨all, rfl, allKeys, -⟩ := exists_all_positions accepted
  apply List.Nodup.sublist (List.filter_sublist.map _)
  rw [allKeys]
  exact GroupKey.nodup_sortDistinct _

end Accepted

/-- A ledger is accepted if every group replays. -/
theorem exists_positions
    {trades : List Trade}
    (replays : ∀ key, ∃ position, replayed trades key = .ok position) :
    ∃ found, positions trades = .ok found := by
  rw [positions_eq_map]
  rcases mapM_replayed_cases trades (keys trades) with
      ⟨all, mapped, -⟩ |
      ⟨error, earlier, failing, later, mapped, split, failed, others⟩
  · rw [mapped]
    exact ⟨_, rfl⟩
  · obtain ⟨position, replay⟩ := replays failing
    rw [replay] at failed
    cases failed

/-- A ledger fails as the smallest of its failing groups does. -/
theorem positions_eq_error
    {trades : List Trade}
    {error : LedgerError}
    (refused : positions trades = .error error) :
    ∃ key,
      replayed trades key = .error error ∧
        ∀ other, compare other key = .lt →
          ∃ position, replayed trades other = .ok position := by
  rw [positions_eq_map] at refused
  rcases mapM_replayed_cases trades (keys trades) with
      ⟨all, mapped, others⟩ |
      ⟨first, earlier, key, later, mapped, split, failed, replays⟩
  · rw [mapped] at refused
    cases refused
  rw [mapped] at refused
  injection refused with sameError
  subst sameError
  refine ⟨key, failed, fun other smaller => ?_⟩
  -- a smaller key is one that was replayed before, or it has no trades
  by_cases isKey : other ∈ keys trades
  case neg =>
    exact ⟨.empty other, replayed_of_not_mem_keys isKey⟩
  have ascending := GroupKey.pairwise_sortDistinct
    (trades.map GroupKey.ofTrade)
  change (keys trades).Pairwise _ at ascending
  rw [split] at isKey ascending
  rcases List.mem_append.mp isKey with inEarlier | notEarlier
  · exact replays other inEarlier
  rcases List.mem_cons.mp notEarlier with isSame | inLater
  · subst other
    rw [Std.ReflOrd.compare_self] at smaller
    cases smaller
  · have larger : compare key other = .lt :=
      (List.pairwise_cons.mp (List.pairwise_append.mp ascending).2.1).1
        other inLater
    rw [Std.OrientedOrd.eq_swap, larger] at smaller
    cases smaller

end Ledger

end NetWorth
