import Mathlib
import NetWorth.Proofs.Ledger.Groups

/-!
# The order of a group

A group is sorted by date, and on one day its entries keep their places in the
ledger.  So a group is the one list of its entries that is in this order.
-/

namespace NetWorth

namespace Date

theorem le_def
    {first second : Date} :
    first ≤ second ↔ first.day ≤ second.day :=
  Iff.rfl

theorem lt_def
    {first second : Date} :
    first < second ↔ first.day < second.day :=
  Iff.rfl

theorem day_injective :
    Function.Injective Date.day := by
  rintro ⟨day, _, _⟩ ⟨other, _, _⟩ rfl
  rfl

end Date

/-- One entry is replayed before another: on an earlier day, or on the same day
from an earlier place. -/
def Entry.Before
    (first second : Entry) :
    Prop :=
  first.trade.date < second.trade.date ∨
    first.trade.date = second.trade.date ∧
      first.sequence < second.sequence

theorem Entry.Before.asymm
    {first second : Entry}
    (before : first.Before second) :
    ¬ second.Before first := by
  rcases before with earlierDay | ⟨sameDay, earlierPlace⟩
  · rw [Date.lt_def] at earlierDay
    rintro (laterDay | ⟨sameDay, -⟩)
    · rw [Date.lt_def] at laterDay
      omega
    · rw [sameDay] at earlierDay
      exact lt_irrefl _ earlierDay
  · rintro (laterDay | ⟨-, laterPlace⟩)
    · rw [sameDay, Date.lt_def] at laterDay
      exact lt_irrefl _ laterDay
    · omega

namespace Ledger

/-- Entries that are in order are determined by their members. -/
theorem eq_of_pairwise_before
    {first second : List Entry}
    (firstOrdered : first.Pairwise Entry.Before)
    (secondOrdered : second.Pairwise Entry.Before)
    (sameMembers : ∀ entry, entry ∈ first ↔ entry ∈ second) :
    first = second := by
  have nodup
      {entries : List Entry}
      (ordered : entries.Pairwise Entry.Before) :
      entries.Nodup := by
    apply ordered.imp
    rintro entry other before rfl
    exact before.asymm before
  apply List.Perm.eq_of_pairwise
    (fun _ _ _ _ before after => absurd after before.asymm)
    firstOrdered secondOrdered
  exact (List.perm_ext_iff_of_nodup (nodup firstOrdered)
    (nodup secondOrdered)).mpr sameMembers

/-- The entries of a ledger come in order of their places. -/
theorem pairwise_entries
    (trades : List Trade) :
    (entries trades).Pairwise fun first second =>
      first.sequence < second.sequence := by
  rw [entries, List.pairwise_map, ← List.pairwise_map (f := Prod.snd),
    List.zipIdx_map_snd]
  exact List.pairwise_lt_range'

section Sorted

variable (trades : List Trade) (key : GroupKey)

/-- The entries of a group in order of the ledger. -/
private def listed :
    List Entry :=
  (entries trades).filter fun entry => GroupKey.ofTrade entry.trade == key

private theorem date_le_trans
    (first second third : Entry)
    (firstLe : decide (first.trade.date ≤ second.trade.date))
    (secondLe : decide (second.trade.date ≤ third.trade.date)) :
    decide (first.trade.date ≤ third.trade.date) := by
  simp only [decide_eq_true_eq, Date.le_def] at *
  exact firstLe.trans secondLe

private theorem date_le_total
    (first second : Entry) :
    decide (first.trade.date ≤ second.trade.date) ||
      decide (second.trade.date ≤ first.trade.date) := by
  simp only [Bool.or_eq_true, decide_eq_true_eq, Date.le_def]
  exact le_total _ _

/-- Sorting leaves the entries of one day as they were. -/
private theorem filter_group_date
    (date : Date) :
    (group trades key).filter (·.trade.date = date) =
      (listed trades key).filter (·.trade.date = date) := by
  have sameDay :
      ((listed trades key).filter (·.trade.date = date)).Pairwise
        fun first second => first.trade.date ≤ second.trade.date := by
    apply List.pairwise_of_forall_mem_list
    intro first firstMember second secondMember
    simp only [List.mem_filter, decide_eq_true_eq] at firstMember secondMember
    rw [firstMember.2, secondMember.2, Date.le_def]
  -- a sorted part survives the sort, and here nothing is added to it
  have kept := List.sublist_mergeSort date_le_trans date_le_total
    (by simpa using sameDay) List.filter_sublist
  symm
  apply List.Sublist.eq_of_length
  · simpa [group, listed] using
      kept.filter (p := fun entry => entry.trade.date = date)
  · exact ((List.mergeSort_perm _ _).filter _).length_eq.symm

/-- A group is in order of date, and on one day of place. -/
theorem pairwise_group :
    (group trades key).Pairwise Entry.Before := by
  have sorted :=
    List.pairwise_mergeSort date_le_trans date_le_total (listed trades key)
  apply List.pairwise_iff_forall_sublist.mpr
  intro first second pair
  have dateLe : first.trade.date ≤ second.trade.date := by
    simpa using List.pairwise_iff_forall_sublist.mp sorted pair
  -- the sort looks at dates only, so one day is in the order of the ledger
  by_cases sameDay : first.trade.date = second.trade.date
  · refine .inr ⟨sameDay, ?_⟩
    have onDay := pair.filter fun entry =>
      entry.trade.date = second.trade.date
    rw [filter_group_date] at onDay
    have inLedger :=
      onDay.trans (List.filter_sublist.trans List.filter_sublist)
    simp only [List.filter_cons, sameDay, decide_true, if_true,
      List.filter_nil] at inLedger
    exact List.pairwise_iff_forall_sublist.mp (pairwise_entries trades)
      inLedger
  · refine .inl ?_
    have differentDays := Date.day_injective.ne sameDay
    rw [Date.le_def] at dateLe
    rw [Date.lt_def]
    omega

end Sorted

end Ledger

end NetWorth
