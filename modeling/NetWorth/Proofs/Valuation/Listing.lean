import Mathlib
import NetWorth.Proofs.Holding.Isolation
import NetWorth.Valuation.Fold

/-!
# Totals of holdings in any order

Holdings are put to a total in the order of their keys.  Holdings with different
keys have one such order, so it makes no difference to a total in which order
they are listed: neither to its sum, which may be rounded, nor to what is left
out when the sum runs out of range.
-/

namespace NetWorth.Valuation

/-! ## Sorted holdings -/

theorem perm_sortHoldings
    (holdings : List Holding) :
    (sortHoldings holdings).Perm holdings :=
  List.mergeSort_perm _ _

/-- Holdings are sorted by their keys. -/
theorem pairwise_sortHoldings
    (holdings : List Holding) :
    (sortHoldings holdings).Pairwise fun first second =>
      first.key.le second.key := by
  apply List.pairwise_mergeSort
  · intro first second third
    exact GroupKey.le_trans first.key second.key third.key
  · intro first second
    exact GroupKey.le_total first.key second.key

/-- Holdings with different keys are sorted into one list. -/
theorem sortHoldings_eq_of_perm
    {first second : List Holding}
    (distinct : (first.map Holding.key).Nodup)
    (relisted : first.Perm second) :
    sortHoldings first = sortHoldings second := by
  have sameMembers : (sortHoldings first).Perm (sortHoldings second) :=
    (perm_sortHoldings first).trans
      (relisted.trans (perm_sortHoldings second).symm)
  apply sameMembers.eq_of_pairwise
  · intro holding other member otherMember holdingLe otherLe
    have sameKey : holding.key = other.key :=
      GroupKey.le_antisymm holdingLe otherLe
    apply List.inj_on_of_nodup_map distinct _ _ sameKey
    · exact (perm_sortHoldings first).mem_iff.mp member
    · exact relisted.mem_iff.mpr
        ((perm_sortHoldings second).mem_iff.mp otherMember)
  · exact pairwise_sortHoldings first
  · exact pairwise_sortHoldings second

/--
A total does not depend on the order in which holdings are listed, wherever
their keys are different.  This is so for the holdings of every ledger.
-/
theorem total_of_any_listing
    (userId : String)
    (accounts : List Account)
    (rates : RateTable)
    (asOf : Instant) :
    (∀ first second : List Holding,
      (first.map Holding.key).Nodup →
        first.Perm second →
          fold userId first accounts rates asOf =
            fold userId second accounts rates asOf) ∧
      ∀ (World : Type) (appraisal : Appraisal World)
        (holdings : Table GroupKey Holding),
        appraisal.run.1 = .ok holdings →
          (holdings.values.map Holding.key).Nodup := by
  constructor
  · intro first second distinct relisted
    have sameOrder := sortHoldings_eq_of_perm distinct relisted
    simp only [fold, sameOrder]
  · intro World appraisal holdings valued
    rw [Appraisal.map_key_of_valued valued]
    exact holdings.nodup

/-- A holding in dollars that is worth more than half of the largest decimal. -/
def hugeHolding
    (ticker : String) :
    Holding where
  ticker :=
    ticker
  tickerName :=
    ""
  assetClass :=
    .stock
  currency :=
    "USD"
  quantity :=
    .one
  averageCost :=
    .one
  totalCost :=
    .one
  currentPrice :=
    .one
  totalValue :=
    Ledger.sampleDecimal 50_000_000_000_000_000_000_000_000_000 0
  displayValue :=
    none
  gainLoss :=
    .zero
  gainLossPercentage :=
    .zero

/-- Of two holdings of which one leaves no room for the other, it is the one
with the smaller key that is counted, in either order. -/
theorem total_of_any_listing_hugeHoldings :
    ([hugeHolding "BBB", hugeHolding "AAA"].map Holding.key).Nodup ∧
      fold "u" [hugeHolding "BBB", hugeHolding "AAA"] [] (.empty "USD")
          .epoch =
        fold "u" [hugeHolding "AAA", hugeHolding "BBB"] [] (.empty "USD")
          .epoch ∧
      (fold "u" [hugeHolding "AAA", hugeHolding "BBB"] [] (.empty "USD")
          .epoch).skipped.map (·.label) = ["stock_BBB_USD"] ∧
      ∃ holdings,
        Appraisal.among.run.1 = .ok holdings ∧
          (holdings.values.map Holding.key).Nodup := by
  have distinct :
      ([hugeHolding "BBB", hugeHolding "AAA"].map Holding.key).Nodup := by
    decide +kernel
  obtain ⟨sameTotal, differentKeys⟩ :=
    total_of_any_listing "u" [] (.empty "USD") .epoch
  refine ⟨distinct, sameTotal _ _ distinct (.swap _ _ _), ?_, _,
    Appraisal.among_run.1, differentKeys _ _ _ Appraisal.among_run.1⟩
  cbv

end NetWorth.Valuation
