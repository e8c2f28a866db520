import Mathlib
import NetWorth.Proofs.Ledger.ClosedForm
import NetWorth.Proofs.Ledger.GroupOrder
import NetWorth.Proofs.Ledger.Provenance
import NetWorth.Proofs.Ledger.Renumbering

/-!
# Reordered ledgers

How the trades of different groups and of different days interleave does not
matter.  A ledger in another order has the same positions, with the same lots
at the new places of their purchases, or it is refused with the same error.
-/

namespace NetWorth

/--
A ledger in another order that keeps trades of one group and one day in their
order: `place` says where each trade goes.
-/
structure Reordering
    (trades reordered : List Trade) where
  place : Fin trades.length ≃ Fin reordered.length
  keeps : ∀ source, reordered.get (place source) = trades.get source
  monotone :
    ∀ first second,
      first < second →
      GroupKey.ofTrade (trades.get first) =
        GroupKey.ofTrade (trades.get second) →
      (trades.get first).date = (trades.get second).date →
      place first < place second

namespace Reordering

variable {trades reordered : List Trade}

/-- The new place of a trade, as a number. -/
def rename
    (reordering : Reordering trades reordered)
    (source : Nat) :
    Nat :=
  if bound : source < trades.length then
    reordering.place ⟨source, bound⟩
  else
    source

variable (reordering : Reordering trades reordered)

theorem rename_val
    (source : Fin trades.length) :
    reordering.rename source = reordering.place source :=
  dif_pos source.isLt

/-- A trade is found at its new place. -/
theorem getElem?_rename
    {source : Nat}
    {trade : Trade}
    (found : trades[source]? = some trade) :
    reordered[reordering.rename source]? = some trade := by
  obtain ⟨bound, rfl⟩ := List.getElem?_eq_some_iff.mp found
  rw [rename, dif_pos bound, List.getElem?_eq_getElem (Fin.isLt _)]
  exact congrArg some (reordering.keeps ⟨source, bound⟩)

/-- Every trade comes from a place of the ledger. -/
theorem exists_rename_eq
    {target : Nat}
    {trade : Trade}
    (found : reordered[target]? = some trade) :
    ∃ source,
      trades[source]? = some trade ∧ reordering.rename source = target := by
  obtain ⟨bound, rfl⟩ := List.getElem?_eq_some_iff.mp found
  have kept := reordering.keeps (reordering.place.symm ⟨target, bound⟩)
  rw [Equiv.apply_symm_apply] at kept
  refine ⟨reordering.place.symm ⟨target, bound⟩, ?_, ?_⟩
  · rw [List.getElem?_eq_getElem (Fin.isLt _)]
    exact congrArg some kept.symm
  · rw [rename_val, Equiv.apply_symm_apply]

theorem rename_lt
    {first second : Nat}
    {firstTrade secondTrade : Trade}
    (firstFound : trades[first]? = some firstTrade)
    (secondFound : trades[second]? = some secondTrade)
    (sameKey :
      GroupKey.ofTrade firstTrade = GroupKey.ofTrade secondTrade)
    (sameDay : firstTrade.date = secondTrade.date)
    (before : first < second) :
    reordering.rename first < reordering.rename second := by
  obtain ⟨firstBound, rfl⟩ := List.getElem?_eq_some_iff.mp firstFound
  obtain ⟨secondBound, rfl⟩ := List.getElem?_eq_some_iff.mp secondFound
  rw [rename, dif_pos firstBound, rename, dif_pos secondBound]
  exact reordering.monotone ⟨first, firstBound⟩ ⟨second, secondBound⟩
    before sameKey sameDay

end Reordering

namespace Ledger

variable {trades reordered : List Trade}

section Groups

variable (reordering : Reordering trades reordered)

include reordering

/-- Both ledgers have the same trades. -/
theorem mem_reordered
    {trade : Trade} :
    trade ∈ reordered ↔ trade ∈ trades := by
  simp only [List.mem_iff_getElem?]
  constructor
  · rintro ⟨target, found⟩
    obtain ⟨source, sourceFound, -⟩ := reordering.exists_rename_eq found
    exact ⟨source, sourceFound⟩
  · rintro ⟨source, found⟩
    exact ⟨_, reordering.getElem?_rename found⟩

/-- Both ledgers have the same groups. -/
theorem keys_reordered :
    keys reordered = keys trades := by
  apply GroupKey.sortDistinct_congr
  intro key
  simp only [List.mem_map, mem_reordered reordering]

/-- A group keeps its order; only the places of its entries are new. -/
theorem group_reordered
    (key : GroupKey) :
    group reordered key =
      (group trades key).map (Entry.renumber reordering.rename) := by
  -- both sides are in the order of a group, so their members decide
  apply eq_of_pairwise_before (pairwise_group reordered key)
  · apply List.pairwise_map.mpr
    apply (pairwise_group trades key).imp_of_mem
    intro first second firstMember secondMember before
    obtain ⟨firstFound, firstKey⟩ := mem_group.mp firstMember
    obtain ⟨secondFound, secondKey⟩ := mem_group.mp secondMember
    rcases before with earlierDay | ⟨sameDay, earlierPlace⟩
    · exact .inl earlierDay
    · exact .inr ⟨sameDay, reordering.rename_lt firstFound secondFound
        (firstKey.trans secondKey.symm) sameDay earlierPlace⟩
  · intro entry
    constructor
    · intro member
      obtain ⟨found, entryKey⟩ := mem_group.mp member
      obtain ⟨source, sourceFound, renamed⟩ :=
        reordering.exists_rename_eq found
      refine List.mem_map.mpr
        ⟨⟨source, entry.trade⟩, mem_group.mpr ⟨sourceFound, entryKey⟩, ?_⟩
      rw [Entry.renumber, renamed]
    · intro member
      obtain ⟨source, sourceMember, rfl⟩ := List.mem_map.mp member
      obtain ⟨found, entryKey⟩ := mem_group.mp sourceMember
      exact mem_group.mpr ⟨reordering.getElem?_rename found, entryKey⟩

/-- A group is replayed the same in both ledgers. -/
theorem replayed_reordered
    (key : GroupKey) :
    replayed reordered key =
      (replayed trades key).map
        (Position.renumber reordering.rename) := by
  rw [replayed, group_reordered reordering,
    ← Position.renumber_empty reordering.rename, replay_renumber]
  rfl

end Groups

/-- Collecting results commutes with a change of each result. -/
private theorem mapM_map_result
    {Key Result Error : Type}
    (change : Result → Result)
    (compute : Key → Except Error Result)
    (listed : List Key) :
    (listed.mapM fun key => (compute key).map change) =
      (listed.mapM compute).map (List.map change) := by
  induction listed with
  | nil =>
      rfl
  | cons key rest inductionHypothesis =>
      rw [List.mapM_cons, List.mapM_cons, inductionHypothesis]
      cases compute key with
      | error error =>
          rfl
      | ok first =>
          cases rest.mapM compute <;> rfl

/-- Open positions stay open under other places. -/
private theorem filter_renumber
    (place : Nat → Nat)
    (all : List Position) :
    (all.map (Position.renumber place)).filter (·.quantity.IsPositive) =
      (all.filter (·.quantity.IsPositive)).map
        (Position.renumber place) := by
  rw [List.filter_map]
  rfl

private theorem positions_eq_renumber
    (reordering : Reordering trades reordered) :
    positions reordered =
      (positions trades).map
        (List.map (Position.renumber reordering.rename)) := by
  have all :
      allPositions reordered =
        (allPositions trades).map
          (List.map (Position.renumber reordering.rename)) := by
    unfold allPositions
    rw [← mapM_map_result, keys_reordered reordering]
    congr 1
    funext key
    exact replayed_reordered reordering key
  rw [positions, positions, all]
  cases allPositions trades with
  | error error =>
      rfl
  | ok found =>
      exact congrArg Except.ok (filter_renumber _ found)

/--
The order of the ledger: a reordered ledger is refused with the same error, or
it has the same positions but for the places of their lots.  Each lot is at the
place of a purchase in the one ledger, and then at the place of the same
purchase in the other.
-/
theorem positions_reordered
    (reordering : Reordering trades reordered) :
    positions reordered =
      (positions trades).map
        (List.map (Position.renumber reordering.rename)) ∧
    ∀ found,
      positions trades = .ok found →
        ∀ position ∈ found, ∀ lot ∈ position.lots,
          ∃ trade,
            trades[lot.sequence]? = some trade ∧
              reordered[reordering.rename lot.sequence]? = some trade ∧
              trade.side = .buy ∧
              GroupKey.ofTrade trade = position.key := by
  refine ⟨positions_eq_renumber reordering, ?_⟩
  intro found accepted position member lot isLot
  obtain ⟨entry, inGroup, opened⟩ :=
    exists_purchase_of_lot accepted member isLot
  obtain ⟨listed, entryKey⟩ := mem_group.mp inGroup
  rw [← opened.sequence_eq] at listed
  exact ⟨entry.trade, listed, reordering.getElem?_rename listed,
    opened.isBuy, entryKey⟩

/-! ## A ledger put in order of date -/

/-- The trades of `spanningSale` in the order of their days. -/
def spanningSaleByDate :
    List Trade :=
  [spanningSale[2], spanningSale[4], spanningSale[0], spanningSale[1],
    spanningSale[3]]

/-- Where the trades of `spanningSale` go. -/
def placesByDate :
    Fin 5 ≃ Fin 5 where
  toFun := ![2, 3, 0, 4, 1]
  invFun := ![2, 4, 0, 1, 3]
  left_inv := by decide
  right_inv := by decide

/-- The two purchases of one day stay in their order. -/
def spanningSaleReordering :
    Reordering spanningSale spanningSaleByDate where
  place := placesByDate
  keeps := by decide +kernel
  monotone := by decide +kernel

/-- What is left is of the purchase that has come from place 4 to place 1. -/
theorem positions_reordered_spanningSale :
    positions spanningSaleByDate =
        .ok [leftOfSpanningSale.renumber spanningSaleReordering.rename] ∧
      spanningSaleReordering.rename 4 = 1 := by
  refine ⟨?_, rfl⟩
  rw [(positions_reordered spanningSaleReordering).1,
    positions_spanningSale]
  rfl

end Ledger

end NetWorth
