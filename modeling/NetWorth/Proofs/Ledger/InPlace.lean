import Mathlib
import NetWorth.Ledger.InPlace
import NetWorth.Proofs.Decimal.Rounding
import NetWorth.Proofs.Ledger.ClosedForm
import NetWorth.Proofs.Ledger.Steps

/-!
# A trade as a whole or not at all

A trade that is applied in place takes several steps, and each of them changes
the position for good.  All that may fail comes before the first of them: what
the lots are to lose is counted, not taken.  So a trade that is refused leaves
the position as it was, and one that is not refused leaves what replaying it
gives.

Nothing held is ever below zero, however the quantities have been rounded.  So
no difference that is taken without a check is out of range.
-/

namespace NetWorth.Position

/-! ## In place and by value -/

/-- The lots that a usage leaves. -/
def Usage.left
    (usage : Usage)
    (lots : List Lot) :
    List Lot :=
  setFront usage.frontRemaining (lots.drop usage.closedLots)

/-- Nothing more is used once nothing is missing. -/
theorem Usage.extend_of_not_isPositive
    (usage : Usage)
    {missing : Decimal}
    (nothing : ¬ missing.IsPositive)
    (lots : List Lot) :
    usage.extend missing lots = .ok usage := by
  cases lots with
  | nil => rfl
  | cons lot rest => rw [Usage.extend, if_neg nothing]

/-- A decimal less itself is a zero. -/
private theorem exists_sub?_self
    (a : Decimal) :
    ∃ nothing, a.sub? a = some nothing ∧ ¬ nothing.IsPositive := by
  have whole : a.Represents a.value a.scale := ⟨rfl, le_rfl⟩
  obtain ⟨nothing, found, exact⟩ :=
    Decimal.sub?_exact whole whole a.scale_le
      (by simp [Decimal.InRange])
  refine ⟨nothing, found, ?_⟩
  rw [Decimal.isPositive_iff, exact.value_eq, sub_self]
  exact lt_irrefl 0

/-- Where a lot has more than what is asked for, all of that is taken. -/
private theorem least_eq_of_lt
    {a b : Decimal}
    (less : a.least b < a) :
    a.least b = b := by
  unfold Decimal.least at less ⊢
  split
  · next smaller =>
    rw [if_pos smaller, Decimal.lt_iff_value_lt] at less
    exact absurd less (lt_irrefl _)
  · rfl

/-- What is counted of the lots is what taking from them releases and leaves.
The lots in front of them have been used up before. -/
theorem Usage.extend_eq_take
    (requested released : Decimal)
    (front lots : List Lot) :
    (Usage.extend ⟨released, front.length, none⟩ requested lots).map
        (fun usage => (usage.released, usage.left (front ++ lots))) =
      take requested released lots := by
  induction lots generalizing requested released front with
  | nil =>
      simp [Usage.extend, take, Usage.left, setFront, Except.map]
  | cons lot rest inductionHypothesis =>
      by_cases isMissing : requested.IsPositive
      case neg =>
        rw [Usage.extend_of_not_isPositive _ isMissing, take, if_neg isMissing]
        simp [Usage.left, setFront, Except.map]
      rw [Usage.extend, take, if_pos isMissing, if_pos isMissing]
      dsimp only
      cases ((lot.quantity.least requested).mul? lot.unitCost).bind
          released.add? with
      | none => rfl
      | some sum =>
          dsimp only
          by_cases isPart : lot.quantity.least requested < lot.quantity
          · -- a part of a lot is all that was missing, so the count ends here
            obtain ⟨nothing, noneLeft, notPositive⟩ := exists_sub?_self requested
            rw [least_eq_of_lt isPart, noneLeft]
            rw [least_eq_of_lt isPart] at isPart
            simp only [if_pos isPart]
            cases lot.quantity.sub? requested with
            | none => rfl
            | some left =>
                dsimp only
                rw [Usage.extend_of_not_isPositive _ notPositive]
                simp [Usage.left, setFront, Except.map]
          · simp only [if_neg isPart]
            cases requested.sub? (lot.quantity.least requested) with
            | none => rfl
            | some missing =>
                dsimp only
                rw [← inductionHypothesis missing sum (front ++ [lot]),
                  List.length_append, List.length_singleton, List.append_assoc]
                rfl

/-- The balance that carrying out a plan leaves. -/
def Plan.balance
    (plan : Plan)
    (lots : List Lot) :
    Balance where
  lots :=
    lots
  quantity :=
    plan.quantity
  totalCost :=
    plan.totalCost
  averageCost :=
    plan.averageCost

/-- The lots once a trade has been carried out as planned. -/
def Plan.lotsAfter
    (plan : Plan)
    (sequence : Nat)
    (trade : Trade)
    (lots : List Lot) :
    List Lot :=
  match trade.side with
  | .buy => lots ++ [⟨trade.quantity, trade.unitPrice, sequence⟩]
  | .sell => setFront plan.frontRemaining (lots.drop plan.closedLots)

/-- A plan has the totals of a balance, whatever its lots are. -/
private theorem ofTotals?_eq_map
    (lots : List Lot)
    (quantity totalCost : Decimal) :
    Balance.ofTotals? lots quantity totalCost =
      (Plan.ofTotals? quantity totalCost).map (·.balance lots) := by
  unfold Balance.ofTotals? Plan.ofTotals?
  by_cases isPositive : quantity.IsPositive
  · rw [if_pos isPositive, if_pos isPositive]
    cases totalCost.div? quantity <;> rfl
  · rw [if_neg isPositive, if_neg isPositive]
    rfl

private theorem afterBuy?_eq_map
    (position : Position)
    (quantity unitPrice : Decimal)
    (sequence : Nat) :
    position.afterBuy? quantity unitPrice sequence =
      (position.planBuy? quantity unitPrice).map
        (·.balance (position.lots ++ [⟨quantity, unitPrice, sequence⟩])) := by
  unfold afterBuy? planBuy?
  simp only [ofTotals?_eq_map, Option.bind_eq_bind, Option.map_bind,
    Function.comp_def]

private theorem afterSell_eq_map
    (position : Position)
    (tradeId : String)
    (requested : Decimal) :
    position.afterSell tradeId requested =
      (position.planSell tradeId requested).map fun plan =>
        plan.balance
          (setFront plan.frontRemaining (position.lots.drop plan.closedLots)) := by
  have counted :
      (Usage.empty.extend requested position.lots).map
          (fun usage => (usage.released, usage.left position.lots)) =
        take requested .zero position.lots :=
    Usage.extend_eq_take requested .zero [] position.lots
  unfold afterSell planSell
  rw [← counted]
  split
  · cases requested.sub? position.quantity <;> rfl
  cases Usage.empty.extend requested position.lots with
  | error error => cases error <;> rfl
  | ok usage =>
      dsimp only [Except.map]
      cases position.totalCost.sub? usage.released with
      | none => rfl
      | some totalCost =>
          dsimp only
          cases position.quantity.sub? requested with
          | none => rfl
          | some quantity =>
              dsimp only
              rw [ofTotals?_eq_map]
              cases Plan.ofTotals? quantity totalCost <;> rfl

/-- A trade leaves what its plan says. -/
theorem afterTrade_eq_map
    (position : Position)
    (sequence : Nat)
    (trade : Trade) :
    position.afterTrade sequence trade =
      (position.plan trade).map fun plan =>
        plan.balance (plan.lotsAfter sequence trade position.lots) := by
  unfold afterTrade plan
  split
  · rfl
  split
  · rfl
  cases side : trade.side with
  | buy =>
      simp only [Plan.lotsAfter, side, afterBuy?_eq_map]
      cases position.planBuy? trade.quantity trade.unitPrice <;> rfl
  | sell =>
      simp only [Plan.lotsAfter, side]
      exact afterSell_eq_map position trade.id trade.quantity

/-- Committing to a plan settles the balance that it leaves. -/
private theorem commit_run
    (plan : Plan)
    (position : Position)
    (lots : List Lot) :
    (commit plan).run { position with lots } =
      ((), position.settle (plan.balance lots)) := by
  by_cases isPositive : plan.quantity.IsPositive
  · exact Prod.ext rfl ((if_pos isPositive).trans (if_pos isPositive).symm)
  · exact Prod.ext rfl ((if_neg isPositive).trans (if_neg isPositive).symm)

/-- What a run of a trade comes to, read off its steps: the plan, the lots, the
totals and the name. -/
private theorem applyInPlace_run_eq
    (position : Position)
    (sequence : Nat)
    (trade : Trade) :
    (applyInPlace sequence trade).run.run position =
      match position.plan trade with
      | .error error => (.error error, position)
      | .ok plan =>
          (.ok (),
            ((commit plan).run
                { position with
                    lots := plan.lotsAfter sequence trade position.lots }).2.named
              trade.tickerName) := by
  -- the plan is the one step that can fail, and it reads the position only
  change (ExceptT.bindCont (m := StateM Position) _ (position.plan trade)).run
    position = _
  cases position.plan trade with
  | error error => rfl
  | ok plan =>
      simp only [ExceptT.bindCont, Plan.lotsAfter]
      cases trade.side <;> rfl

/-- A trade that is applied in place leaves the position alone if it is refused,
and otherwise leaves what replaying it gives. -/
theorem applyInPlace_run
    (position : Position)
    (sequence : Nat)
    (trade : Trade) :
    (applyInPlace sequence trade).run.run position =
      match position.apply sequence trade with
      | .error error => (.error error, position)
      | .ok next => (.ok (), next) := by
  rw [applyInPlace_run_eq, apply, afterTrade_eq_map]
  cases position.plan trade with
  | error error => rfl
  | ok plan => simp only [commit_run, Except.map]

/-! ## Nothing held is below zero -/

/-- What a sale takes from a lot is a part of the lot and of what is missing. -/
private theorem least_bounds
    {lot : Lot}
    {missing : Decimal}
    (lotNonneg : 0 ≤ lot.quantity.value)
    (isPositive : missing.IsPositive) :
    0 ≤ (lot.quantity.least missing).value ∧
      (lot.quantity.least missing).value ≤ lot.quantity.value ∧
        (lot.quantity.least missing).value ≤ missing.value := by
  rw [Decimal.value_least]
  exact ⟨le_min lotNonneg (Decimal.isPositive_iff.mp isPositive).le,
    min_le_left _ _, min_le_right _ _⟩

section Take

variable
  {lots : List Lot}
  (lotsNonneg : ∀ lot ∈ lots, 0 ≤ lot.quantity.value)
  {requested released : Decimal}

include lotsNonneg

/-- Parts of lots are always within range. -/
theorem take_ne_unbalanced :
    take requested released lots ≠ .error .unbalanced := by
  fun_induction take requested released lots with
  | case1 released => simp
  | case2 requested released lot rest isPositive matched overflows => simp
  | case3 requested released lot rest isPositive matched sum sumEq isPart outOfRange =>
      have bounds := least_bounds (lotsNonneg lot List.mem_cons_self) isPositive
      have inRange := Decimal.sub?_isSome_of_le bounds.1 bounds.2.1
      simp [outOfRange, matched] at inRange
  | case4 requested released lot rest isPositive matched sum sumEq isPart left leftEq =>
      simp
  | case5 requested released lot rest isPositive matched sum sumEq notPart outOfRange =>
      have bounds := least_bounds (lotsNonneg lot List.mem_cons_self) isPositive
      have inRange := Decimal.sub?_isSome_of_le bounds.1 bounds.2.2
      simp [outOfRange, matched] at inRange
  | case6 requested released lot rest isPositive matched sum sumEq notPart missing
      missingEq inductionHypothesis =>
      exact inductionHypothesis fun later member =>
        lotsNonneg later (List.mem_cons_of_mem _ member)
  | case7 requested released lot rest notPositive => simp

/-- Lots that are left are not below zero, also when they have been rounded. -/
theorem nonneg_of_take
    {total : Decimal}
    {left : List Lot}
    (taken : take requested released lots = .ok (total, left)) :
    ∀ lot ∈ left, 0 ≤ lot.quantity.value := by
  induction lots generalizing requested released with
  | nil =>
      simp only [take, Except.ok.injEq, Prod.mk.injEq] at taken
      simp [← taken.2]
  | cons lot rest inductionHypothesis =>
      have restNonneg : ∀ later ∈ rest, 0 ≤ later.quantity.value :=
        fun later member => lotsNonneg later (List.mem_cons_of_mem _ member)
      rcases take_cons_eq_ok taken with
          ⟨-, -, rfl⟩ | ⟨isPositive, sum, -,
            ⟨restQuantity, restEq, -, rfl⟩ | ⟨-, missing, takenOn⟩⟩
      · exact lotsNonneg
      · have bounds := least_bounds (lotsNonneg lot List.mem_cons_self) isPositive
        have restIs :=
          (Decimal.sub?_roundsClosely restEq).nonneg (sub_nonneg.mpr bounds.2.1)
        exact List.forall_mem_cons.mpr ⟨restIs, restNonneg⟩
      · exact inductionHypothesis restNonneg takenOn

end Take

/-- No quantity of a balance is below zero. -/
structure Balance.Stocked
    (balance : Balance) :
    Prop where
  quantity_nonneg : 0 ≤ balance.quantity.value
  lots_nonneg : ∀ lot ∈ balance.lots, 0 ≤ lot.quantity.value

section Step

variable
  {position : Position}
  {sequence : Nat}
  {trade : Trade}

/-- What falls short, what is taken and what is left are all within range. -/
private theorem afterSell_ne_unbalanced
    (stocked : position.balance.Stocked)
    {requested : Decimal}
    (isPositive : requested.IsPositive)
    (tradeId : String)
    (group : GroupKey)
    (id : String) :
    position.afterSell tradeId requested ≠ .error (.unbalanced group id) := by
  have heldNonneg : 0 ≤ position.quantity.value := stocked.quantity_nonneg
  have requestedNonneg := (Decimal.isPositive_iff.mp isPositive).le
  unfold afterSell
  split
  · next tooMuch =>
    rw [Decimal.lt_iff_value_lt] at tooMuch
    obtain ⟨shortfall, shortfallEq⟩ :=
      Option.isSome_iff_exists.mp
        (Decimal.sub?_isSome_of_le heldNonneg tooMuch.le)
    simp [shortfallEq]
  next enough =>
  rw [Decimal.lt_iff_value_lt, not_lt] at enough
  split
  · simp
  · next unbalanced =>
    exact absurd unbalanced (take_ne_unbalanced stocked.lots_nonneg)
  split
  · simp
  obtain ⟨held, heldEq⟩ :=
    Option.isSome_iff_exists.mp
      (Decimal.sub?_isSome_of_le requestedNonneg enough)
  rw [heldEq]
  dsimp only
  split <;> simp

/-- While nothing is below zero, differences are within range. -/
theorem apply_ne_unbalanced
    (stocked : position.balance.Stocked)
    (sequence : Nat)
    (trade : Trade)
    (group : GroupKey)
    (id : String) :
    position.apply sequence trade ≠ .error (.unbalanced group id) := by
  suffices after : position.afterTrade sequence trade ≠ .error (.unbalanced group id) by
    unfold apply
    split
    · next error refused =>
      rw [refused] at after
      simpa using after
    · simp
  unfold afterTrade
  split
  · simp
  next isPositive =>
  split
  · simp
  split
  · split <;> simp
  · exact afterSell_ne_unbalanced stocked (not_not.mp isPositive) trade.id group id

theorem afterTrade_stocked
    (stocked : position.balance.Stocked)
    {balance : Balance}
    (found : position.afterTrade sequence trade = .ok balance) :
    balance.Stocked := by
  have heldNonneg : 0 ≤ position.quantity.value := stocked.quantity_nonneg
  obtain ⟨sound, ⟨-, bought⟩ | ⟨-, soldOff⟩⟩ := afterTrade_eq_ok.mp found
  · obtain ⟨cost, held, totalCost, -, added, -, totals⟩ := afterBuy?_eq_some.mp bought
    obtain ⟨average, rfl, -⟩ := ofTotals?_eq_some totals
    have enlarged : 0 ≤ position.quantity.value + trade.quantity.value :=
      add_nonneg heldNonneg sound.quantity_pos.le
    refine ⟨(Decimal.add?_roundsClosely added).nonneg enlarged, ?_⟩
    exact List.forall_mem_append.mpr
      ⟨stocked.lots_nonneg, List.forall_mem_singleton.mpr sound.quantity_pos.le⟩
  · obtain ⟨enough, released, left, totalCost, held, taken, -, subtracted, totals⟩ :=
      afterSell_eq_ok.mp soldOff
    obtain ⟨average, rfl, -⟩ := ofTotals?_eq_some totals
    rw [Decimal.lt_iff_value_lt, not_lt] at enough
    exact ⟨(Decimal.sub?_roundsClosely subtracted).nonneg (sub_nonneg.mpr enough),
      nonneg_of_take stocked.lots_nonneg taken⟩

/-- A trade leaves nothing below zero. -/
theorem apply_stocked
    (stocked : position.balance.Stocked)
    {next : Position}
    (applied : position.apply sequence trade = .ok next) :
    next.balance.Stocked := by
  obtain ⟨balance, after, rfl⟩ := apply_eq_ok.mp applied
  rw [named_balance]
  unfold settle
  split
  · exact afterTrade_stocked stocked after
  · exact ⟨Decimal.value_zero.ge, by simp [Position.balance]⟩

end Step

/-! ## All or nothing -/

/-- Trying an entry is applying it, and changes nothing if that fails. -/
theorem attempt_eq
    (position : Position)
    (entry : Entry) :
    position.attempt entry =
      match position.apply entry.sequence entry.trade with
      | .error error => (.error error, position)
      | .ok next => (.ok (), next) :=
  applyInPlace_run position entry.sequence entry.trade

private theorem attempts_append_singleton
    (key : GroupKey)
    (earlier : List Entry)
    (entry : Entry) :
    attempts key (earlier ++ [entry]) =
      ((attempts key earlier).attempt entry).2 := by
  rw [attempts, List.foldl_append]
  rfl

/-- Whatever has been tried, nothing is below zero. -/
theorem attempts_stocked
    (key : GroupKey)
    (entries : List Entry) :
    (attempts key entries).balance.Stocked := by
  induction entries using List.reverseRecOn with
  | nil =>
      exact ⟨Decimal.value_zero.ge, by simp [attempts, empty, Position.balance]⟩
  | append_singleton earlier entry inductionHypothesis =>
      rw [attempts_append_singleton, attempt_eq]
      cases applied : (attempts key earlier).apply entry.sequence entry.trade with
      | error error => exact inductionHypothesis
      | ok next => exact apply_stocked inductionHypothesis applied

/--
Whatever has been tried before, accepted or not: all differences that an entry
needs are within range; if it is refused, the position stays as it is; and
otherwise the position is the one that replaying the entry gives.
-/
theorem attempt_all_or_nothing
    (key : GroupKey)
    (entries : List Entry)
    (entry : Entry) :
    (∀ group id,
        ((attempts key entries).attempt entry).1 ≠ .error (.unbalanced group id)) ∧
      (∀ error,
        ((attempts key entries).attempt entry).1 = .error error →
          ((attempts key entries).attempt entry).2 = attempts key entries) ∧
        ∀ next,
          (attempts key entries).apply entry.sequence entry.trade = .ok next →
            (attempts key entries).attempt entry = (.ok (), next) := by
  have balanced :=
    apply_ne_unbalanced (attempts_stocked key entries) entry.sequence entry.trade
  rw [attempt_eq]
  cases applied : (attempts key entries).apply entry.sequence entry.trade with
  | error error =>
      rw [applied] at balanced
      refine ⟨fun group id isUnbalanced => ?_, fun _ _ => rfl, by simp⟩
      exact balanced group id (congrArg Except.error (Except.error.inj isUnbalanced))
  | ok next =>
      refine ⟨by simp, by simp, fun other isNext => ?_⟩
      cases isNext
      rfl

/-- A purchase of one share at the largest price, after one at a half. -/
def dearSecondLot :
    List Entry :=
  [⟨0, Ledger.sampleTrade .buy .stock "AAPL" .one
      (Ledger.sampleDecimal (Decimal.maxCoefficient - 1) 0) 0⟩,
    ⟨1, Ledger.sampleTrade .buy .stock "AAPL" .one (Ledger.sampleDecimal 5 1) 1⟩,
    ⟨2, Ledger.sampleTrade .sell .stock "AAPL" .one .zero 2⟩,
    ⟨3, Ledger.sampleTrade .buy .stock "AAPL" .one
      (Ledger.sampleDecimal Decimal.maxCoefficient 0) 3⟩]

/-- The sale of both shares. -/
def saleOfBoth :
    Entry :=
  ⟨4, Ledger.sampleTrade .sell .stock "AAPL" (Ledger.sampleDecimal 2 0) .zero 4⟩

/-- The cost of the first lot can be released, and the cost of both cannot. -/
theorem attempt_all_or_nothing_dearSecondLot :
    ((attempts ⟨.stock, "AAPL", "USD"⟩ dearSecondLot).attempt saleOfBoth).1 =
        .error (.overflow ⟨.stock, "AAPL", "USD"⟩ "t") ∧
      (attempts ⟨.stock, "AAPL", "USD"⟩ dearSecondLot).lots.length = 2 ∧
        ((attempts ⟨.stock, "AAPL", "USD"⟩ dearSecondLot).attempt saleOfBoth).2 =
          attempts ⟨.stock, "AAPL", "USD"⟩ dearSecondLot := by
  have refused :
      ((attempts ⟨.stock, "AAPL", "USD"⟩ dearSecondLot).attempt saleOfBoth).1 =
        .error (.overflow ⟨.stock, "AAPL", "USD"⟩ "t") := by
    decide +kernel
  exact ⟨refused, by decide +kernel,
    (attempt_all_or_nothing _ dearSecondLot saleOfBoth).2.1 _ refused⟩

end NetWorth.Position
