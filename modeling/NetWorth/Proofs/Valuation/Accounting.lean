import Mathlib
import NetWorth.Proofs.Valuation.Listing
import NetWorth.Proofs.Valuation.Turns

/-!
# Every item is accounted for once

An item that is put to a total leaves one entry behind: a line, or an entry of
what is left out.  The lines are in the order of the items and add up to the
total from the left.  An item is left out where it has no conversion, or where
its value takes the sum of the lines before it out of range; the items after it
are counted all the same.
-/

namespace NetWorth.Valuation

/-! ## What one turn does -/

section Turn

variable (rates : RateTable) (turn : Turn)

/--
An item has no conversion, or its value cannot be added, and the sum stays; or
its value is added.
-/
theorem Turn.fate_cases :
    (turn.item.converted? rates = none ∧
        turn.fate rates = .unconverted ∧
        turn.after rates = turn.sum) ∨
      (∃ value,
        turn.item.converted? rates = some value ∧
          turn.sum.add? value = none ∧
          turn.fate rates = .overflowing value ∧
          turn.after rates = turn.sum) ∨
      ∃ value,
        turn.item.converted? rates = some value ∧
          turn.sum.add? value = some (turn.after rates) ∧
          turn.fate rates = .counted value := by
  unfold fate after
  cases conversion : turn.item.converted? rates with
  | none =>
      exact .inl ⟨rfl, rfl, rfl⟩
  | some value =>
      cases added : turn.sum.add? value with
      | none =>
          exact .inr (.inl ⟨value, rfl, added, by simp [added]⟩)
      | some larger =>
          exact .inr (.inr ⟨value, rfl, by simp [added]⟩)

/-- A turn leaves no line and the sum stays, or it leaves the line of a value
that is added. -/
theorem Turn.line?_cases :
    (turn.line? rates = none ∧ turn.after rates = turn.sum) ∨
      ∃ value,
        turn.item.converted? rates = some value ∧
          turn.sum.add? value = some (turn.after rates) ∧
          turn.line? rates = some (turn.item.line value) := by
  unfold line?
  rcases turn.fate_cases rates with
      ⟨-, fate, kept⟩ | ⟨value, -, -, fate, kept⟩ |
        ⟨value, isValue, added, fate⟩
  · exact .inl ⟨by rw [fate], kept⟩
  · exact .inl ⟨by rw [fate], kept⟩
  · exact .inr ⟨value, isValue, added, by rw [fate]⟩

end Turn

/-- Where an item has a value, it is what its amount is converted to. -/
theorem Item.converted?_eq_some_iff
    {rates : RateTable}
    {item : Item}
    {value : Decimal} :
    item.converted? rates = some value ↔
      rates.toBase item.amount item.currency = .ok value := by
  unfold converted?
  cases rates.toBase item.amount item.currency <;> simp [Except.toOption]

/-- Where an item has no value, its amount cannot be converted. -/
theorem Item.converted?_eq_none_iff
    {rates : RateTable}
    {item : Item} :
    item.converted? rates = none ↔
      ∃ error, rates.toBase item.amount item.currency = .error error := by
  unfold converted?
  cases rates.toBase item.amount item.currency <;> simp [Except.toOption]

/-! ## What all turns leave behind -/

/-- A line of an item, at what the amount of the item is converted to. -/
structure Item.HasLine
    (rates : RateTable)
    (item : Item)
    (line : LineItem) :
    Prop where
  toBase_eq : rates.toBase item.amount item.currency = .ok line.converted
  line_eq : item.line line.converted = line

/-- Lines of some of the items, in their order. -/
def LinesOf
    (rates : RateTable)
    (items : List Item)
    (lines : List LineItem) :
    Prop :=
  ∃ counted : List Item,
    counted.Sublist items ∧
      List.Forall₂ (Item.HasLine rates) counted lines

section Turns

variable (rates : RateTable)

/-- Every item leaves one entry behind. -/
theorem perm_entries_turns
    (sum : Decimal)
    (items : List Item) :
    (items.map Item.skipped).Perm
      (((turns rates sum items).filterMap (Turn.line? rates)).map
          LineItem.skipped ++
        ((turns rates sum items).filterMap (Turn.unconverted? rates) ++
          (turns rates sum items).filterMap (Turn.overflowing? rates))) := by
  induction items generalizing sum with
  | nil =>
      exact .refl _
  | cons item rest inductionHypothesis =>
      have restListed :=
        (inductionHypothesis (Turn.after rates ⟨sum, item⟩)).cons item.skipped
      simp only [turns, List.filterMap_cons, Turn.line?, Turn.unconverted?,
        Turn.overflowing?]
      rcases Turn.fate_cases rates ⟨sum, item⟩ with
          ⟨-, fate, -⟩ | ⟨value, -, -, fate, -⟩ | ⟨value, -, -, fate⟩
      · -- its entry goes before those of later items without a conversion
        apply restListed.trans
        simp only [fate]
        exact List.perm_middle.symm
      · -- its entry goes before those of later items that found no room
        apply restListed.trans
        simp only [fate]
        rw [← List.append_assoc, ← List.append_assoc]
        exact List.perm_middle.symm
      · simp only [fate, List.map_cons, Item.skipped_line]
        exact restListed

/-- The lines are those of items, in their order. -/
theorem linesOf_turns
    (sum : Decimal)
    (items : List Item) :
    LinesOf rates items
      ((turns rates sum items).filterMap (Turn.line? rates)) := by
  induction items generalizing sum with
  | nil =>
      exact ⟨[], .slnil, .nil⟩
  | cons item rest inductionHypothesis =>
      obtain ⟨counted, inOrder, haveLines⟩ :=
        inductionHypothesis (Turn.after rates ⟨sum, item⟩)
      rw [turns, List.filterMap_cons]
      rcases Turn.line?_cases rates ⟨sum, item⟩ with
          ⟨noLine, -⟩ | ⟨value, isValue, -, isLine⟩
      · rw [noLine]
        exact ⟨counted, inOrder.cons item, haveLines⟩
      · rw [isLine]
        refine ⟨item :: counted, inOrder.cons_cons item, .cons ?_ haveLines⟩
        constructor
        · rw [Item.converted_line]
          exact Item.converted?_eq_some_iff.mp isValue
        · rw [Item.converted_line]

/-- The lines add up from the left. -/
theorem sumFrom?_turns
    (sum : Decimal)
    (items : List Item) :
    Decimal.sumFrom? sum
        (((turns rates sum items).filterMap (Turn.line? rates)).map
          LineItem.converted) =
      some (sumAfter rates sum items) := by
  induction items generalizing sum with
  | nil =>
      rfl
  | cons item rest inductionHypothesis =>
      have restAdded := inductionHypothesis (Turn.after rates ⟨sum, item⟩)
      rw [turns, List.filterMap_cons, sumAfter, List.foldl_cons, ← sumAfter]
      rcases Turn.line?_cases rates ⟨sum, item⟩ with
          ⟨noLine, kept⟩ | ⟨value, -, added, isLine⟩
      · rw [noLine]
        rw [kept] at restAdded ⊢
        exact restAdded
      · rw [isLine]
        simp only [List.map_cons, Item.converted_line, Decimal.sumFrom?,
          List.foldlM_cons]
        dsimp only at added
        rw [added]
        exact restAdded

/-- At its turn an item meets the sum after the turns of those before it, and
leaves a sum to those after it. -/
theorem exists_split_of_mem_turns
    {sum : Decimal}
    {items : List Item}
    {turn : Turn}
    (member : turn ∈ turns rates sum items) :
    ∃ before after,
      items = before ++ turn.item :: after ∧
        turn.sum = sumAfter rates sum before ∧
        turns rates sum items =
          turns rates sum before ++
            turn :: turns rates (turn.after rates) after := by
  induction items generalizing sum with
  | nil =>
      cases member
  | cons item rest inductionHypothesis =>
      rcases List.mem_cons.mp member with isFirst | inRest
      · subst turn
        exact ⟨[], rest, rfl, rfl, rfl⟩
      · obtain ⟨before, after, split, meets, inTurn⟩ :=
          inductionHypothesis inRest
        refine ⟨item :: before, after, congrArg (item :: ·) split, meets, ?_⟩
        exact congrArg (⟨sum, item⟩ :: ·) inTurn

end Turns

/-! ## What is left out -/

/--
Why an item is left out: it has no conversion, or its value takes the sum of the
lines before it out of range.
-/
inductive LeftOut
    (rates : RateTable)
    (placed : List LineItem)
    (item : Item) :
    Prop where
  | unconverted
      (error : ConversionError)
      (conversion :
        rates.toBase item.amount item.currency = .error error)
  | overflowing
      (value sum : Decimal)
      (conversion : rates.toBase item.amount item.currency = .ok value)
      (sumOfLines :
        Decimal.sumFrom? .zero (placed.map LineItem.converted) = some sum)
      (noRoom : sum.add? value = none)

/-- A turn that leaves no line, but an entry, has a reason. -/
theorem Turn.leftOut
    {rates : RateTable}
    {turn : Turn}
    {entry : SkippedItem}
    {placed : List LineItem}
    (isEntry :
      turn.unconverted? rates = some entry ∨
        turn.overflowing? rates = some entry)
    (sumOfLines :
      Decimal.sumFrom? .zero (placed.map LineItem.converted) =
        some turn.sum) :
    turn.line? rates = none ∧
      turn.item.skipped = entry ∧
      LeftOut rates placed turn.item := by
  simp only [unconverted?, overflowing?, line?] at isEntry ⊢
  rcases turn.fate_cases rates with
      ⟨noValue, fate, -⟩ | ⟨value, isValue, noRoom, fate, -⟩ |
        ⟨value, -, -, fate⟩
  · obtain ⟨error, conversion⟩ := Item.converted?_eq_none_iff.mp noValue
    simp only [fate, Option.some.injEq, reduceCtorEq, or_false] at isEntry ⊢
    exact ⟨trivial, isEntry, .unconverted error conversion⟩
  · have conversion := Item.converted?_eq_some_iff.mp isValue
    simp only [fate, Option.some.injEq, reduceCtorEq, false_or] at isEntry ⊢
    exact ⟨trivial, isEntry,
      .overflowing value turn.sum conversion sumOfLines noRoom⟩
  · simp [fate] at isEntry

/-- An entry of what is left out is that of an item with a reason. -/
theorem exists_leftOut
    (rates : RateTable)
    (items : List Item)
    {entry : SkippedItem}
    (listed :
      entry ∈ (turns rates .zero items).filterMap (Turn.unconverted? rates) ++
        (turns rates .zero items).filterMap (Turn.overflowing? rates)) :
    ∃ before item after,
      items = before ++ item :: after ∧
        item.skipped = entry ∧
        ∃ placed rest,
          (turns rates .zero items).filterMap (Turn.line? rates) =
              placed ++ rest ∧
            LinesOf rates before placed ∧
            LinesOf rates after rest ∧
            LeftOut rates placed item := by
  obtain ⟨turn, member, isEntry⟩ :
      ∃ turn ∈ turns rates .zero items,
        turn.unconverted? rates = some entry ∨
          turn.overflowing? rates = some entry := by
    simpa only [List.mem_append, List.mem_filterMap, ← exists_or,
      ← and_or_left] using listed
  obtain ⟨before, after, split, meets, inTurn⟩ :=
    exists_split_of_mem_turns rates member
  have sumOfLines := sumFrom?_turns rates .zero before
  rw [← meets] at sumOfLines
  obtain ⟨noLine, isSkipped, leftOut⟩ := turn.leftOut isEntry sumOfLines
  refine ⟨before, turn.item, after, split, isSkipped, _,
    (turns rates (turn.after rates) after).filterMap (Turn.line? rates), ?_,
    linesOf_turns rates .zero before, linesOf_turns rates _ after, leftOut⟩
  rw [inTurn, List.filterMap_append, List.filterMap_cons, noLine]

/-! ## Totals -/

/-- Lines of holdings in the order of their keys, and then of accounts in the
order in which they are given. -/
def HoldingsThenAccounts
    (rates : RateTable)
    (holdings : List Holding)
    (accounts : List Account)
    (lines : List LineItem) :
    Prop :=
  ∃ (held : List Holding) (kept : List Account),
    held.Subperm holdings ∧
      held.Pairwise (fun first second => first.key.le second.key) ∧
      kept.Sublist accounts ∧
      List.Forall₂ (Item.HasLine rates)
        (held.map .holding ++ kept.map .account) lines

/-- Lines of items that are put to a total are those of some holdings and then
of some accounts. -/
theorem LinesOf.holdingsThenAccounts
    {rates : RateTable}
    {holdings : List Holding}
    {accounts : List Account}
    {lines : List LineItem}
    (areLines : LinesOf rates (items holdings accounts) lines) :
    HoldingsThenAccounts rates holdings accounts lines := by
  obtain ⟨counted, inOrder, haveLines⟩ := areLines
  obtain ⟨countedHoldings, countedAccounts, rfl, ofHoldings, ofAccounts⟩ :=
    List.sublist_append_iff.mp inOrder
  obtain ⟨held, isHeld, rfl⟩ := List.sublist_map_iff.mp ofHoldings
  obtain ⟨kept, isKept, rfl⟩ := List.sublist_map_iff.mp ofAccounts
  refine ⟨held, kept, ?_, ?_, isKept, haveLines⟩
  · exact isHeld.subperm.trans (perm_sortHoldings holdings).subperm
  · exact (pairwise_sortHoldings holdings).sublist isHeld

/--
A total that accounts for holdings and accounts: every one of them is on one of
its two lists, the lines are in order, converted at the rates, and add up to the
total, and what is left out is left out for a reason.
-/
structure AccountsFor
    (total : Valuation)
    (rates : RateTable)
    (holdings : List Holding)
    (accounts : List Account) :
    Prop where
  eachOnce :
    (holdings.map (fun held => Item.skipped (.holding held)) ++
        accounts.map (fun kept => Item.skipped (.account kept))).Perm
      (total.lineItems.map LineItem.skipped ++ total.skipped)
  inOrder :
    HoldingsThenAccounts rates holdings accounts total.lineItems
  converted :
    ∀ line ∈ total.lineItems,
      rates.toBase line.amount line.currency = .ok line.converted
  addsUp :
    Decimal.sumFrom? .zero (total.lineItems.map LineItem.converted) =
      some total.totalValue
  leftOut :
    ∀ entry ∈ total.skipped,
      ∃ before item after,
        items holdings accounts = before ++ item :: after ∧
          item.skipped = entry ∧
          ∃ placed rest,
            total.lineItems = placed ++ rest ∧
              LinesOf rates before placed ∧
              LinesOf rates after rest ∧
              LeftOut rates placed item

/-- Sorting holdings loses none of their entries. -/
theorem perm_entries_items
    (holdings : List Holding)
    (accounts : List Account) :
    (holdings.map (fun held => Item.skipped (.holding held)) ++
        accounts.map (fun kept => Item.skipped (.account kept))).Perm
      ((items holdings accounts).map Item.skipped) := by
  simp only [items, List.map_append, List.map_map]
  exact ((perm_sortHoldings holdings).symm.map _).append_right _

/-- A total accounts for every item that is put to it once. -/
theorem every_item_accounted_for
    (userId : String)
    (holdings : List Holding)
    (accounts : List Account)
    (rates : RateTable)
    (asOf : Instant) :
    AccountsFor (fold userId holdings accounts rates asOf) rates holdings
      accounts := by
  have follows := fold_follows userId holdings accounts rates asOf
  constructor
  · rw [follows.lineItems_eq, follows.skipped_eq]
    exact (perm_entries_items holdings accounts).trans
      (perm_entries_turns rates .zero _)
  · rw [follows.lineItems_eq]
    exact (linesOf_turns rates .zero _).holdingsThenAccounts
  · intro line isLine
    exact follows.toBase_line isLine
  · rw [follows.lineItems_eq, follows.totalValue_eq]
    exact sumFrom?_turns rates .zero _
  · intro entry isSkipped
    rw [follows.skipped_eq] at isSkipped
    rw [follows.lineItems_eq]
    exact exists_leftOut rates _ isSkipped

end NetWorth.Valuation
