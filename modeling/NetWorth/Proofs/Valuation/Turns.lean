import Mathlib
import NetWorth.Valuation.Fold

/-!
# The turns of a total

Holdings and accounts are put to a total one after the other.  At its turn an
item meets the sum of those that have been counted before it.  It has no
conversion, or it is counted, or it would take the sum out of range; what
becomes of it depends on the item and on that sum alone.
-/

namespace NetWorth

namespace LineItem

/-- The amount in its own currency. -/
def amount :
    LineItem → Decimal
  | .holding _ amount _ _ => amount
  | .account _ _ amount _ _ => amount

/-- The currency of the amount. -/
def currency :
    LineItem → String
  | .holding _ _ currency _ => currency
  | .account _ _ _ currency _ => currency

end LineItem

namespace Valuation

/-- What is put to a total. -/
inductive Item where
  | holding (holding : Holding)
  | account (account : Account)

namespace Item

/-- The name under which an item is left out. -/
def label :
    Item → String
  | .holding held => held.key.toText
  | .account kept => kept.name

/-- The amount in its own currency. -/
def amount :
    Item → Decimal
  | .holding held => held.totalValue
  | .account kept => kept.balance

/-- The currency as it is listed. -/
def currency :
    Item → String
  | .holding held => held.currency
  | .account kept => normalCode kept.currency

/-- How an item is listed when it is left out. -/
def skipped
    (item : Item) :
    SkippedItem where
  label :=
    item.label
  amount :=
    item.amount
  currency :=
    item.currency

/-- The line of an item that is counted. -/
def line
    (converted : Decimal) :
    Item → LineItem
  | .holding held =>
      .holding held.key.toText held.totalValue held.currency converted
  | .account kept =>
      .account kept.id kept.name kept.balance (normalCode kept.currency)
        converted

/-- The amount in the base of the rates, if it can be converted. -/
def converted?
    (rates : RateTable)
    (item : Item) :
    Option Decimal :=
  (rates.toBase item.amount item.currency).toOption

/-- The line of an item, or how it is listed without a conversion. -/
def lineOrSkipped
    (rates : RateTable)
    (item : Item) :
    Except SkippedItem LineItem :=
  match item.converted? rates with
  | some converted => .ok (item.line converted)
  | none => .error item.skipped

@[simp] theorem converted_line
    (converted : Decimal)
    (item : Item) :
    (item.line converted).converted = converted := by
  cases item <;> rfl

@[simp] theorem skipped_line
    (converted : Decimal)
    (item : Item) :
    (item.line converted).skipped = item.skipped := by
  cases item <;> rfl

@[simp] theorem amount_line
    (converted : Decimal)
    (item : Item) :
    (item.line converted).amount = item.amount := by
  cases item <;> rfl

@[simp] theorem currency_line
    (converted : Decimal)
    (item : Item) :
    (item.line converted).currency = item.currency := by
  cases item <;> rfl

theorem lineOrSkipped_holding
    (rates : RateTable)
    (holding : Holding) :
    (Item.holding holding).lineOrSkipped rates =
      holdingLine rates holding := by
  unfold lineOrSkipped converted? holdingLine
  dsimp only [amount, currency]
  cases rates.toBase holding.totalValue holding.currency <;> rfl

theorem lineOrSkipped_account
    (rates : RateTable)
    (account : Account) :
    (Item.account account).lineOrSkipped rates =
      accountLine rates account := by
  unfold lineOrSkipped converted? accountLine
  dsimp only [amount, currency]
  cases rates.toBase account.balance (normalCode account.currency) <;> rfl

end Item

/-- All that is put to a total, in turn. -/
def items
    (holdings : List Holding)
    (accounts : List Account) :
    List Item :=
  (sortHoldings holdings).map .holding ++ accounts.map .account

/-! ## Turns -/

/-- An item with the sum that it meets. -/
structure Turn where
  sum : Decimal
  item : Item

/-- What becomes of an item. -/
inductive Fate where
  | unconverted
  | counted (converted : Decimal)
  | overflowing (converted : Decimal)
  deriving DecidableEq

namespace Turn

variable (rates : RateTable) (turn : Turn)

/-- What becomes of the item at its turn. -/
def fate :
    Fate :=
  match turn.item.converted? rates with
  | none => .unconverted
  | some converted =>
      match turn.sum.add? converted with
      | none => .overflowing converted
      | some _ => .counted converted

/-- The sum after the turn. -/
def after :
    Decimal :=
  match turn.item.converted? rates with
  | none => turn.sum
  | some converted => (turn.sum.add? converted).getD turn.sum

/-- The line of an item that is counted. -/
def line? :
    Option LineItem :=
  match turn.fate rates with
  | .counted converted => some (turn.item.line converted)
  | _ => none

/-- How an item is listed that has no conversion. -/
def unconverted? :
    Option SkippedItem :=
  match turn.fate rates with
  | .unconverted => some turn.item.skipped
  | _ => none

/-- How an item is listed that would take the sum out of range. -/
def overflowing? :
    Option SkippedItem :=
  match turn.fate rates with
  | .overflowing _ => some turn.item.skipped
  | _ => none

end Turn

/-- The turns of items, from a sum. -/
def turns
    (rates : RateTable)
    (sum : Decimal) :
    List Item → List Turn
  | [] => []
  | item :: rest =>
      ⟨sum, item⟩ :: turns rates (Turn.after rates ⟨sum, item⟩) rest

/-- The sum after the turns of items. -/
def sumAfter
    (rates : RateTable)
    (sum : Decimal)
    (items : List Item) :
    Decimal :=
  items.foldl (fun sum item => Turn.after rates ⟨sum, item⟩) sum

/-- Each item has one turn. -/
theorem map_item_turns
    (rates : RateTable)
    (sum : Decimal)
    (items : List Item) :
    (turns rates sum items).map (·.item) = items := by
  induction items generalizing sum with
  | nil => rfl
  | cons item rest inductionHypothesis =>
      rw [turns, List.map_cons, inductionHypothesis]

/-- Items without a conversion are listed in their order. -/
theorem partition_snd
    (rates : RateTable)
    (sum : Decimal)
    (items : List Item) :
    (partition (items.map (Item.lineOrSkipped rates))).2 =
      (turns rates sum items).filterMap (Turn.unconverted? rates) := by
  induction items generalizing sum with
  | nil => rfl
  | cons item rest inductionHypothesis =>
      have restListed :=
        inductionHypothesis (Turn.after rates ⟨sum, item⟩)
      rw [turns, List.filterMap_cons, ← restListed, List.map_cons]
      unfold Item.lineOrSkipped Turn.unconverted? Turn.fate
      cases item.converted? rates with
      | none => rfl
      | some converted =>
          dsimp only
          cases sum.add? converted <;> rfl

/-- Adding up what has a conversion is taking the turns of all items. -/
theorem sumLines_partition
    (rates : RateTable)
    (sum : Decimal)
    (items : List Item) :
    sumLines sum (partition (items.map (Item.lineOrSkipped rates))).1 =
      (sumAfter rates sum items,
        (turns rates sum items).filterMap (Turn.line? rates),
        (turns rates sum items).filterMap (Turn.overflowing? rates)) := by
  induction items generalizing sum with
  | nil => rfl
  | cons item rest inductionHypothesis =>
      have restAdded := inductionHypothesis (Turn.after rates ⟨sum, item⟩)
      rw [turns, List.filterMap_cons, List.filterMap_cons, sumAfter,
        List.foldl_cons, ← sumAfter, List.map_cons]
      -- the item is put aside, added, or left out by the sum that it meets
      cases conversion : item.converted? rates with
      | none =>
          have keptSum : Turn.after rates ⟨sum, item⟩ = sum := by
            simp only [Turn.after, conversion]
          rw [keptSum] at restAdded ⊢
          simp only [Item.lineOrSkipped, Turn.line?, Turn.overflowing?,
            Turn.fate, conversion]
          exact restAdded
      | some converted =>
          cases added : sum.add? converted with
          | none =>
              have keptSum : Turn.after rates ⟨sum, item⟩ = sum := by
                simp only [Turn.after, conversion, added, Option.getD_none]
              rw [keptSum] at restAdded ⊢
              simp only [Item.lineOrSkipped, Turn.line?, Turn.overflowing?,
                Turn.fate, conversion, added, partition, sumLines,
                Item.converted_line, Item.skipped_line, restAdded]
          | some larger =>
              have largerSum : Turn.after rates ⟨sum, item⟩ = larger := by
                simp only [Turn.after, conversion, added, Option.getD_some]
              rw [largerSum] at restAdded ⊢
              simp only [Item.lineOrSkipped, Turn.line?, Turn.overflowing?,
                Turn.fate, conversion, added, partition, sumLines,
                Item.converted_line, restAdded]

/--
A total as it follows from the turns of items: it is the sum after the last
turn, and it counts and lists each item by what becomes of it.  Items without a
conversion come before those that were left out by the sum.
-/
structure Follows
    (total : Valuation)
    (rates : RateTable)
    (items : List Item) :
    Prop where
  currency_eq : total.currency = rates.base
  totalValue_eq : total.totalValue = sumAfter rates .zero items
  lineItems_eq :
    total.lineItems =
      (turns rates .zero items).filterMap (Turn.line? rates)
  skipped_eq :
    total.skipped =
      (turns rates .zero items).filterMap (Turn.unconverted? rates) ++
        (turns rates .zero items).filterMap (Turn.overflowing? rates)

section Fold

variable
  (userId : String)
  (holdings : List Holding)
  (accounts : List Account)
  (rates : RateTable)
  (asOf : Instant)

private theorem lines_eq :
    (sortHoldings holdings).map (holdingLine rates) ++
        accounts.map (accountLine rates) =
      (items holdings accounts).map (Item.lineOrSkipped rates) := by
  have holdingLines :
      holdingLine rates = Item.lineOrSkipped rates ∘ .holding := by
    funext holding
    rw [Function.comp_apply, Item.lineOrSkipped_holding]
  have accountLines :
      accountLine rates = Item.lineOrSkipped rates ∘ .account := by
    funext account
    rw [Function.comp_apply, Item.lineOrSkipped_account]
  rw [items, List.map_append, List.map_map, List.map_map, holdingLines,
    accountLines]

/-- A total follows from the turns of its items. -/
theorem fold_follows :
    (fold userId holdings accounts rates asOf).Follows rates
      (items holdings accounts) := by
  unfold fold
  dsimp only
  rw [lines_eq, sumLines_partition, partition_snd rates .zero]
  exact ⟨rfl, rfl, rfl, rfl⟩

end Fold

/-! ## Converted lines -/

/-- An item is counted at what it is converted to. -/
theorem Turn.toBase_of_counted
    {rates : RateTable}
    {turn : Turn}
    {converted : Decimal}
    (isCounted : turn.fate rates = .counted converted) :
    rates.toBase turn.item.amount turn.item.currency = .ok converted := by
  unfold fate Item.converted? at isCounted
  cases conversion : rates.toBase turn.item.amount turn.item.currency with
  | error error =>
      rw [conversion] at isCounted
      cases isCounted
  | ok amount =>
      rw [conversion] at isCounted
      cases added : turn.sum.add? amount with
      | none => simp [Except.toOption, added] at isCounted
      | some sum => simpa [Except.toOption, added] using isCounted

/-- The lines of a total are converted at its rates. -/
theorem Follows.toBase_line
    {total : Valuation}
    {rates : RateTable}
    {items : List Item}
    (follows : total.Follows rates items)
    {line : LineItem}
    (isLine : line ∈ total.lineItems) :
    rates.toBase line.amount line.currency = .ok line.converted := by
  rw [follows.lineItems_eq] at isLine
  obtain ⟨turn, -, isLine⟩ := List.mem_filterMap.mp isLine
  unfold Turn.line? at isLine
  cases fate : turn.fate rates with
  | counted converted =>
      rw [fate, Option.some.injEq] at isLine
      rw [← isLine, Item.amount_line, Item.currency_line, Item.converted_line]
      exact Turn.toBase_of_counted fate
  | unconverted =>
      rw [fate] at isLine
      cases isLine
  | overflowing converted =>
      rw [fate] at isLine
      cases isLine

end Valuation

end NetWorth
