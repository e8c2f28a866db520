import Mathlib
import NetWorth.Proofs.Text.NormalCode
import NetWorth.Rates.RateTable

/-!
# Codes as keys

Whatever is kept under a code is kept under its normal form.  Taking the normal
form once more changes nothing, so two spellings lead to one entry where their
normal forms are the same, and to different entries where they are not.
-/

namespace NetWorth

namespace RateTable

/-- Whether the rate of a code is set in the entry of this key, and in no other
entry. -/
def SetsAt
    (code key : String) :
    Prop :=
  ∀ (table : RateTable) (rate : Decimal) (other : String),
    (table.withRate code rate).rates.get? other =
      if other = key then some rate else table.rates.get? other

/-- A table with another rate in the entry of a key. -/
def withEntry
    (table : RateTable)
    (key : String)
    (rate : Decimal) :
    RateTable :=
  { table with rates := table.rates.insert key rate }

/-- Whether the rate of a code is read from the entry of this key, and from no
other entry. -/
structure ReadsAt
    (code key : String) :
    Prop where
  entry :
    ∀ (table : RateTable) (rate : Decimal),
      table.base ≠ key →
        rate.IsPositive →
          (table.withEntry key rate).rate? code = some rate
  others :
    ∀ (table : RateTable) (rate : Decimal) (other : String),
      other ≠ key → (table.withEntry other rate).rate? code = table.rate? code

/-- Rates are set in the entry of the normal form. -/
theorem setsAt_iff
    {code key : String} :
    SetsAt code key ↔ key = normalCode code := by
  constructor
  · intro setsAt
    have found := setsAt (empty "") .one (normalCode code)
    rw [withRate, Table.get?_insert, if_pos rfl] at found
    by_contra different
    rw [if_neg (Ne.symm different)] at found
    cases found
  · rintro rfl table rate other
    exact Table.get?_insert _ _ _ _

/-- What is read after an entry was set. -/
theorem rate?_withEntry
    (table : RateTable)
    (key : String)
    (rate : Decimal)
    (code : String) :
    (table.withEntry key rate).rate? code =
      if normalCode code = table.base then some .one
      else if normalCode code = key then (some rate).filter (·.IsPositive)
      else (table.rates.get? (normalCode code)).filter (·.IsPositive) := by
  simp only [rate?, withEntry, Table.get?_insert]
  split
  · rfl
  · split <;> rfl

/-- Rates are read from the entry of the normal form. -/
theorem readsAt_iff
    {code key : String} :
    ReadsAt code key ↔ key = normalCode code := by
  constructor
  · intro readsAt
    by_contra different
    -- with another base, the entry of the normal form is read as well
    let table : RateTable := ⟨key, .empty, none⟩
    have unset : table.rate? code = none := by
      rw [rate?, if_neg (Ne.symm different)]
      rfl
    have isRead : (table.withEntry (normalCode code) .one).rate? code = some .one := by
      rw [rate?_withEntry, if_neg (Ne.symm different), if_pos rfl]
      rfl
    rw [readsAt.others table .one _ (Ne.symm different), unset] at isRead
    cases isRead
  · rintro rfl
    constructor
    case entry =>
      intro table rate notBase isPositive
      rw [rate?_withEntry, if_neg notBase.symm, if_pos rfl]
      exact Option.filter_some_pos (decide_eq_true isPositive)
    case others =>
      intro table rate other different
      rw [rate?_withEntry, if_neg (Ne.symm different)]
      rfl

end RateTable

/--
Codes are brought into normal form once and for all: the normal form of a code is
trimmed and its own normal form, and a key of a position is made again from its
parts.  The rate of a code is set in the entry of its normal form and read from
it, and no other entry is involved, so what is set under one code is read under
another if and only if their normal forms are the same.  The price of an asset is
kept under a key from which its class and its normal form can be told.
-/
theorem kept_by_normalCode :
    (∀ code : String,
        normalCode (normalCode code) = normalCode code ∧
          Text.Trimmed (normalCode code).toList) ∧
      (∀ (assetClass : AssetClass) (ticker currency : String),
        let key := GroupKey.normal assetClass ticker currency
        GroupKey.normal key.assetClass key.ticker key.currency = key) ∧
      (∀ code key : String,
        (RateTable.SetsAt code key ↔ key = normalCode code) ∧
          (RateTable.ReadsAt code key ↔ key = normalCode code)) ∧
      (∀ code other : String,
        (∃ key, RateTable.SetsAt code key ∧ RateTable.ReadsAt other key) ↔
          normalCode code = normalCode other) ∧
      (∀ (assetClass otherClass : AssetClass) (symbol other : String),
        priceKey assetClass (normalCode symbol) =
            priceKey otherClass (normalCode other) ↔
          assetClass = otherClass ∧ normalCode symbol = normalCode other) := by
  refine ⟨fun code => ⟨normalCode_normalCode code, trimmed_normalCode code⟩,
    GroupKey.normal_normal, fun code key => ⟨RateTable.setsAt_iff, RateTable.readsAt_iff⟩,
    fun code other => ?oneEntry, fun assetClass otherClass symbol other => ?oneKey⟩
  case oneEntry =>
    simp only [RateTable.setsAt_iff, RateTable.readsAt_iff, exists_eq_left]
  case oneKey =>
    refine ⟨priceKey_injective, ?_⟩
    rintro ⟨rfl, sameSymbol⟩
    rw [sameSymbol]

end NetWorth
