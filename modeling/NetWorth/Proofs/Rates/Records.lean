import Mathlib
import NetWorth.Rates.Records
import NetWorth.Proofs.Json.Codec
import NetWorth.Proofs.Table

/-!
# Rates read back

Stored rates come back from JSON, and so does a rate table whose codes are in
normal form: the reader brings every code into its normal form, and would let
two spellings of one code meet.
-/

namespace NetWorth

open Json.Record (ofJson?_bind required_bind withDefault_bind withDefault_bind_of_missing)

namespace StoredRate

/-- The stored rate with the minus sign of a zero left out. -/
def unsigned
    (stored : StoredRate) :
    StoredRate :=
  { stored with rate := stored.rate.unsignedZero }

/-- Stored rates as JSON. -/
def codec :
    Json.Codec StoredRate where
  encode :=
    toJson
  decode? :=
    ofJson?
  decimals stored :=
    [stored.rate]
  unsigned :=
    unsigned

private theorem ofJson?_toJson
    (stored : StoredRate) :
    ofJson? stored.toJson = some stored.unsigned := by
  rw [ofJson?,
    ofJson?_bind fieldNames stored.toJson rfl (.refl _) rfl,
    required_bind rfl (Json.text?_str _),
    required_bind rfl (Json.text?_str _),
    required_bind rfl (Json.decimal?_ofDecimal _),
    required_bind rfl (Json.instant?_ofInstant _)]
  rfl

/-- A stored rate comes back. -/
theorem faithful
    (stored : StoredRate) :
    codec.Faithful stored := by
  refine .of_wordy (Json.wordy_of_plain rfl) (ofJson?_toJson stored) ?_
  cases stored
  simp [codec, unsigned, Decimal.unsignedZero_eq_self_iff]

end StoredRate

namespace RateTable

/-- A rate table whose codes are in normal form. -/
structure IsNormal
    (t : RateTable) :
    Prop where
  base_eq : normalCode t.base = t.base
  codes_eq : ∀ code ∈ t.rates.keys, normalCode code = code

/-- The rate table with the minus signs of its zeros left out. -/
def unsigned
    (t : RateTable) :
    RateTable :=
  { t with rates := t.rates.mapValues Decimal.unsignedZero }

/-- Rate tables as JSON. -/
def codec :
    Json.Codec RateTable where
  encode :=
    toJson
  decode? :=
    ofJson?
  decimals t :=
    t.rates.values
  unsigned :=
    unsigned

/-- Rates are set under the normal forms of their codes. -/
theorem foldl_withRate
    (entries : List (String × Decimal))
    (t : RateTable) :
    entries.foldl (fun t entry => t.withRate entry.1 entry.2) t =
      { t with
        rates :=
          entries.foldl
            (fun rates entry => rates.insert (normalCode entry.1) entry.2)
            t.rates } := by
  induction entries generalizing t with
  | nil => rfl
  | cons entry rest inductionHypothesis =>
      rw [List.foldl_cons, inductionHypothesis]
      rfl

/-- A table in normal form is the table of its rates. -/
private theorem ofRates_entries
    {t : RateTable}
    (normal : t.IsNormal) :
    ofRates t.base t.rates.entries t.updatedAt = t := by
  have sameRates :
      t.rates.entries.foldl
          (fun rates entry => rates.insert (normalCode entry.1) entry.2)
          .empty =
        t.rates := by
    rw [List.foldl_ext (g := fun rates entry => rates.insert entry.1 entry.2)]
    · exact Table.ofList_entries t.rates
    · intro rates entry member
      rw [normal.codes_eq entry.1 (List.mem_map_of_mem member)]
  rw [ofRates, foldl_withRate]
  simp only [empty, sameRates, normal.base_eq]

/-- The signs of zeros have no part in the codes. -/
private theorem isNormal_unsigned
    {t : RateTable}
    (normal : t.IsNormal) :
    t.unsigned.IsNormal where
  base_eq := normal.base_eq
  codes_eq := by
    have sameKeys : t.unsigned.rates.keys = t.rates.keys := by
      unfold unsigned Table.keys Table.mapValues
      rw [List.map_map]
      rfl
    rw [sameKeys]
    exact normal.codes_eq

/-- Rates are read under their codes. -/
private theorem rates?_entries
    (rates : Table String Decimal) :
    Json.rates?
        (.obj (rates.entries.map fun (code, rate) =>
          (code, .ofDecimal rate))) =
      some (rates.mapValues Decimal.unsignedZero).entries := by
  have sameTable :=
    Table.ofList_entries (rates.mapValues Decimal.unsignedZero)
  rw [Json.rates?, Json.members?, Option.bind_eq_bind, Option.bind_some,
    Json.mapM_members Json.decimal?_ofDecimal]
  exact congrArg (fun table => some table.entries) sameTable

private theorem ofJson?_toJson
    {t : RateTable}
    (normal : t.IsNormal) :
    ofJson? t.toJson = some t.unsigned := by
  have sameTable := ofRates_entries (isNormal_unsigned normal)
  obtain ⟨base, rates, updatedAt⟩ := t
  -- A table without a time writes no field for it, so the names written differ.
  cases updatedAt with
  | none =>
      rw [ofJson?,
        ofJson?_bind fieldNames (toJson ⟨base, rates, none⟩) rfl
          (List.sublist_append_left _ ["updated_at"]) rfl,
        required_bind rfl (Json.text?_str _),
        withDefault_bind rfl (rates?_entries rates),
        withDefault_bind_of_missing rfl]
      exact congrArg some sameTable
  | some updatedAt =>
      rw [ofJson?,
        ofJson?_bind fieldNames
          (toJson ⟨base, rates, some updatedAt⟩) rfl (.refl _) rfl,
        required_bind rfl (Json.text?_str _),
        withDefault_bind rfl (rates?_entries rates),
        withDefault_bind rfl (Json.Record.nullable_ofInstant updatedAt)]
      exact congrArg some sameTable

private theorem wordy_toJson
    (t : RateTable) :
    t.toJson.Wordy := by
  refine .obj fun member mem => ?_
  rcases List.mem_append.mp mem with isFirst | isTime
  · rcases List.mem_cons.mp isFirst with isBase | isRates
    · rw [isBase]
      exact .str _
    · rw [List.mem_singleton.mp isRates]
      refine .obj fun rate isRate => ?_
      obtain ⟨entry, -, rfl⟩ := List.mem_map.mp isRate
      exact .str _
  · cases updatedAt : t.updatedAt with
    | none =>
        rw [updatedAt] at isTime
        cases isTime
    | some time =>
        rw [updatedAt] at isTime
        rw [List.mem_singleton.mp isTime]
        exact .str _

private theorem unsigned_eq_iff
    (t : RateTable) :
    t.unsigned = t ↔ ∀ a ∈ t.rates.values, ¬ a.IsSignedZero := by
  have sameRates :
      t.unsigned = t ↔
        ∀ entry ∈ t.rates.entries,
          (entry.1, entry.2.unsignedZero) = entry := by
    obtain ⟨base, rates, updatedAt⟩ := t
    have sameEntries :
        rates.mapValues Decimal.unsignedZero = rates ↔
          (rates.entries.map fun entry =>
            (entry.1, entry.2.unsignedZero)) = rates.entries :=
      ⟨congrArg Table.entries, fun same => Table.eq_of_entries same⟩
    simpa [unsigned, sameEntries] using
      List.map_inj_left (f := fun entry : String × Decimal =>
        (entry.1, entry.2.unsignedZero)) (g := id) (l := rates.entries)
  rw [sameRates]
  simp only [Table.values, List.forall_mem_map, Prod.ext_iff, true_and,
    Decimal.unsignedZero_eq_self_iff]

/-- A rate table in normal form comes back. -/
theorem faithful
    {t : RateTable}
    (normal : t.IsNormal) :
    codec.Faithful t :=
  .of_wordy t.wordy_toJson (ofJson?_toJson normal) t.unsigned_eq_iff

end RateTable

end NetWorth
