import Mathlib
import NetWorth.Json.Field
import NetWorth.Proofs.Decimal.Reading
import NetWorth.Proofs.Json.Token
import NetWorth.Proofs.Time.Instant

/-!
# Records as they are written

A record that is written with its fields in their order is taken for those
fields, and each kind of field is read as it was written.
-/

namespace NetWorth.Json

namespace Record

theorem distinct_iff_nodup
    {names : List String} :
    distinct names = true ↔ names.Nodup := by
  induction names with
  | nil => exact iff_of_true rfl List.nodup_nil
  | cons name rest inductionHypothesis =>
      simp [distinct, inductionHypothesis]

/-- An object with names of a record in their order gives its members. -/
theorem ofJson?_bind
    {Rest : Type}
    (names : List String)
    (j : Json)
    {members : List (String × Json)}
    (isObject : j = .obj members)
    (inOrder : (members.map (·.1)).Sublist names)
    (once : distinct names = true)
    (next : Record → Option Rest) :
    (ofJson? names j >>= next) = next ⟨members, false⟩ := by
  have allKnown :
      members.filter (fun member => names.contains member.1) = members := by
    rw [List.filter_eq_self]
    intro member mem
    rw [List.contains_iff_mem]
    exact inOrder.subset (List.mem_map_of_mem mem)
  have stillOnce : distinct (members.map (·.1)) = true :=
    distinct_iff_nodup.mpr (inOrder.nodup (distinct_iff_nodup.mp once))
  rw [isObject, ofJson?]
  simp only [allKnown, stillOnce, if_true]
  rfl

section Fields

variable
  {Value Rest : Type}
  {r : Record}
  {name : String}
  {decode : Json → Option Value}
  {found : Json}
  {value : Value}

/-- A required field that is read hands its value on. -/
theorem required_bind
    (isField : r.field? name = some found)
    (isRead : decode found = some value)
    (next : Value → Option Rest) :
    (r.required name decode >>= next) = next value := by
  rw [required, isField, Option.bind_some, isRead]
  rfl

/-- A field with a default that is given hands its value on. -/
theorem withDefault_bind
    {default : Value}
    (isField : r.field? name = some found)
    (isRead : decode found = some value)
    (next : Value → Option Rest) :
    (r.withDefault name default decode >>= next) = next value := by
  rw [withDefault, isField]
  dsimp only
  rw [isRead]
  rfl

/-- A field with a default that is missing hands its default on. -/
theorem withDefault_bind_of_missing
    {default : Value}
    (missing : r.field? name = none)
    (next : Value → Option Rest) :
    (r.withDefault name default decode >>= next) = next default := by
  rw [withDefault, missing]
  rfl

/-- An optional field that is given hands its value on. -/
theorem optional_bind
    {result : Option Value}
    (isField : r.field? name = some found)
    (isRead : nullable decode found = some result)
    (next : Option Value → Option Rest) :
    (r.optional name decode >>= next) = next result := by
  rw [optional, isField]
  dsimp only
  rw [isRead]
  rfl

/-- An optional field that an object does not give is nothing. -/
theorem optional_bind_of_missing
    (isObject : r.isRow = false)
    (missing : r.field? name = none)
    (next : Option Value → Option Rest) :
    (r.optional name decode >>= next) = next none := by
  rw [optional, missing]
  dsimp only
  rw [isObject]
  rfl

end Fields

end Record

@[simp] theorem text?_str
    (s : String) :
    text? (.str s) = some s := rfl

/-- A decimal comes back without the sign of a zero. -/
@[simp] theorem decimal?_ofDecimal
    (a : Decimal) :
    decimal? (.ofDecimal a) = some a.unsignedZero :=
  Decimal.ofText?_toText a

@[simp] theorem date?_ofDate
    (d : Date) :
    date? (.ofDate d) = some d := by
  rw [ofDate, date?, text?_str, Option.bind_some, Date.ofText?_toText]

@[simp] theorem instant?_ofInstant
    (t : Instant) :
    instant? (.ofInstant t) = some t := by
  rw [ofInstant, instant?, text?_str, Option.bind_some, Instant.ofText?_toText]

@[simp] theorem assetClass?_ofAssetClass
    (assetClass : AssetClass) :
    assetClass? (.ofAssetClass assetClass) = some assetClass := by
  rw [ofAssetClass, assetClass?, choice?, Option.bind_some]
  cases assetClass <;> simp [AssetClass.ofName?, AssetClass.name]

/-- A decimal that may be missing is read as nothing from `null`. -/
@[simp] theorem Record.nullable_ofDecimal
    (a : Option Decimal) :
    nullable decimal? ((a.map ofDecimal).getD .null) =
      some (a.map Decimal.unsignedZero) := by
  cases a with
  | none => rfl
  | some a =>
      change (decimal? (.ofDecimal a)).map some = _
      rw [decimal?_ofDecimal]
      rfl

/-- A value that is written is not taken for nothing. -/
@[simp] theorem Record.nullable_ofInstant
    (t : Instant) :
    nullable instant? (.ofInstant t) = some (some t) := by
  change (instant? (.ofInstant t)).map some = _
  rw [instant?_ofInstant]
  rfl

section Rows

variable
  {Value Result : Type}
  {decode : Json → Option Result}

/-- What is read one by one is read in a row. -/
private theorem mapM_map
    {Written : Type}
    {write : Value → Written}
    {read : Written → Option Result}
    {result : Value → Result}
    {values : List Value}
    (eachRead :
      ∀ value ∈ values, read (write value) = some (result value)) :
    (values.map write).mapM read = some (values.map result) := by
  induction values with
  | nil => rfl
  | cons value others inductionHypothesis =>
      rw [List.forall_mem_cons] at eachRead
      rw [List.map_cons, List.mapM_cons, eachRead.1,
        inductionHypothesis eachRead.2]
      rfl

/-- Items that are each read come back as a list. -/
theorem list?_map
    {encode : Value → Json}
    {result : Value → Result}
    {items : List Value}
    (itemsRead :
      ∀ item ∈ items, decode (encode item) = some (result item)) :
    list? decode (.arr (items.map encode)) = some (items.map result) := by
  rw [list?, items?, Option.bind_eq_bind, Option.bind_some]
  exact mapM_map itemsRead

/-- Members whose values are each read come back under their names. -/
theorem mapM_members
    {encode : Value → Json}
    {result : Value → Result}
    (valuesRead : ∀ value, decode (encode value) = some (result value))
    (entries : List (String × Value)) :
    (entries.map fun entry => (entry.1, encode entry.2)).mapM
        (fun (member : String × Json) => do
          return (member.1, ← decode member.2)) =
      some (entries.map fun entry => (entry.1, result entry.2)) := by
  refine mapM_map fun entry _ => ?_
  rw [valuesRead]
  rfl

end Rows

/-! ## Legible records -/

/-- A text, or nothing. -/
def isPlain :
    Json → Bool
  | .str _ => true
  | .null => true
  | _ => false

/-- An object of texts and nothing else is legible throughout. -/
theorem wordy_of_plain
    {members : List (String × Json)}
    (plain : members.all (·.2.isPlain) = true) :
    Wordy (.obj members) := by
  refine .obj fun member mem => ?_
  have isPlain := List.all_eq_true.mp plain member mem
  cases value : member.2 with
  | str s => exact .str s
  | null => exact .null
  | bool | num | arr | obj | illegible =>
      rw [value] at isPlain
      cases isPlain

/-- A value of which every part counts is read like any other. -/
theorem whole?_of_legible
    {Value : Type}
    {depth : Nat}
    {j : Json}
    (legible : j.legible depth = true)
    (decode : Json → Option Value) :
    whole? depth decode j = decode j :=
  if_pos legible

end NetWorth.Json
