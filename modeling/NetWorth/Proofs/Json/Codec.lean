import Mathlib
import NetWorth.Proofs.Json.Reading
import NetWorth.Proofs.Json.Record

/-!
# Codecs

A kind of record is written as JSON and read from it.  What is read is what was
written, except that a zero has lost its minus sign; all else that a record is
made of comes back, whether it is handed on as a value, on one line or over
several.
-/

namespace NetWorth.Json

/-- How the values of one kind are written as JSON and read. -/
structure Codec
    (Value : Type) where
  encode : Value → Json
  decode? : Json → Option Value
  /-- The decimals that are part of a value. -/
  decimals : Value → List Decimal
  /-- The value with the minus signs of its zeros left out. -/
  unsigned : Value → Value

namespace Codec

variable
  {Value : Type}
  {codec : Codec Value}
  {value : Value}

/-- A value that is written is read as it was, but for the signs of zeros; if it
has no zero with a minus sign, it is read as the same value. -/
structure Faithful
    (codec : Codec Value)
    (value : Value) :
    Prop where
  fromJson :
    codec.decode? (codec.encode value) = some (codec.unsigned value)
  fromLine :
    Json.decode? codec.decode? (codec.encode value).render =
      some (codec.unsigned value)
  fromLines :
    Json.decode? codec.decode? (codec.encode value).pretty =
      some (codec.unsigned value)
  unsigned_eq_iff :
    codec.unsigned value = value ↔
      ∀ a ∈ codec.decimals value, ¬ a.IsSignedZero

/-- Texts come back from a value that comes back and is legible throughout. -/
theorem Faithful.of_wordy
    (wordy : (codec.encode value).Wordy)
    (fromJson :
      codec.decode? (codec.encode value) = some (codec.unsigned value))
    (unsigned_eq_iff :
      codec.unsigned value = value ↔
        ∀ a ∈ codec.decimals value, ¬ a.IsSignedZero) :
    codec.Faithful value where
  fromJson := fromJson
  fromLine := (decode?_render wordy _).trans fromJson
  fromLines := (decode?_pretty wordy _).trans fromJson
  unsigned_eq_iff := unsigned_eq_iff

/-- A value without a zero that has a minus sign comes back. -/
theorem Faithful.unsigned_eq
    (faithful : codec.Faithful value)
    (noSignedZero : ∀ a ∈ codec.decimals value, ¬ a.IsSignedZero) :
    codec.unsigned value = value :=
  faithful.unsigned_eq_iff.mpr noSignedZero

/-- A list stays as it is if all its values do. -/
theorem map_unsigned_eq_iff
    {values : List Value}
    (faithful : ∀ value ∈ values, codec.Faithful value) :
    values.map codec.unsigned = values ↔
      ∀ a ∈ values.flatMap codec.decimals, ¬ a.IsSignedZero := by
  have eachStays :
      values.map codec.unsigned = values ↔
        ∀ value ∈ values, codec.unsigned value = value := by
    simpa using
      List.map_inj_left (f := codec.unsigned) (g := id) (l := values)
  rw [eachStays]
  constructor
  · intro stays a mem
    obtain ⟨value, isValue, isDecimal⟩ := List.mem_flatMap.mp mem
    exact (faithful value isValue).unsigned_eq_iff.mp (stays value isValue) a
      isDecimal
  · intro noSignedZero value isValue
    exact (faithful value isValue).unsigned_eq fun a isDecimal =>
      noSignedZero a (List.mem_flatMap.mpr ⟨value, isValue, isDecimal⟩)

end Codec

end NetWorth.Json
