import NetWorth.Json.Basic
import NetWorth.Decimal.Reading
/-!
# Records as JSON

A record has named fields in a fixed order.  It is written as an object, whose unknown members are
ignored and whose known members are not repeated, or as an array of its fields in order, whose last
ones may be missing where they have defaults.
-/

namespace NetWorth.Json

/-- The known fields that a record gives, and whether it is written as an array. -/
structure Record where
  fields : List (String × Json)
  isRow : Bool

namespace Record

/-- Whether no name occurs twice. -/
def distinct : List String → Bool
  | [] => true
  | name :: rest => !rest.contains name && distinct rest

/-- The fields of a record with the given names. -/
def ofJson? (names : List String) : Json → Option Record
  | .obj members =>
    let known := members.filter fun member => names.contains member.1
    if distinct (known.map (·.1)) then some ⟨known, false⟩ else none
  | .arr items => if items.length ≤ names.length then some ⟨names.zip items, true⟩ else none
  | _ => none

/-- The value of a field, if it is given. -/
def field? (r : Record) (name : String) : Option Json :=
  (r.fields.find? (·.1 == name)).map (·.2)

/-- A field that must be given. -/
def required (r : Record) (name : String) (decode : Json → Option α) : Option α :=
  (r.field? name).bind decode

/-- A field with a default for when it is missing. -/
def withDefault (r : Record) (name : String) (default : α) (decode : Json → Option α) : Option α :=
  match r.field? name with
  | none => some default
  | some value => decode value

/-- Reads `null` as nothing. -/
def nullable (decode : Json → Option α) : Json → Option (Option α)
  | .null => some none
  | value => (decode value).map some

/-- A field that may be `null`, and may be missing from an object but not from an array. -/
def optional (r : Record) (name : String) (decode : Json → Option α) : Option (Option α) :=
  match r.field? name with
  | none => if r.isRow then none else some none
  | some value => nullable decode value

end Record

/-- Reads a decimal from a text, or from a number by way of its shortest digits. -/
def decimal? : Json → Option Decimal
  | .str s => Decimal.ofText? s
  | .num (.int n) => Decimal.ofInt? n
  | .num (.float negative x) =>
    Decimal.ofText? (String.ofList ((if negative then ['-'] else []) ++ x.toChars))
  | _ => none

/-- A decimal is written as a text, which keeps its scale. -/
def ofDecimal (a : Decimal) : Json :=
  .str a.toText

/-- The name of a choice without contents: a text, or an object with that one name and `null`. -/
def choice? : Json → Option String
  | .str s => some s
  | .obj [(name, .null)] => some name
  | _ => none

/-- Reads each item of an array. -/
def list? (decode : Json → Option α) (j : Json) : Option (List α) := do
  (← j.items?).mapM decode

end NetWorth.Json
