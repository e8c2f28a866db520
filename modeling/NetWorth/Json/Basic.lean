import NetWorth.Binary64.Shortest
/-!
# JSON values

A value keeps the members of an object in the order in which they are written, repeated names
included, so that a reader of records can refuse a repetition.  A text may be well formed and still
contain what stands for no value, such as a number out of range; that only matters to those who
look.
-/

namespace NetWorth

/-- A number: an integer that fits 64 bits with or without a sign, or a binary floating point
number. -/
inductive JsonNumber where
  | int (n : Int)
  | float (negative : Bool) (magnitude : Binary64)
deriving DecidableEq

/-- A JSON value. -/
inductive Json where
  | null
  | bool (b : Bool)
  | num (n : JsonNumber)
  | str (s : String)
  | arr (items : List Json)
  | obj (members : List (String × Json))
  /-- What is well formed and stands for no value. -/
  | illegible

namespace Json

instance : Inhabited Json := ⟨.null⟩

/-- The value of a member, the last one written if the name is repeated. -/
def get? (name : String) : Json → Option Json
  | .obj members => (members.reverse.find? (·.1 == name)).map (·.2)
  | _ => none

/-- An integer as a value. -/
def ofInt (n : Int) : Json :=
  .num (.int n)

/-- The value of a text. -/
def text? : Json → Option String
  | .str s => some s
  | _ => none

/-- The items of an array. -/
def items? : Json → Option (List Json)
  | .arr items => some items
  | _ => none

/-- The members of an object. -/
def members? : Json → Option (List (String × Json))
  | .obj members => some members
  | _ => none

mutual

/-- Whether every part of a value is legible, with containers nested at most `depth` deep. -/
def legible (depth : Nat) : Json → Bool
  | .arr items => 0 < depth && legibleItems (depth - 1) items
  | .obj members => 0 < depth && legibleMembers (depth - 1) members
  | .illegible => false
  | _ => true

/-- Whether every item is legible. -/
def legibleItems (depth : Nat) : List Json → Bool
  | [] => true
  | item :: rest => legible depth item && legibleItems depth rest

/-- Whether the value of every member is legible. -/
def legibleMembers (depth : Nat) : List (String × Json) → Bool
  | [] => true
  | (_, value) :: rest => legible depth value && legibleMembers depth rest

end

/-- The largest number of containers that are open at once in a text of which every part counts. -/
def maxDepth : Nat := 127

/-- Reads a value only if every part of it counts as well. -/
def whole? (depth : Nat) (decode : Json → Option α) (j : Json) : Option α :=
  if j.legible depth then decode j else none

end Json

end NetWorth
