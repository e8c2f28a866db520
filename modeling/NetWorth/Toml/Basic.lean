/-!
# TOML values

The values of a configuration text.  A table remembers how it was begun, because that decides what
may be added to it later.
-/

namespace NetWorth

namespace Toml

/-- How a table was begun. -/
inductive Origin where
  /-- Between braces; nothing can be added. -/
  | inline
  /-- By a header of its own. -/
  | header
  /-- On the way to the table of a header. -/
  | path
  /-- On the way to the key of a pair. -/
  | dotted
deriving DecidableEq

end Toml

/-- A value of a configuration.  Floating point numbers and times are kept as they are written. -/
inductive Toml where
  | text (s : String)
  | integer (n : Int)
  | float (written : String)
  | boolean (b : Bool)
  | time (written : String)
  | array (items : List Toml)
  | table (origin : Toml.Origin) (entries : List (String × Toml))
  /-- The tables of repeated headers, in order. -/
  | tables (elements : List (List (String × Toml)))

namespace Toml

instance : Inhabited Toml := ⟨.boolean false⟩

/-- Keys and their values in the order of their first appearance. -/
abbrev Entries := List (String × Toml)

/-- The value of a text. -/
def text? : Toml → Option String
  | .text s => some s
  | _ => none

/-- The items of an array, which may be an array of tables. -/
def items? : Toml → Option (List Toml)
  | .array items => some items
  | .tables elements => some (elements.map (.table .header))
  | _ => none

end Toml

end NetWorth
