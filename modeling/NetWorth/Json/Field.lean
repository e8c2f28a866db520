import NetWorth.Json.Record
import NetWorth.Time.Instant
import NetWorth.Asset
/-!
# Fields of records

How the values that several records share are written and read as JSON.
-/

namespace NetWorth.Json

/-- Reads a date from its text. -/
def date? (j : Json) : Option Date :=
  j.text?.bind Date.ofText?

/-- Reads an instant from its text. -/
def instant? (j : Json) : Option Instant :=
  j.text?.bind Instant.ofText?

/-- Reads a class of assets from its name. -/
def assetClass? (j : Json) : Option AssetClass :=
  j.choice?.bind AssetClass.ofName?

def ofDate (d : Date) : Json := .str d.toText

def ofInstant (t : Instant) : Json := .str t.toText

def ofAssetClass (c : AssetClass) : Json := .str c.name

/-- A member that is left out when there is no value. -/
def memberIfSome (name : String) (encode : α → Json) : Option α → List (String × Json)
  | none => []
  | some value => [(name, encode value)]

end NetWorth.Json
