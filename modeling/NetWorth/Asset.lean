import NetWorth.Text.Blank
import NetWorth.Text.Uppercase
/-!
# Assets and their codes

The two classes of assets, and the normal form of symbols and currency codes: trimmed and in upper
case.  Everything that is looked up by a code is looked up by its normal form.
-/

namespace NetWorth

/-- The classes of assets that prices are quoted for. -/
inductive AssetClass where
  | stock
  | crypto
deriving DecidableEq

namespace AssetClass

/-- The name of a class. -/
def name : AssetClass → String
  | stock => "stock"
  | crypto => "crypto"

/-- Stocks come before crypto assets. -/
def rank : AssetClass → Nat
  | stock => 0
  | crypto => 1

/-- The class with exactly this name. -/
def ofName? (s : String) : Option AssetClass :=
  [stock, crypto].find? (·.name == s)

/-- The text as it is compared with the names: trimmed, ASCII letters small. -/
def folded (s : String) : String :=
  String.ofList ((Text.trimChars s.toList).map Char.toLower)

/-- Reads a class in either case, with blanks around it; a failure gives the message. -/
def ofText (s : String) : Except String AssetClass :=
  match ofName? (folded s) with
  | some assetClass => .ok assetClass
  | none => .error ("invalid asset class: " ++ folded s)

end AssetClass

/-- The normal form of symbols and currency codes. -/
def normalCode (code : String) : String :=
  String.ofList (Text.upperChars (Text.trimChars code.toList))

/-- Whether a stock symbol is listed in Taiwan: its first character is a digit. -/
def isTaiwanListed (symbol : String) : Bool :=
  match Text.dropBlanks symbol.toList with
  | [] => false
  | c :: _ => c.isDigit

/-- The key under which the price of an asset is stored. -/
def priceKey (assetClass : AssetClass) (symbol : String) : String :=
  assetClass.name ++ "_" ++ symbol

end NetWorth
