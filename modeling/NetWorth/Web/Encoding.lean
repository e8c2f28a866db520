/-!
# Texts in addresses

Two ways to write a text inside a web address.  Both work on the bytes of the text and write every
byte that is not plain as a percent sign and two digits in base sixteen; they differ in the plain
bytes and in the blank.
-/

namespace NetWorth.Web.Encoding

/-- A digit in base sixteen, with a capital letter. -/
def hexDigit (n : Nat) : Char :=
  (Nat.digitChar n).toUpper

/-- A byte as a percent sign and two digits. -/
def escapeByte (b : UInt8) : List Char :=
  ['%', hexDigit (b.toNat / 16), hexDigit (b.toNat % 16)]

/-- A text whose plain bytes stand for themselves. -/
def encodeWith (isPlain : Char → Bool) (s : String) : List Char :=
  s.toUTF8.toList.flatMap fun b =>
    let c := Char.ofNat b.toNat
    if b < 0x80 ∧ isPlain c then [c] else escapeByte b

/-- A text as a part of a path or of another address. -/
def percent (s : String) : String :=
  String.ofList (encodeWith (fun c => c.isAlphanum || "-._~".toList.contains c) s)

/-- A text as a field of a form, in which a blank is a plus sign. -/
def formField (s : String) : String :=
  String.ofList ((encodeWith (fun c => c.isAlphanum || "*-._ ".toList.contains c) s).map
    fun c => if c = ' ' then '+' else c)

/-- Names and values as the fields of a form. -/
def form (fields : List (String × String)) : String :=
  "&".intercalate (fields.map fun (name, value) => formField name ++ "=" ++ formField value)

/-- An address with further fields in its query. -/
def withQuery (address : String) (fields : List (String × String)) : String :=
  address ++ (if address.toList.contains '?' then "&" else "?") ++ form fields

/-- An address without the slashes at its end. -/
def dropSlashes (address : String) : String :=
  String.ofList (address.toList.reverse.dropWhile (· == '/')).reverse

end NetWorth.Web.Encoding
