import NetWorth.Text.Numeral
/-!
# Addresses

The parts of a web address that decide whether a request can be sent to it: the scheme, and the
server with its port.  Blanks and controls around an address do not count, and neither do line
breaks and tabulators inside.
-/

namespace NetWorth.Web.Address

/-- The characters of an address that count. -/
def significant (address : String) : List Char :=
  let isOuter (c : Char) := c.toNat ≤ 0x20
  let inner := (address.toList.dropWhile isOuter).reverse.dropWhile isOuter
  inner.reverse.filter fun c => c != '\t' && c != '\n' && c != '\r'

/-- The scheme of an address in small letters. -/
def scheme? (address : List Char) : Option String :=
  let front := address.takeWhile (· != ':')
  match front with
  | c :: _ =>
    if c.isAlpha ∧ front.length < address.length ∧
        front.all fun c => c.isAlphanum || "+-.".toList.contains c then
      some (String.ofList (front.map Char.toLower))
    else none
  | [] => none

/-- What names the server: it follows the scheme and any slashes, ends before the path, and may
follow the name of a user. -/
def server (address : List Char) : List Char :=
  let isSlash c := c == '/' || c == '\\'
  let rest := ((address.dropWhile (· != ':')).drop 1).dropWhile isSlash
  let whole := rest.takeWhile fun c => !isSlash c && c != '?' && c != '#'
  (whole.reverse.takeWhile (· != '@')).reverse

/-- Whether a character may stand in the name of a host. -/
def isHostChar (c : Char) : Bool :=
  0x20 < c.toNat && c.toNat != 0x7F && !"#%/:<>?@[\\]^|".toList.contains c

/-- Whether a server has a host, and after a colon a port of 16 bits or none.  A host between
brackets is written in groups of digits. -/
def isServer (server : List Char) : Bool :=
  let isEnclosed := server.head? == some '['
  let host := server.takeWhile fun c => c != (if isEnclosed then ']' else ':')
  let after := server.drop (host.length + if isEnclosed then 1 else 0)
  let isHost :=
    if isEnclosed then
      host.length < server.length && 2 < host.length &&
        (host.drop 1).all fun c => c.isDigit || c == ':' || c == '.' ||
          ('a' ≤ c.toLower && c.toLower ≤ 'f')
    else !host.isEmpty && host.all isHostChar
  let isPort := match after with
    | [] => true
    | ':' :: digits => digits.all Char.isDigit && Text.Numeral.value digits < UInt16.size
    | _ => false
  isHost && isPort

end NetWorth.Web.Address
