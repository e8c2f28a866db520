import NetWorth.Web.Address
import NetWorth.Web.Basic
/-!
# Without a connection

A connection that carries no request.  It still tells requests that could not be sent over any
connection from those that only fail to get through.
-/

namespace NetWorth.Web

/-- Whether a character may stand in the value of a header: no ASCII control but the tabulator. -/
def isHeaderChar (c : Char) : Bool :=
  c == '\t' || (0x20 ≤ c.toNat && c.toNat != 0x7F)

/-- Why a request cannot be sent. -/
def Request.fault (request : Request) : String :=
  let address := Address.significant request.address
  match Address.scheme? address with
  | none => "builder error"
  | some scheme =>
    let isWeb := ["http", "https"].contains scheme
    if isWeb ∧ ¬ Address.isServer (Address.server address) then "builder error"
    else if request.headers.any fun header => !header.2.toList.all isHeaderChar then "builder error"
    else if isWeb then "error sending request for url (" ++ request.address ++ ")"
    else "builder error for url (" ++ request.address ++ ")"

/-- A connection over which no request gets a reply. -/
def Connection.offline {m : Type → Type} [Monad m] (clock : Clock m) : Connection m where
  send request := return .error request.fault
  clock := clock

end NetWorth.Web
