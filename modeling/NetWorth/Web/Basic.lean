import NetWorth.Json.Reading
import NetWorth.Quote.Source
import NetWorth.Web.Status
/-!
# The web

Requests and replies as data, and the connection that carries them.  What a reply means is decided
by pure functions; only sending needs the connection.
-/

namespace NetWorth.Web

/-- What a request asks for. -/
inductive Method where
  | get
  | post
deriving DecidableEq

/-- A request to an address. -/
structure Request where
  method : Method
  address : String
  headers : List (String × String)
  /-- The value sent as JSON. -/
  body : Option Json

/-- A reply: its status and the bytes that came with it. -/
structure Reply where
  status : Nat
  body : ByteArray

/-- What `decode` makes of a reply that is written in JSON. -/
def Reply.decode? (reply : Reply) (decode : Json → Option α) : Option α :=
  Json.decodeBytes? decode reply.body

/-- A request without a body. -/
def Request.get (address : String) (headers : List (String × String)) : Request :=
  ⟨.get, address, headers, none⟩

/-- The connection to the web and the time of day. -/
structure Connection (m : Type → Type) where
  /-- Sends a request; a request that gets no reply fails with a cause. -/
  send : Request → m (Except String Reply)
  clock : Clock m

/-- What a provider's answer is worth: the value of a successful reply, or a failure.  `refusal?`
gives some statuses a meaning of their own, and `subject` names what the value should have been. -/
def read (provider subject : String) (refusal? : Nat → Option PriceError)
    (decode : Json → Option α) : Except String Reply → Except PriceError α
  | .error cause => .error (.unavailable provider cause)
  | .ok reply =>
    match refusal? reply.status with
    | some refusal => .error refusal
    | none =>
      if ¬ Status.IsSuccess reply.status then
        .error (.unavailable provider (Status.toText reply.status))
      else
        match reply.decode? decode with
        | some value => .ok value
        | none => .error (.unavailable provider ("undecodable " ++ subject))

end NetWorth.Web
