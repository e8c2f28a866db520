import NetWorth.Quote.Basic
import NetWorth.Table
/-!
# Stores of cached quotes

A store keeps cached quotes under keys.  Besides reading and writing it can remove an entry on the
condition that it has expired, checked on the entry that is stored at that moment.
-/

namespace NetWorth

/-- The calls of a store; each may fail with a cause. -/
structure QuoteStore (m : Type → Type) where
  get : String → m (Except String (Option CachedQuote))
  set : String → CachedQuote → m (Except String Unit)
  delete : String → m (Except String Unit)
  /-- Removes an entry that is no longer fresh; answers whether there was one. -/
  deleteIfExpired : String → Instant → m (Except String Bool)
  /-- Removes every entry that is no longer fresh; answers how many there were. -/
  deleteExpired : Instant → m (Except String Nat)

/-- The same store with its calls run in another monad. -/
def QuoteStore.hoist {m n : Type → Type} (lift : {α : Type} → m α → n α) (store : QuoteStore m) :
    QuoteStore n where
  get key := lift (store.get key)
  set key entry := lift (store.set key entry)
  delete key := lift (store.delete key)
  deleteIfExpired key now := lift (store.deleteIfExpired key now)
  deleteExpired now := lift (store.deleteExpired now)

/-- The entries of a store by their keys. -/
abbrev QuoteTable := Table String CachedQuote

namespace QuoteTable

/-- Removes an entry that is no longer fresh; says whether there was one. -/
def dropIfExpired (t : QuoteTable) (key : String) (now : Instant) : Bool × QuoteTable :=
  match t.get? key with
  | some entry => if entry.IsFresh now then (false, t) else (true, t.erase key)
  | none => (false, t)

/-- Removes every entry that is no longer fresh; says how many there were. -/
def dropExpired (t : QuoteTable) (now : Instant) : Nat × QuoteTable :=
  let kept := t.filter fun _ entry => entry.IsFresh now
  (t.size - kept.size, kept)

/-- The store that keeps its entries in memory: it never fails. -/
def memoryStore : QuoteStore (StateM QuoteTable) where
  get key := return .ok ((← get).get? key)
  set key entry := do
    modify (·.insert key entry)
    return .ok ()
  delete key := do
    modify (·.erase key)
    return .ok ()
  deleteIfExpired key now := do
    let (dropped, t) := (← get).dropIfExpired key now
    set t
    return .ok dropped
  deleteExpired now := do
    let (count, t) := (← get).dropExpired now
    set t
    return .ok count

end QuoteTable

end NetWorth
