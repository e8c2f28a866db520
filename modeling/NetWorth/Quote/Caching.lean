import NetWorth.Quote.Source
import NetWorth.Quote.Store
/-!
# Caching

A source that keeps quotes of another source in a store and serves them while they are fresh.  The
store is a help and never a hindrance: when it fails, the request is answered by the other source.
-/

namespace NetWorth

/-- A source behind a store; `lifetime` is how long a quote stays fresh. -/
structure CachingSource (m : Type → Type) where
  inner : PriceSource m
  store : QuoteStore m
  clock : Clock m
  lifetime : Span

namespace CachingSource

variable {m : Type → Type} [Monad m]

/-- Looks for a fresh entry.  An entry that has expired is removed, unless it has been replaced in
the meantime. -/
def lookup (c : CachingSource m) (key : String) : m (Option Quote) := do
  match ← c.store.get key with
  | .ok (some entry) =>
    let now ← c.clock.now
    if entry.IsFresh now then return some entry.quote
    else
      let _ ← c.store.deleteIfExpired key now
      return none
  | _ => return none

/-- Answers from the store, or asks the inner source for the normal form of the symbol and stores
its quote. -/
def fetch (c : CachingSource m) (assetClass : AssetClass) (symbol : String) : m PriceAnswer := do
  let symbol := normalCode symbol
  let key := priceKey assetClass symbol
  match ← c.lookup key with
  | some quote => return .ok quote
  | none =>
    match ← c.inner.price assetClass symbol with
    | .error e => return .error e
    | .ok quote =>
      let now ← c.clock.now
      let _ ← c.store.set key ⟨quote, now.after c.lifetime⟩
      return .ok quote

/-- The caching source, under the name of the inner one. -/
def source (c : CachingSource m) : PriceSource m where
  name := c.inner.name
  price := c.fetch

end CachingSource

/-- Removes the expired entries of a store once. -/
def sweepOnce {m : Type → Type} [Monad m] (store : QuoteStore m) (clock : Clock m) :
    m (Except String Nat) := do
  store.deleteExpired (← clock.now)

end NetWorth
