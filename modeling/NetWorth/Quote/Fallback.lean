import NetWorth.Quote.Source
/-!
# Fallback

A second source that is asked only when the first one is unavailable.
-/

namespace NetWorth.PriceSource

variable {m : Type → Type} [Monad m]

/-- Asks the first source, and the second one if the first is unavailable and there is a second. -/
def fallback (primary : PriceSource m) (secondary : Option (PriceSource m)) : PriceSource m where
  name := "fallback"
  price assetClass symbol := do
    match ← primary.price assetClass symbol with
    | .error (.unavailable provider message) =>
      match secondary with
      | some second => second.price assetClass symbol
      | none => return .error (.unavailable provider message)
    | answer => return answer

end NetWorth.PriceSource
