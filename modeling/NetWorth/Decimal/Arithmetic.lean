import NetWorth.Decimal.Basic
/-!
# Sums and products of decimals

A sum or product is first taken exactly and then fitted: the fewest low digits are dropped such that
the rest is in range, and what is dropped is rounded half to even.  A sum of two numbers that comes
to zero has no sign; a product that is rounded to zero keeps its sign, unless both factors are
short.
-/

namespace NetWorth.Decimal

/-- The quotient of two natural numbers to the nearest integer, a half to the even neighbour. -/
def roundedQuotient (n d : Nat) : Nat :=
  let q := n / d
  let r := n % d
  if d < 2 * r ∨ (2 * r = d ∧ q % 2 = 1) then q + 1 else q

/-- A sign and `n / 10 ^ scale`, rounded to `places` places, if that is in range. -/
def roundTo? (negative : Bool) (n scale places : Nat) : Option Decimal :=
  ofParts? negative (roundedQuotient n (Nat.pow 10 (scale - places))) places

/-- A sign and `n / 10 ^ scale`, rounded to as many places as fit, but no more than `places`. -/
def fitAt? (negative : Bool) (n scale : Nat) : (places : Nat) → Option Decimal
  | 0 => roundTo? negative n scale 0
  | fewer + 1 => (roundTo? negative n scale (fewer + 1)).or (fitAt? negative n scale fewer)

/-- A sign and `n / 10 ^ scale` as a decimal, rounded where it has too many digits, or nothing when
its integer part is too large. -/
def fit? (negative : Bool) (n scale : Nat) : Option Decimal :=
  fitAt? negative n scale (min scale maxScale)

/-- The coefficient that a decimal has when it is written with at least as many places. -/
def coefficientAt (a : Decimal) (places : Nat) : Int :=
  a.coefficient * Nat.pow 10 (places - a.scale)

/-- The sum.  Adding a zero leaves the other term as it is written. -/
def add? (a b : Decimal) : Option Decimal :=
  if a.IsZero then some b
  else if b.IsZero then some a
  else
    let scale := max a.scale b.scale
    let sum := a.coefficientAt scale + b.coefficientAt scale
    fit? (sum < 0) sum.natAbs scale

/-- The difference, as the sum with the opposite, where a zero counts as its own opposite. -/
def sub? (a b : Decimal) : Option Decimal :=
  a.add? (if b.IsZero then b else -b)

/-- A zero without its sign; every other number as it is. -/
def unsignedZero (a : Decimal) : Decimal :=
  if a.IsZero then { a with negative := false } else a

/-- A factor whose magnitude fits 32 bits. -/
def IsShort (a : Decimal) : Prop := a.magnitude < UInt32.size

instance (a : Decimal) : Decidable a.IsShort :=
  inferInstanceAs (Decidable (a.magnitude < UInt32.size))

/-- The largest scale at which the product of two short factors keeps a digit. -/
def shortProductScale : Nat := 47

/-- The product.  A zero factor gives a plain zero. -/
def mul? (a b : Decimal) : Option Decimal :=
  let scale := a.scale + b.scale
  let product := fit? (a.negative != b.negative) (a.magnitude * b.magnitude) scale
  if a.IsZero ∨ b.IsZero then some zero
  else if a.IsShort ∧ b.IsShort then
    if shortProductScale < scale then some zero else product.map unsignedZero
  else product

/-- The sum of a list from the left, if every partial sum is in range. -/
def sumFrom? (start : Decimal) (terms : List Decimal) : Option Decimal :=
  terms.foldlM add? start

/-- Removes the zeros at the end of the places.  A zero becomes the plain one. -/
def trimZeros (a : Decimal) : Decimal :=
  if a.IsZero then zero
  else
    match h : a.scale with
    | 0 => a
    | fewer + 1 =>
      if a.magnitude % 10 = 0 then
        trimZeros ⟨a.negative, a.magnitude / 10, fewer, by have := a.magnitude_le; omega,
          by have := a.scale_le; omega⟩
      else a
termination_by a.scale

end NetWorth.Decimal
