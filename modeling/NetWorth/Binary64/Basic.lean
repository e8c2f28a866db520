import NetWorth.Decimal.Arithmetic
/-!
# Binary floating point of 64 bits

The finite numbers of the format that are not negative, and the rounding of an exact ratio to the
nearest of them, half to even.  Numbers of other formats pass through this one on their way to
decimals, so its rounding shows.
-/

namespace NetWorth

/-- The number `mantissa * 2 ^ exponent`. -/
structure Binary64 where
  mantissa : Nat
  exponent : Int
deriving DecidableEq

namespace Binary64

/-- The exponent of the last bit of the smallest numbers. -/
def leastExponent : Int := -1074

/-- The exponent of the last bit of the largest numbers. -/
def greatestExponent : Int := 971

/-- A full mantissa has this many bits. -/
def precision : Nat := 53

def zero : Binary64 := ⟨0, leastExponent⟩

/-- The number as a numerator over a denominator. -/
def ratio (x : Binary64) : Nat × Nat :=
  (x.mantissa * Nat.pow 2 x.exponent.toNat, Nat.pow 2 (-x.exponent).toNat)

/-- The exponent of the largest power of two that is at most `n / d`, for `n` and `d` above zero. -/
def binade (n d : Nat) : Int :=
  let estimate : Int := (Nat.log2 n : Int) - Nat.log2 d
  if d * Nat.pow 2 estimate.toNat ≤ n * Nat.pow 2 (-estimate).toNat then estimate else estimate - 1

/-- The number nearest to `n / d`, a half to the even neighbour, or nothing beyond the largest. -/
def ofRatio? (n d : Nat) : Option Binary64 :=
  if n = 0 then some zero
  else
    let exponent := max (binade n d - (precision - 1 : Nat)) leastExponent
    let mantissa :=
      Decimal.roundedQuotient (n * Nat.pow 2 (-exponent).toNat) (d * Nat.pow 2 exponent.toNat)
    let rounded :=
      if mantissa = Nat.pow 2 precision then (⟨Nat.pow 2 (precision - 1), exponent + 1⟩ : Binary64)
      else ⟨mantissa, exponent⟩
    if greatestExponent < rounded.exponent then none else some rounded

/-- The product, rounded. -/
def mul? (x y : Binary64) : Option Binary64 :=
  ofRatio? (x.ratio.1 * y.ratio.1) (x.ratio.2 * y.ratio.2)

/-- The quotient by a number above zero, rounded. -/
def div? (x y : Binary64) : Option Binary64 :=
  ofRatio? (x.ratio.1 * y.ratio.2) (x.ratio.2 * y.ratio.1)

end Binary64

end NetWorth
