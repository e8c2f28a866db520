import NetWorth.Binary64.Basic
import NetWorth.Text.Numeral
/-!
# The shortest decimal of a binary number

The fewest digits that read back as the same number: for one digit, two digits and so on, the two
neighbours of the number on that decimal grid are tested, and the first grid with a hit wins.  Of
two hits the nearer is taken, of two equally near ones the upper one.
-/

namespace NetWorth.Binary64

/-- The digits `digits` scaled by `10 ^ exponent`. -/
structure Shortest where
  digits : Nat
  exponent : Int

/-- The interval of the numbers that round to `x`: its lower end, `x` itself and its upper end, as
numerators over one denominator, which comes last.  Below a power of two the numbers lie twice as
close. -/
def interval (x : Binary64) : Nat × Nat × Nat × Nat :=
  let unit := Nat.pow 2 x.exponent.toNat
  let (n, d) := x.ratio
  let isPower := x.mantissa = Nat.pow 2 (precision - 1) ∧ leastExponent < x.exponent
  let below := if isPower then unit else 2 * unit
  (4 * n - below, 4 * n, 4 * n + 2 * unit, 4 * d)

/-- Whether `n / d` rounds to `x`. -/
def roundsTo (x : Binary64) (n d : Nat) : Bool :=
  let (low, _, high, unit) := x.interval
  if x.mantissa % 2 = 0 then low * d ≤ n * unit && n * unit ≤ high * d
  else low * d < n * unit && n * unit < high * d

/-- The number of digits before the point, or minus the number of zeros after it, of `n / d` above
zero. -/
def magnitude (n d : Nat) : Int :=
  if d ≤ n then (Text.Numeral.write (n / d)).length
  else
    let quotient := d / n
    let guess := (Text.Numeral.write quotient).length
    if d ≤ n * Nat.pow 10 (guess - 1) then -(guess - 2 : Int) else -(guess - 1 : Int)

/-- The neighbour of `x` with `count` digits that reads back, if there is one. -/
def withDigits? (x : Binary64) (count : Nat) : Option Shortest :=
  let (n, d) := x.ratio
  let exponent := magnitude n d - count
  let scaled := n * Nat.pow 10 (-exponent).toNat
  let unit := d * Nat.pow 10 exponent.toNat
  let low := scaled / unit
  let reads (m : Nat) := x.roundsTo (m * Nat.pow 10 exponent.toNat) (Nat.pow 10 (-exponent).toNat)
  let rest := scaled % unit
  let (near, far) := if unit ≤ 2 * rest then (low + 1, low) else (low, low + 1)
  let settle (m : Nat) : Shortest :=
    if m = Nat.pow 10 count then ⟨Nat.pow 10 (count - 1), exponent + 1⟩ else ⟨m, exponent⟩
  if reads near then some (settle near)
  else if reads far then some (settle far)
  else none

/-- The shortest digits; seventeen always suffice. -/
def shortest (x : Binary64) : Shortest :=
  if x.mantissa = 0 then ⟨0, 0⟩
  else ((List.range 17).findSome? fun k => x.withDigits? (k + 1)).getD ⟨0, 0⟩

/-- The shortest digits with a point where one is needed and without an exponent. -/
def toChars (x : Binary64) : List Char :=
  let s := x.shortest
  let digits := Text.Numeral.write s.digits
  if 0 ≤ s.exponent then
    if s.digits = 0 then digits else digits ++ List.replicate s.exponent.toNat '0'
  else
    let places := (-s.exponent).toNat
    let padded := Text.Numeral.pad (places + 1) digits
    padded.take (padded.length - places) ++ '.' :: padded.drop (padded.length - places)

end NetWorth.Binary64
