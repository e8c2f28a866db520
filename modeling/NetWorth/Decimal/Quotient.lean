import NetWorth.Decimal.Arithmetic
/-!
# The quotient of two decimals

Long division by chunks of at most nine digits.  The integer quotient of the coefficients is
extended until the remainder is zero, the scale is 28, or no further digit fits 96 bits; then the
last digit is rounded half to even.  Zeros that only the chunks have added are removed again, in
groups of eight, four, two and one, each group of the last three at most once.  A quotient that is
rounded to zero has no sign.
-/

namespace NetWorth.Decimal

/-- A quotient under way: the digits so far, their scale, which is negative while integer digits are
still missing, and whether a remainder has forced further digits. -/
structure Digits where
  quotient : Nat
  scale : Int
  extended : Bool

namespace Digits

/-- The largest number of digits that one step adds. -/
def chunk : Nat := 9

/-- The largest `k ≤ most` such that `k` more digits on `q` stay in range. -/
def room (q : Nat) : (most : Nat) → Nat
  | 0 => 0
  | most + 1 => if q * Nat.pow 10 (most + 1) ≤ maxCoefficient then most + 1 else room q most

theorem room_le (q most : Nat) : room q most ≤ most := by
  induction most with
  | zero => simp [room]
  | succ most ih =>
    unfold room
    split <;> omega

/-- Gives up one place of a quotient that is out of range, where `q` is already the shorter
quotient.  There is none to give up at scale zero. -/
def shorten (q : Nat) (scale : Int) : Option Digits :=
  if scale - 1 < 0 then none else some ⟨q, scale - 1, true⟩

/-- Rounds the last digit by the remainder `r`, half to even. -/
def roundLast (divisor q r : Nat) (scale : Int) : Option Digits :=
  if divisor < 2 * r ∨ (2 * r = divisor ∧ q % 2 = 1) then
    if maxCoefficient < q + 1 then shorten ((q + 1 + 5) / 10) scale
    else some ⟨q + 1, scale, true⟩
  else some ⟨q, scale, true⟩

/-- Drops the last digit of a quotient that has grown out of range; `r` is what is left over. -/
def dropLast (q r : Nat) (scale : Int) : Option Digits :=
  let shorter := q / 10
  let last := q % 10
  if 5 < last ∨ (last = 5 ∧ (r ≠ 0 ∨ shorter % 2 = 1)) then shorten (shorter + 1) scale
  else shorten shorter scale

/-- What to do next: stop with these digits, or add `count` digits, which says that a remainder has
forced them. -/
inductive Step where
  | stop (result : Option Digits)
  | add (count : Nat) (forced : Bool)

/-- Decides the next step from the quotient, the remainder and the scale reached. -/
def nextStep (divisor q r : Nat) (scale : Int) (extended : Bool) : Step :=
  if r = 0 then
    if 0 ≤ scale then .stop (some ⟨q, scale, extended⟩)
    else .add (min chunk (-scale).toNat) extended
  else if 28 ≤ scale then .stop (roundLast divisor q r scale)
  else
    let wanted := min chunk (28 - scale).toNat
    let count := room q wanted
    if count < wanted ∧ count + scale < 0 then .stop none
    else if count = 0 then .stop (roundLast divisor q r scale)
    else .add count true

theorem nextStep_add {divisor q r : Nat} {scale : Int} {extended forced : Bool} {count : Nat}
    (h : nextStep divisor q r scale extended = .add count forced) :
    0 < count ∧ scale < 28 := by
  unfold nextStep at h
  by_cases hr : r = 0
  · by_cases hs : 0 ≤ scale
    · simp [hr, hs] at h
    · simp only [hr, hs, if_true, if_false, Step.add.injEq] at h
      have : chunk = 9 := rfl
      omega
  · by_cases hs : 28 ≤ scale
    · simp [hr, hs] at h
    · simp only [hr, hs, if_false] at h
      split at h
      · cases h
      · split at h
        · cases h
        · simp only [Step.add.injEq] at h
          omega

/-- Extends the quotient `q` with remainder `r` until it is exact or full. -/
def extend (divisor q r : Nat) (scale : Int) (extended : Bool) : Option Digits :=
  match _h : nextStep divisor q r scale extended with
  | .stop result => result
  | .add count forced =>
    let grown := q * Nat.pow 10 count
    if maxCoefficient < grown then none
    else
      let q' := grown + r * Nat.pow 10 count / divisor
      let r' := r * Nat.pow 10 count % divisor
      if maxCoefficient < q' then dropLast q' r' (scale + count)
      else extend divisor q' r' (scale + count) forced
termination_by (28 - scale).toNat
decreasing_by
  have := nextStep_add _h
  omega

/-- Removes groups of eight zeros from a quotient whose low 32 bits are zero. -/
def stripEights (q scale : Nat) : Nat × Nat :=
  if h : 8 ≤ scale ∧ q % UInt32.size = 0 ∧ q % 100_000_000 = 0 then
    stripEights (q / 100_000_000) (scale - 8)
  else (q, scale)
termination_by scale

/-- Removes one group of `width` zeros, if they are there. -/
def stripOnce (width : Nat) : Nat × Nat → Nat × Nat
  | (q, scale) =>
    if width ≤ scale ∧ q % Nat.pow 10 width = 0 then (q / Nat.pow 10 width, scale - width)
    else (q, scale)

/-- Removes zeros at the end in groups of eight, four, two and one. -/
def strip (q scale : Nat) : Nat × Nat :=
  stripOnce 1 (stripOnce 2 (stripOnce 4 (stripEights q scale)))

end Digits

/-- The quotient, or nothing when the divisor is zero or the integer part is too large. -/
def div? (a b : Decimal) : Option Decimal :=
  if b.IsZero then none
  else if a.IsZero then some zero
  else
    let n := a.magnitude
    let d := b.magnitude
    match Digits.extend d (n / d) (n % d) (a.scale - b.scale) false with
    | none => none
    | some digits =>
      let (q, scale) :=
        if digits.extended then Digits.strip digits.quotient digits.scale.toNat
        else (digits.quotient, digits.scale.toNat)
      (ofParts? (a.negative != b.negative) q scale).map unsignedZero

end NetWorth.Decimal
