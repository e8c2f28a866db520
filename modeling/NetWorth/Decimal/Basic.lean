import NetWorth.Text.Numeral
/-!
# Decimal numbers of 96 bits

A decimal is a sign and a magnitude of at most 96 bits over a power of ten of at most 28.  The scale
is part of the value as it is written (`1.50` and `1.5` are two decimals), and so is the sign of a
zero, which a number below zero may keep when it is rounded away.  Order only looks at the number
meant.
-/

namespace NetWorth

/-- The largest magnitude, one less than the 96th power of two. -/
def Decimal.maxCoefficient : Nat := 79_228_162_514_264_337_593_543_950_335

/-- The largest number of places after the point. -/
def Decimal.maxScale : Nat := 28

/-- The decimal `magnitude / 10 ^ scale`, or minus that if it is `negative`. -/
structure Decimal where
  negative : Bool
  magnitude : Nat
  scale : Nat
  magnitude_le : magnitude ≤ Decimal.maxCoefficient
  scale_le : scale ≤ Decimal.maxScale
deriving DecidableEq

namespace Decimal

/-- The integer that a decimal is over `10 ^ scale`. -/
def coefficient (a : Decimal) : Int :=
  if a.negative then -a.magnitude else a.magnitude

/-- The decimal with the given sign, magnitude and scale, if they are in range. -/
def ofParts? (negative : Bool) (magnitude scale : Nat) : Option Decimal :=
  if h : magnitude ≤ maxCoefficient ∧ scale ≤ maxScale then
    some ⟨negative, magnitude, scale, h.1, h.2⟩
  else none

/-- The decimal with the given coefficient and scale, if both are in range.  A zero has no sign. -/
def ofCoefficient? (coefficient : Int) (scale : Nat) : Option Decimal :=
  ofParts? (coefficient < 0) coefficient.natAbs scale

/-- The integer `n` without places, if it is in range. -/
def ofInt? (n : Int) : Option Decimal :=
  ofCoefficient? n 0

def zero : Decimal := ⟨false, 0, 0, by decide, by decide⟩

def one : Decimal := ⟨false, 1, 0, by decide, by decide⟩

def hundred : Decimal := ⟨false, 100, 0, by decide, by decide⟩

instance : Inhabited Decimal := ⟨zero⟩

/-- The same magnitude with the opposite sign, which shows on a zero too. -/
def neg (a : Decimal) : Decimal :=
  { a with negative := !a.negative }

instance : Neg Decimal := ⟨neg⟩

/-- The coefficient of `a` over the product of the denominators of `a` and `b`. -/
def crossed (a b : Decimal) : Int :=
  a.coefficient * Nat.pow 10 b.scale

/-- Order compares the numbers; it ignores the scales, and the sign of a zero. -/
instance : LE Decimal where
  le a b := a.crossed b ≤ b.crossed a

instance : LT Decimal where
  lt a b := a.crossed b < b.crossed a

instance (a b : Decimal) : Decidable (a ≤ b) :=
  inferInstanceAs (Decidable (a.crossed b ≤ b.crossed a))

instance (a b : Decimal) : Decidable (a < b) :=
  inferInstanceAs (Decidable (a.crossed b < b.crossed a))

/-- Two decimals stand for the same number. -/
def Same (a b : Decimal) : Prop :=
  a.crossed b = b.crossed a

instance (a b : Decimal) : Decidable (Same a b) :=
  inferInstanceAs (Decidable (a.crossed b = b.crossed a))

/-- The number is zero, with any number of places and either sign. -/
def IsZero (a : Decimal) : Prop := a.magnitude = 0

instance (a : Decimal) : Decidable a.IsZero :=
  inferInstanceAs (Decidable (a.magnitude = 0))

/-- The number is above zero. -/
def IsPositive (a : Decimal) : Prop := 0 < a.coefficient

instance (a : Decimal) : Decidable a.IsPositive :=
  inferInstanceAs (Decidable (0 < a.coefficient))

/-- The number is below zero. -/
def IsNegative (a : Decimal) : Prop := a.coefficient < 0

instance (a : Decimal) : Decidable a.IsNegative :=
  inferInstanceAs (Decidable (a.coefficient < 0))

/-- The smaller of two decimals, the first if they are the same number. -/
def least (a b : Decimal) : Decimal :=
  if a ≤ b then a else b

/-- The written form: a minus sign if negative, at least one digit before the point, and exactly as
many places as the scale says. -/
def toChars (a : Decimal) : List Char :=
  let digits := Text.Numeral.writePadded (a.scale + 1) a.magnitude
  let whole := digits.take (digits.length - a.scale)
  let places := digits.drop (digits.length - a.scale)
  (if a.negative then ['-'] else []) ++ whole ++
    (if a.scale = 0 then [] else '.' :: places)

/-- The written form as a text. -/
def toText (a : Decimal) : String :=
  String.ofList a.toChars

instance : ToString Decimal := ⟨toText⟩

end Decimal

end NetWorth
