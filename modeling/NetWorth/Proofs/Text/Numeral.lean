import Mathlib
import NetWorth.Text.Numeral

/-!
# Numerals read back

A numeral stands for the number that it was written for, with any padding, and
a reader that takes digits from the front of a text stops where it ends.  A
reader of whole texts takes digits and nothing else, but for a plus sign.
-/

namespace NetWorth.Text.Numeral

theorem value_write
    (n : Nat) :
    value (write n) = n :=
  Nat.ofDigitChars_ten_toDigits

theorem value_pad
    (width : Nat)
    (digits : List Char) :
    value (pad width digits) = value digits := by
  have zerosFirst :
      value (pad width digits) =
        Nat.ofDigitChars 10 digits
          (Nat.ofDigitChars 10 (List.replicate (width - digits.length) '0') 0) :=
    Nat.ofDigitChars_append 0
  rw [zerosFirst, Nat.ofDigitChars_replicate_zero, Nat.mul_zero]
  rfl

/-- Padding does not change the number that is written. -/
@[simp] theorem value_writePadded
    (width n : Nat) :
    value (writePadded width n) = n := by
  rw [writePadded, value_pad, value_write]

theorem isDigit_of_mem_writePadded
    {width n : Nat}
    {c : Char}
    (mem : c ∈ writePadded width n) :
    c.isDigit = true := by
  rcases List.mem_append.mp mem with isZero | isWritten
  · rw [List.eq_of_mem_replicate isZero]
    rfl
  · exact Nat.isDigit_of_mem_toDigits (by decide) (by decide) isWritten

/-- There are as many digits as the padding asks for, and more only where the
number needs them. -/
theorem length_writePadded
    (width n : Nat) :
    (writePadded width n).length = max width (write n).length := by
  rw [writePadded, pad, List.length_append, List.length_replicate]
  omega

theorem length_writePadded_of_lt
    {width n : Nat}
    (widthPos : 0 < width)
    (fits : n < 10 ^ width) :
    (writePadded width n).length = width := by
  have short : (write n).length ≤ width :=
    (Nat.length_toDigits_le_iff (by decide) widthPos).mpr fits
  rw [length_writePadded]
  omega

theorem writePadded_ne_nil
    (width n : Nat) :
    writePadded width n ≠ [] := by
  have someDigit : 0 < (write n).length :=
    Nat.length_toDigits_pos
  rw [← List.length_pos_iff, length_writePadded]
  omega

/-- Where a row of digits ends, either at the limit of the reader or before a
character that is none. -/
def EndsAt
    (most : Nat)
    (digits rest : List Char) : Prop :=
  digits.length = most ∨ ∀ c ∈ rest.head?, c.isDigit = false

/-- A reader of digits takes all that are there and nothing else. -/
theorem takeDigits_append
    {most : Nat}
    {digits rest : List Char}
    (areDigits : ∀ c ∈ digits, c.isDigit = true)
    (few : digits.length ≤ most)
    (ends : EndsAt most digits rest) :
    takeDigits most (digits ++ rest) = (digits, rest) := by
  have taken :
      ((digits ++ rest).take most).takeWhile Char.isDigit = digits := by
    rw [List.take_append, List.take_of_length_le few,
      List.takeWhile_append_of_pos areDigits]
    suffices stops :
        (rest.take (most - digits.length)).takeWhile Char.isDigit = [] by
      rw [stops, List.append_nil]
    rcases ends with full | notDigit
    · rw [full, Nat.sub_self]
      rfl
    · cases rest with
      | nil => simp
      | cons c after =>
          have cNotDigit : c.isDigit = false := notDigit c rfl
          cases most - digits.length with
          | zero => rfl
          | succ room => simp [cNotDigit]
  simp only [takeDigits, taken, List.drop_left]

/-! ## Bounded numbers -/

/-- A reader of numerals takes rows of digits and nothing else. -/
theorem read?_eq_some_iff
    {cs : List Char}
    {n : Nat} :
    read? cs = some n ↔
      cs ≠ [] ∧ (∀ c ∈ cs, c.isDigit = true) ∧ value cs = n := by
  simp [read?, and_assoc]

/-- Digits that may have a plus sign in front. -/
structure Row where
  plus : Bool
  digits : List Char
  some_digit : digits ≠ []
  all_digits : ∀ c ∈ digits, c.isDigit

namespace Row

/-- The digits with their sign. -/
def chars
    (row : Row) :
    List Char :=
  if row.plus then '+' :: row.digits else row.digits

/-- The number that the digits stand for. -/
def number
    (row : Row) :
    Nat :=
  Nat.ofDigitChars 10 row.digits 0

end Row

/-- A reader of bounded numbers takes digits that may have a plus sign in front. -/
theorem readBelow?_eq_some_iff
    {bound n : Nat}
    {cs : List Char} :
    readBelow? bound cs = some n ↔
      ∃ row : Row, row.chars = cs ∧ row.number = n ∧ n < bound := by
  have takes
      (plus : Bool)
      (digits : List Char)
      (sameText : (if plus then '+' :: digits else digits) = cs)
      (accepted : (read? digits).filter (· < bound) = some n) :
      ∃ row : Row, row.chars = cs ∧ row.number = n ∧ n < bound := by
    rw [Option.filter_eq_some_iff, read?_eq_some_iff, decide_eq_true_eq] at accepted
    obtain ⟨⟨someDigit, areDigits, sameNumber⟩, below⟩ := accepted
    exact ⟨⟨plus, digits, someDigit, areDigits⟩, sameText, sameNumber, below⟩
  constructor
  · intro accepted
    unfold readBelow? at accepted
    split at accepted
    case h_1 rest => exact takes true rest rfl accepted
    case h_2 => exact takes false cs rfl accepted
  · rintro ⟨⟨plus, digits, someDigit, areDigits⟩, rfl, rfl, below⟩
    have accepted : (read? digits).filter (· < bound) = some (value digits) := by
      rw [Option.filter_eq_some_iff, read?_eq_some_iff, decide_eq_true_eq]
      exact ⟨⟨someDigit, areDigits, rfl⟩, below⟩
    cases plus with
    | true => exact accepted
    | false =>
        unfold readBelow?
        split
        case h_1 rest plusFirst =>
          have plusFirst : digits = '+' :: rest := plusFirst
          cases areDigits '+' (plusFirst ▸ List.mem_cons_self)
        case h_2 => exact accepted

end NetWorth.Text.Numeral
