import Mathlib
import NetWorth.Time.Date
import NetWorth.Proofs.Text.Blank
import NetWorth.Proofs.Text.Numeral
import NetWorth.Proofs.Time.Calendar

/-!
# Dates read back

Each part of a date is read from the front of a text up to where it ends, so
what is written one after the other is read one after the other.  Every year is
written such that its reader knows where it ends: with four digits, or with a
sign.
-/

namespace NetWorth

open Text.Numeral (writePadded EndsAt)

/-- Nothing is dropped where the front is no white space. -/
theorem Text.dropBlanks_cons
    {c : Char}
    (notBlank : isBlank c = false)
    (rest : List Char) :
    dropBlanks (c :: rest) = c :: rest := by
  simp [dropBlanks, notBlank]

/-- Nothing is dropped in front of digits. -/
theorem Text.dropBlanks_digits
    {digits : List Char}
    (areDigits : ∀ c ∈ digits, c.isDigit = true)
    (someDigit : digits ≠ [])
    (rest : List Char) :
    dropBlanks (digits ++ rest) = digits ++ rest := by
  obtain ⟨c, others, rfl⟩ := List.exists_cons_of_ne_nil someDigit
  have notBlank := not_isBlank_of_isDigit (areDigits c List.mem_cons_self)
  exact dropBlanks_cons (Bool.eq_false_of_not_eq_true notBlank) _

/-- The date of a day of the calendar is the date that has it. -/
theorem Date.ofCivil?_civil
    (d : Date) :
    ofCivil? d.civil = some d := by
  have valid : d.civil.Valid := Calendar.civil_valid d.day
  have inRange : firstDay ≤ d.day ∧ d.day ≤ lastDay :=
    ⟨d.first_le, d.le_last⟩
  rw [ofCivil?, if_pos valid, civil, Calendar.dayNumber_civil, ofDay?,
    dif_pos inRange]

namespace Date.Reading

/-- A number is read from the digits in front of a text. -/
theorem digits?_writePadded
    {most width n : Nat}
    {rest : List Char}
    (few : (writePadded width n).length ≤ most)
    (ends : EndsAt most (writePadded width n) rest) :
    digits? most (writePadded width n ++ rest) = some (n, rest) := by
  rw [digits?, Text.Numeral.takeDigits_append
    (fun c mem => Text.Numeral.isDigit_of_mem_writePadded mem) few ends]
  simp [Text.Numeral.writePadded_ne_nil]

/-- A field of two digits is read whatever follows. -/
theorem field?_writePadded
    {n : Nat}
    (lt : n < 100)
    (rest : List Char) :
    field? (writePadded 2 n ++ rest) = some (n, rest) := by
  have twoDigits : (writePadded 2 n).length = 2 :=
    Text.Numeral.length_writePadded_of_lt (by decide) lt
  rw [field?, Text.dropBlanks_digits
    (fun c mem => Text.Numeral.isDigit_of_mem_writePadded mem)
    (Text.Numeral.writePadded_ne_nil 2 n)]
  exact digits?_writePadded twoDigits.le (.inl twoDigits)

theorem mark?_cons
    {mark : Char}
    (notBlank : Text.isBlank mark = false)
    (rest : List Char) :
    mark? mark (mark :: rest) = some rest := by
  simp [mark?, Text.dropBlanks_cons notBlank]

/-- A year is read up to the first character that is no digit. -/
theorem year?_yearChars
    (year : Int)
    {rest : List Char}
    (ends : ∀ c ∈ rest.head?, c.isDigit = false) :
    year? (yearChars year ++ rest) = some (year, rest) := by
  have signed :
      digits? (writePadded 4 year.natAbs ++ rest).length
          (writePadded 4 year.natAbs ++ rest) =
        some (year.natAbs, rest) :=
    digits?_writePadded (by simp) (.inr ends)
  unfold yearChars
  split
  · next negative =>
    rw [List.cons_append, year?, Text.dropBlanks_cons (by decide)]
    simp only [signed, Option.map_some, Option.some.injEq, Prod.mk.injEq, and_true]
    omega
  split
  · next notNegative long =>
    rw [List.cons_append, year?, Text.dropBlanks_cons (by decide)]
    simp only [signed, Option.map_some, Option.some.injEq, Prod.mk.injEq, and_true]
    omega
  · next notNegative short =>
    have fourDigits : (writePadded 4 year.natAbs).length = 4 :=
      Text.Numeral.length_writePadded_of_lt (by decide) (by omega)
    have areDigits : ∀ c ∈ writePadded 4 year.natAbs, c.isDigit = true :=
      fun c mem => Text.Numeral.isDigit_of_mem_writePadded mem
    have unsigned :
        digits? 4 (writePadded 4 year.natAbs ++ rest) =
          some (year.natAbs, rest) :=
      digits?_writePadded fourDigits.le (.inl fourDigits)
    have noSign (sign : Char) (after : List Char)
        (notDigit : sign.isDigit = false) :
        writePadded 4 year.natAbs ++ rest ≠ sign :: after := by
      obtain ⟨c, others, digitsEq⟩ :=
        List.exists_cons_of_ne_nil (Text.Numeral.writePadded_ne_nil 4 year.natAbs)
      have isDigit : c.isDigit = true :=
        areDigits c (digitsEq ▸ List.mem_cons_self)
      rw [digitsEq]
      rintro startEq
      rw [(List.cons.inj startEq).1, notDigit] at isDigit
      exact absurd isDigit Bool.false_ne_true
    rw [year?, Text.dropBlanks_digits areDigits
      (Text.Numeral.writePadded_ne_nil _ _)]
    split
    · next after startsWithMinus =>
      exact absurd startsWithMinus (noSign '-' after rfl)
    · next after startsWithPlus =>
      exact absurd startsWithPlus (noSign '+' after rfl)
    · simp only [unsigned, Option.map_some, Option.some.injEq, Prod.mk.injEq,
        and_true]
      omega

/-- The days of a month are written with two digits. -/
private theorem monthLength_lt
    (year : Int)
    (month : Nat) :
    Calendar.monthLength year month < 100 := by
  unfold Calendar.monthLength
  split_ifs <;> decide

/-- A date is read from the front of a text, whatever follows it. -/
theorem date?_toChars
    (d : Date)
    (rest : List Char) :
    date? (d.toChars ++ rest) = some (d, rest) := by
  obtain ⟨-, monthLe, -, dayLe⟩ : d.civil.Valid := Calendar.civil_valid d.day
  have monthShort : d.civil.month < 100 := by omega
  have dayShort : d.civil.day < 100 := dayLe.trans_lt (monthLength_lt _ _)
  have mark (after : List Char) : mark? '-' ('-' :: after) = some after :=
    mark?_cons (by decide) after
  have yearRead (after : List Char) :
      year? (yearChars d.civil.year ++ '-' :: after) =
        some (d.civil.year, '-' :: after) :=
    year?_yearChars _ (by simp)
  simp only [toChars, date?, List.append_assoc, List.cons_append, yearRead, mark,
    field?_writePadded monthShort, field?_writePadded dayShort,
    Option.bind_eq_bind, Option.bind_some]
  rw [ofCivil?_civil]
  rfl

end Date.Reading

/-- A date that is written is read as the same date. -/
theorem Date.ofText?_toText
    (d : Date) :
    ofText? d.toText = some d := by
  have read := Reading.date?_toChars d []
  rw [List.append_nil] at read
  rw [ofText?, toText, String.toList_ofList, read]
  rfl

end NetWorth
