import Mathlib
import NetWorth.Time.Calendar

/-!
# The calendar counts every day once

The day with a number exists, and has that number.  Both follow the way in
which a number is taken apart: the year of a cycle of four hundred years, the
day of that year, and the month by the linear rule.
-/

namespace NetWorth.Calendar

/-- The year, from March on, of a day of a cycle of four hundred years. -/
private def yearInCycle
    (inCycle : Int) :
    Int :=
  (inCycle - inCycle / 1460 + inCycle / 36524 - inCycle / 146096) / 365

/-- The day of its year of a day of a cycle. -/
private def dayInYear
    (inCycle : Int) :
    Int :=
  inCycle -
    (365 * yearInCycle inCycle + yearInCycle inCycle / 4 -
      yearInCycle inCycle / 100)

/-- A day of a year that begins in March, and what its last day needs: the year
that follows has a leap day, being a fourth one and no hundredth but for the
last. -/
private structure DayOfYear
    (year day : Int) : Prop where
  year_nonneg : 0 ≤ year
  year_lt : year < 400
  day_nonneg : 0 ≤ day
  day_le : day ≤ 365
  leap : day = 365 → year % 4 = 3 ∧ (year % 100 ≠ 99 ∨ year = 399)

/-- The days of a cycle are days of its years. -/
private theorem dayOfYear
    {inCycle : Int}
    (nonneg : 0 ≤ inCycle)
    (lt : inCycle < cycle) :
    DayOfYear (yearInCycle inCycle) (dayInYear inCycle) := by
  change inCycle < 146097 at lt
  unfold dayInYear
  set year := yearInCycle inCycle with yearEq
  unfold yearInCycle at yearEq
  have bounds : 0 ≤ year ∧ year < 400 := by omega
  -- The last day of the cycle has a fourth leap century to itself.
  by_cases isLast : inCycle = 146096
  · constructor <;> omega
  · have century : year / 100 = inCycle / 36524 := by
      have inFirstFour :
          inCycle / 36524 = 0 ∨ inCycle / 36524 = 1 ∨
            inCycle / 36524 = 2 ∨ inCycle / 36524 = 3 := by
        omega
      rcases inFirstFour with first | second | third | fourth <;> omega
    refine ⟨bounds.1, bounds.2, by omega, by omega, fun lastDay => ?_⟩
    have pastLeapDay : year / 4 + 1 ≤ inCycle / 1460 := by omega
    omega

/-- The month of a day of a year, from March on. -/
private def monthOf
    (inYear : Int) :
    Int :=
  (5 * inYear + 2) / 153

/-- The day of its month of a day of a year, from zero on. -/
private def dayOf
    (inYear : Int) :
    Int :=
  inYear - daysBeforeMonth (monthOf inYear)

/-- The month from March on, and the day of the month from zero on, of a day of
a year: both exist, and the linear rule gives the day back. -/
private structure DayOfMonth
    (inYear month day : Int) : Prop where
  month_nonneg : 0 ≤ month
  month_lt : month < 12
  day_nonneg : 0 ≤ day
  day_lt : day < 31
  short : month = 1 ∨ month = 3 ∨ month = 6 ∨ month = 8 → day < 30
  last : month = 11 → day < 28 ∨ (day = 28 ∧ inYear = 365)
  rule : daysBeforeMonth month + day = inYear

/-- The days of a year are days of its months. -/
private theorem dayOfMonth
    {inYear : Int}
    (nonneg : 0 ≤ inYear)
    (le : inYear ≤ 365) :
    DayOfMonth inYear (monthOf inYear) (dayOf inYear) := by
  have monthEq : monthOf inYear = (5 * inYear + 2) / 153 := rfl
  have dayEq : dayOf inYear = inYear - (153 * monthOf inYear + 2) / 5 := rfl
  have beforeEq :
      daysBeforeMonth (monthOf inYear) = (153 * monthOf inYear + 2) / 5 := rfl
  constructor <;> omega

/-- The day with a year and a month that are counted from March on, and a day
of the month that is counted from zero on. -/
private def fromMarch
    (year month day : Int) :
    Civil :=
  if month < 10 then ⟨year, (month + 3).toNat, (day + 1).toNat⟩
  else ⟨year + 1, (month - 9).toNat, (day + 1).toNat⟩

/-- A count from March on is the one that the number of a day is made of. -/
private theorem dayNumber_fromMarch
    {year month day : Int}
    (monthNonneg : 0 ≤ month)
    (monthLt : month < 12)
    (dayNonneg : 0 ≤ day) :
    dayNumber (fromMarch year month day) =
      365 * year + year / 4 - year / 100 + year / 400 +
        daysBeforeMonth month + day - epochOffset := by
  unfold fromMarch dayNumber
  split
  · next early =>
    have late : ¬ (month + 3).toNat ≤ 2 := by omega
    have sameMonth : (((month + 3).toNat : Int) + 9) % 12 = month := by omega
    simp only [late, if_false, sameMonth]
    omega
  · next late =>
    have early : (month - 9).toNat ≤ 2 := by omega
    have sameMonth : (((month - 9).toNat : Int) + 9) % 12 = month := by omega
    simp only [early, if_true, sameMonth, Int.add_sub_cancel]
    omega

/-- A day of a month exists if its month is long enough for it. -/
private theorem valid_fromMarch
    {inYear year month day : Int}
    (ok : DayOfMonth inYear month day)
    (leap : inYear = 365 → isLeapYear (year + 1) = true) :
    (fromMarch year month day).Valid := by
  obtain ⟨monthNonneg, monthLt, dayNonneg, dayLt, short, last, -⟩ := ok
  unfold fromMarch
  split
  · next early =>
    refine ⟨by simp only; omega, by simp only; omega, by simp only; omega, ?_⟩
    have notFebruary : ¬ (month + 3).toNat = 2 := by omega
    simp only [monthLength, notFebruary, if_false]
    split <;> omega
  · next late =>
    refine ⟨by simp only; omega, by simp only; omega, by simp only; omega, ?_⟩
    simp only [monthLength]
    split
    · next isFebruary =>
      rcases last (by omega) with common | ⟨isLast, inLastDay⟩
      · split <;> omega
      · rw [leap inLastDay, isLast]
        decide
    · split <;> omega

/-- The number of a day is taken apart into the cycle, the year of the cycle
and the day of the year. -/
private theorem exists_parts
    (n : Int) :
    ∃ era year inYear : Int,
      n = 146097 * era + (365 * year + year / 4 - year / 100) + inYear -
          epochOffset ∧
        DayOfYear year inYear ∧
        civil n =
          fromMarch (year + era * 400) (monthOf inYear) (dayOf inYear) := by
  have inCycle : 0 ≤ (n + epochOffset) % cycle ∧ (n + epochOffset) % cycle < cycle := by
    unfold cycle
    omega
  refine ⟨(n + epochOffset) / cycle, yearInCycle ((n + epochOffset) % cycle),
    dayInYear ((n + epochOffset) % cycle), ?_,
    dayOfYear inCycle.1 inCycle.2, rfl⟩
  unfold dayInYear cycle
  omega

/-- The day with a number has that number. -/
theorem dayNumber_civil
    (n : Int) :
    dayNumber (civil n) = n := by
  obtain ⟨era, year, inYear, nEq, inYearOk, civilEq⟩ := exists_parts n
  have monthOk := dayOfMonth inYearOk.day_nonneg inYearOk.day_le
  have yearNonneg := inYearOk.year_nonneg
  have yearLt := inYearOk.year_lt
  have rule : daysBeforeMonth (monthOf inYear) + dayOf inYear = inYear :=
    monthOk.rule
  rw [civilEq, dayNumber_fromMarch monthOk.month_nonneg monthOk.month_lt
    monthOk.day_nonneg]
  omega

/-- The day with a number exists. -/
theorem civil_valid
    (n : Int) :
    (civil n).Valid := by
  obtain ⟨era, year, inYear, -, inYearOk, civilEq⟩ := exists_parts n
  have monthOk := dayOfMonth inYearOk.day_nonneg inYearOk.day_le
  rw [civilEq]
  refine valid_fromMarch monthOk fun lastDay => ?_
  obtain ⟨fourth, century⟩ := inYearOk.leap lastDay
  simp only [isLeapYear, Bool.and_eq_true, Bool.or_eq_true, beq_iff_eq, bne_iff_ne]
  omega

end NetWorth.Calendar
