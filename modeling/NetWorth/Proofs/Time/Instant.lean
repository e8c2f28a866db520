import Mathlib
import NetWorth.Time.Instant
import NetWorth.Proofs.Time.Date

/-!
# Instants: their order and their text

Instants are ordered, and what is written of one is read as the same one, with
the nanoseconds of a leap second, which is written as the second with the
number 60.
-/

namespace NetWorth.Instant

open Text.Numeral (writePadded)

/-! ## Order -/

theorem le_refl
    (t : Instant) :
    t ≤ t :=
  .inr ⟨rfl, Nat.le_refl _⟩

theorem le_trans
    {first second third : Instant}
    (firstLe : first ≤ second)
    (secondLe : second ≤ third) :
    first ≤ third := by
  change first.seconds < second.seconds ∨
    first.seconds = second.seconds ∧ first.nanos ≤ second.nanos at firstLe
  change second.seconds < third.seconds ∨
    second.seconds = third.seconds ∧ second.nanos ≤ third.nanos at secondLe
  change first.seconds < third.seconds ∨
    first.seconds = third.seconds ∧ first.nanos ≤ third.nanos
  omega

theorem le_total
    (first second : Instant) :
    first ≤ second ∨ second ≤ first := by
  change (first.seconds < second.seconds ∨
      first.seconds = second.seconds ∧ first.nanos ≤ second.nanos) ∨
    (second.seconds < first.seconds ∨
      second.seconds = first.seconds ∧ second.nanos ≤ first.nanos)
  omega

/-! ## Text -/

namespace Reading

/-- A point and the places of a fraction are read as the nanoseconds that they
stand for. -/
private theorem fraction?_places
    {places scaled : Nat}
    (somePlace : 0 < places)
    (fewPlaces : places ≤ 9)
    (fits : scaled < 10 ^ places)
    {rest : List Char}
    (ends : ∀ c ∈ rest.head?, c.isDigit = false) :
    fraction? ('.' :: writePadded places scaled ++ rest) =
      some (scaled * 10 ^ (9 - places), rest) := by
  have length : (writePadded places scaled).length = places :=
    Text.Numeral.length_writePadded_of_lt somePlace fits
  have taken :=
    Text.Numeral.takeDigits_append
      (fun c mem => Text.Numeral.isDigit_of_mem_writePadded mem)
      (length.trans_le fewPlaces) (.inr ends)
  have nothingIgnored : rest.dropWhile Char.isDigit = rest := by
    cases rest with
    | nil => rfl
    | cons c after => simp [ends c rfl]
  simp only [List.cons_append, fraction?, taken, nothingIgnored, length,
    Text.Numeral.value_writePadded, List.isEmpty_iff,
    Text.Numeral.writePadded_ne_nil, if_false]
  rfl

/-- A fraction is read as the nanoseconds that it was written for. -/
private theorem fraction?_fractionChars
    {nanos : Nat}
    (lt : nanos < 1_000_000_000)
    (rest : List Char) :
    fraction? (fractionChars nanos ++ 'Z' :: rest) = some (nanos, 'Z' :: rest) := by
  have ends : ∀ c ∈ ('Z' :: rest).head?, c.isDigit = false := by simp
  unfold fractionChars
  split
  · next isZero =>
    subst isZero
    rfl
  split
  · next millis =>
    rw [fraction?_places (by decide) (by decide) (by omega) ends]
    congr 2
    omega
  split
  · next micros =>
    rw [fraction?_places (by decide) (by decide) (by omega) ends]
    congr 2
    omega
  · rw [fraction?_places (by decide) (by decide) (by omega) ends]
    simp

/-- The second of the minute and the nanoseconds that a second as it is written
counts as: the one with the number 60 goes on in the nanoseconds. -/
private def counted
    (second nanos : Nat) :
    Nat × Nat :=
  if second = 60 then (59, nanos + 1_000_000_000) else (second, nanos)

/-- A time of day is read as what its parts count as. -/
private theorem time?_chars
    {hour minute second nanos : Nat}
    (hourLt : hour < 24)
    (minuteLt : minute < 60)
    (secondLe : second ≤ 60)
    (nanosLt : nanos < 1_000_000_000)
    (rest : List Char) :
    time? (writePadded 2 hour ++ ':' :: (writePadded 2 minute ++
        ':' :: (writePadded 2 second ++
          (fractionChars nanos ++ 'Z' :: rest)))) =
      some (hour * 3600 + minute * 60 + (counted second nanos).1,
        (counted second nanos).2, 'Z' :: rest) := by
  have mark (after : List Char) :
      Date.Reading.mark? ':' (':' :: after) = some after :=
    Date.Reading.mark?_cons (by decide) after
  have hourShort : hour < 100 := by omega
  have minuteShort : minute < 100 := by omega
  have secondShort : second < 100 := by omega
  have inRange : (hour < 24 && minute < 60 && second ≤ 60) = true := by
    simp [hourLt, minuteLt, secondLe]
  simp only [time?, mark, Date.Reading.field?_writePadded hourShort,
    Date.Reading.field?_writePadded minuteShort,
    Date.Reading.field?_writePadded secondShort,
    fraction?_fractionChars nanosLt, Option.bind_eq_bind, Option.bind_some,
    inRange, guard, if_true, counted]
  split <;> rfl

end Reading

/-- The second of the minute that is written, and the nanoseconds of its
fraction. -/
private def shown
    (t : Instant) :
    Nat × Nat :=
  if t.InLeapSecond then
    ((t.seconds % 86400).toNat % 60 + 1, t.nanos - 1_000_000_000)
  else ((t.seconds % 86400).toNat % 60, t.nanos)

/-- The written form, from the front to the back. -/
private theorem toChars_eq
    (t : Instant) :
    t.toChars =
      t.date.toChars ++ 'T' ::
        (writePadded 2 ((t.seconds % 86400).toNat / 3600) ++ ':' ::
          (writePadded 2 ((t.seconds % 86400).toNat / 60 % 60) ++ ':' ::
            (writePadded 2 t.shown.1 ++
              (fractionChars t.shown.2 ++ 'Z' :: [])))) := by
  rw [toChars, shown]
  split
  next second nanos shownEq =>
  simp only [shownEq, List.append_assoc, List.cons_append]

/-- What is shown of a second is what it is counted as. -/
private theorem counted_shown
    (t : Instant) :
    t.shown.1 ≤ 60 ∧ t.shown.2 < 1_000_000_000 ∧
      Reading.counted t.shown.1 t.shown.2 =
        ((t.seconds % 86400).toNat % 60, t.nanos) := by
  have nanosLt := t.nanos_lt
  unfold shown Reading.counted
  split
  · next leap =>
    have atEnd : (t.seconds % 86400).toNat % 60 = 59 := by
      have := t.leap_at_59 leap
      omega
    have shift : t.nanos - 1_000_000_000 + 1_000_000_000 = t.nanos :=
      Nat.sub_add_cancel leap
    rw [atEnd, shift]
    exact ⟨Nat.le_refl 60, by omega, rfl⟩
  · next common =>
    have before : t.nanos < 1_000_000_000 := Nat.lt_of_not_le common
    have notLeap : ¬ (t.seconds % 86400).toNat % 60 = 60 := by omega
    exact ⟨by omega, before, if_neg notLeap⟩

/-- An instant that is written is read as the same instant. -/
theorem ofText?_toText
    (t : Instant) :
    ofText? t.toText = some t := by
  obtain ⟨secondLe, nanosLt, counts⟩ := t.counted_shown
  have hourLt : (t.seconds % 86400).toNat / 3600 < 24 := by omega
  have minuteLt : (t.seconds % 86400).toNat / 60 % 60 < 60 := by omega
  have timeRead := Reading.time?_chars hourLt minuteLt secondLe nanosLt []
  have separatorRead (after : List Char) :
      Reading.separator? ('T' :: after) = some after := rfl
  have zoneRead : Reading.zone? (Text.dropBlanks ['Z']) = some (0, []) := rfl
  have secondsEq :
      t.date.day * 86400 +
          (((t.seconds % 86400).toNat / 3600 * 3600 +
            (t.seconds % 86400).toNat / 60 % 60 * 60 +
            (t.seconds % 86400).toNat % 60 : Nat) : Int) - 0 =
        t.seconds := by
    change t.seconds / 86400 * 86400 + _ - 0 = t.seconds
    omega
  have sameInstant : ofParts? t.seconds t.nanos = some t := by
    rw [ofParts?, dif_pos ⟨t.first_le, t.le_last, t.nanos_lt, t.leap_at_59⟩]
  rw [counts] at timeRead
  simp only [ofText?, toText, String.toList_ofList, toChars_eq,
    Date.Reading.date?_toChars, separatorRead, timeRead, zoneRead,
    Option.bind_eq_bind, Option.bind_some]
  rw [secondsEq, sameInstant]
  rfl

end NetWorth.Instant
