import Mathlib
import NetWorth.Proofs.Time.Spelling

/-!
# Spans read back

What is written for a span is one of the spellings of its whole seconds, so it
reads back as these.  Spans of whole seconds therefore have different texts where
they differ, and every spelling of a span leads to the same text.
-/

namespace NetWorth

namespace TimeUnit

/-- Whether a unit is the largest one whose length divides the seconds. -/
structure IsLargest
    (unit : TimeUnit)
    (seconds : Nat) :
    Prop where
  divides : unit.length ∣ seconds
  largest : ∀ other : TimeUnit, other.length ∣ seconds → other.length ≤ unit.length

theorem mem_all
    (unit : TimeUnit) :
    unit ∈ all := by
  cases unit <;> decide

/-- The units are tried from the largest to the smallest. -/
theorem pairwise_all :
    all.Pairwise fun unit other => other.length ≤ unit.length := by
  decide

end TimeUnit

namespace Span

/-- The first unit that divides the seconds is the largest one. -/
theorem isLargest_largestUnit
    (seconds : Nat) :
    (largestUnit seconds).IsLargest seconds := by
  unfold largestUnit
  cases found : TimeUnit.all.find? fun unit => seconds % unit.length == 0 with
  | none =>
      -- seconds are divided by their own unit
      have notDivided := List.find?_eq_none.mp found _ (TimeUnit.mem_all .second)
      simp [TimeUnit.length, Nat.mod_one] at notDivided
  | some unit =>
      obtain ⟨divides, before, after, inTurn, notBefore⟩ :=
        List.find?_eq_some_iff_append.mp found
      refine ⟨Nat.dvd_of_mod_eq_zero (eq_of_beq divides), fun other isDivided => ?_⟩
      have inOrder := TimeUnit.pairwise_all
      have listed := TimeUnit.mem_all other
      rw [inTurn, List.pairwise_append, List.pairwise_cons] at inOrder
      rw [inTurn, List.mem_append, List.mem_cons] at listed
      rcases listed with isBefore | rfl | isAfter
      · have notDivided := notBefore other isBefore
        rw [Nat.mod_eq_zero_of_dvd isDivided] at notDivided
        cases notDivided
      · exact le_rfl
      · exact inOrder.2.1.1 other isAfter

/-- The unit that a span is written with. -/
def writtenUnit
    (span : Span) :
    TimeUnit :=
  if span.seconds = 0 then .second else largestUnit span.seconds

theorem writtenUnit_dvd
    (span : Span) :
    span.writtenUnit.length ∣ span.seconds := by
  unfold writtenUnit
  split
  case isTrue noSeconds => exact ⟨0, noSeconds⟩
  case isFalse => exact (isLargest_largestUnit span.seconds).divides

/-- The spelling that a span is written with. -/
def spelling
    (span : Span) :
    Spelling where
  plus := false
  digits := Text.Numeral.write (span.seconds / span.writtenUnit.length)
  some_digit := List.ne_nil_of_length_pos Nat.length_toDigits_pos
  all_digits _ member :=
    Nat.isDigit_of_mem_toDigits (by decide) (by decide) member
  between := []
  unit := span.writtenUnit
  capital := false
  between_blank := by simp

theorem spells_toText
    (span : Span) :
    span.spelling.Spells span.toText :=
  ⟨[], [], by simp, by simp, by
    rw [toText, String.toList_ofList]
    simp [Spelling.chars, spelling, Text.Numeral.Row.chars, TimeUnit.written, writtenUnit]⟩

theorem number_spelling
    (span : Span) :
    span.spelling.number = span.seconds / span.writtenUnit.length :=
  Nat.ofDigitChars_ten_toDigits

/-- The number is multiplied by what the seconds were divided by. -/
theorem seconds_spelling
    (span : Span) :
    span.spelling.seconds = span.seconds := by
  calc
    span.spelling.number * span.writtenUnit.length =
        span.seconds / span.writtenUnit.length * span.writtenUnit.length := by
      rw [number_spelling]
    _ = span.seconds := Nat.div_mul_cancel span.writtenUnit_dvd

theorem fits_spelling
    (span : Span) :
    span.spelling.Fits := by
  have secondsFit : span.seconds ≤ 2 ^ 64 - 1 :=
    Nat.le_pred_of_lt span.seconds_lt
  refine ⟨?_, ?_⟩
  · rw [number_spelling]
    exact (Nat.div_le_self _ _).trans secondsFit
  · rw [seconds_spelling]
    exact secondsFit

/-! ## Reading what was written -/

/-- The span without its part of a second. -/
def wholeSeconds
    (span : Span) :
    Span :=
  { span with
    nanos := 0
    nanos_lt := Nat.zero_lt_of_lt span.nanos_lt }

/-- What is written reads back as the whole seconds. -/
theorem ofText_toText
    (span : Span) :
    ofText span.toText = .ok span.wholeSeconds :=
  ofText_eq_ok_iff_spells.mpr
    ⟨span.spelling, span.spells_toText, span.fits_spelling,
      span.seconds_spelling.symm, rfl⟩

/-- No part of a second is read. -/
theorem wholeSeconds_of_read
    {text : String}
    {span : Span}
    (read : ofText text = .ok span) :
    span.wholeSeconds = span := by
  obtain ⟨_, _, _, _, noNanos⟩ := ofText_eq_ok_iff_spells.mp read
  rw [wholeSeconds, Span.mk.injEq]
  exact ⟨rfl, noNanos.symm⟩

/-- Whether the text of a span has the largest unit whose length divides the
seconds. -/
def WrittenInLargest
    (span : Span) :
    Prop :=
  ∃ unit : TimeUnit,
    unit.IsLargest span.seconds ∧
      span.toText =
        String.ofList
          (Nat.toDigits 10 (span.seconds / unit.length) ++ [unit.letter])

/--
What is written for a span reads back as the span without its part of a second.
Spans that are read from texts are the same if and only if they are written
alike.  A span of a second or more is written with the largest unit whose length
divides the seconds, and any shorter one is written as no seconds.
-/
theorem text_normal_form :
    (∀ span : Span, ofText span.toText = .ok span.wholeSeconds) ∧
      (∀ (text other : String) (first second : Span),
        ofText text = .ok first →
          ofText other = .ok second →
            (first = second ↔ first.toText = second.toText)) ∧
      (∀ span : Span, 0 < span.seconds → span.WrittenInLargest) ∧
      ∀ span : Span, span.seconds = 0 → span.toText = "0s" := by
  refine ⟨ofText_toText, ?injective, ?largest, ?noSeconds⟩
  case injective =>
    intro text other first second read readOther
    refine ⟨congrArg toText, fun sameText => ?_⟩
    have sameSeconds : ofText first.toText = .ok second.wholeSeconds :=
      sameText ▸ second.ofText_toText
    rw [ofText_toText, Except.ok.injEq, wholeSeconds_of_read read,
      wholeSeconds_of_read readOther] at sameSeconds
    exact sameSeconds
  case largest =>
    intro span someSeconds
    refine ⟨largestUnit span.seconds, isLargest_largestUnit span.seconds, ?_⟩
    rw [toText, if_neg someSeconds.ne']
    rfl
  case noSeconds =>
    intro span noSeconds
    rw [toText, if_pos noSeconds, noSeconds]
    rfl

/-- A day and a part of a second. -/
def dayAndMore :
    Span :=
  ⟨86400, 7, by decide, by decide⟩

/-- A day and a minute. -/
def dayAndMinute :
    Span :=
  ⟨86460, 0, by decide, dayAndMore.wholeSeconds.nanos_lt⟩

/-- A billionth of a second. -/
def oneNano :
    Span :=
  ⟨0, 1, by decide, by decide⟩

theorem text_normal_form_dayAndMore :
    ofText dayAndMore.toText = .ok dayAndMore.wholeSeconds ∧
      ofText " +24H" = .ok dayAndMore.wholeSeconds ∧
      ofText "1441m" = .ok dayAndMinute ∧
      dayAndMore.wholeSeconds.toText ≠ dayAndMinute.toText ∧
      0 < dayAndMore.seconds ∧ dayAndMore.WrittenInLargest ∧
      oneNano.seconds = 0 ∧ oneNano.toText = "0s" := by
  obtain ⟨readsBack, eq_iff, inLargest, noSeconds⟩ := text_normal_form
  have read : ofText " +24H" = .ok dayAndMore.wholeSeconds := by rfl
  have readOther : ofText "1441m" = .ok dayAndMinute := by rfl
  have someSeconds : 0 < dayAndMore.seconds := by decide
  have differ : dayAndMore.wholeSeconds ≠ dayAndMinute := by decide
  exact ⟨readsBack dayAndMore, read, readOther,
    fun sameText => differ ((eq_iff _ _ _ _ read readOther).mpr sameText),
    someSeconds, inLargest dayAndMore someSeconds, rfl, noSeconds oneNano rfl⟩

/-- A part of a second is written as no seconds, though no seconds can be divided
by a day as well. -/
theorem oneNano_not_writtenInLargest :
    oneNano.totalNanos ≠ 0 ∧
      oneNano.toText = "0s" ∧
      TimeUnit.day.IsLargest oneNano.seconds ∧
      ¬ oneNano.WrittenInLargest := by
  refine ⟨by decide, by decide +kernel, ⟨dvd_zero _, fun other _ => ?_⟩, ?_⟩
  · cases other <;> decide
  · rintro ⟨unit, isLargest, sameText⟩
    have noShorter := isLargest.largest .day (dvd_zero _)
    cases unit with
    | day => exact absurd sameText (by decide +kernel)
    | hour => exact absurd noShorter (by decide)
    | minute => exact absurd noShorter (by decide)
    | second => exact absurd noShorter (by decide)

end Span

end NetWorth
