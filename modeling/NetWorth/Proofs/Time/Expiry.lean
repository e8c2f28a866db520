import Mathlib
import NetWorth.Quote.Basic
import NetWorth.Proofs.Time.Instant

/-!
# Times of expiry

Outside leap seconds an instant is a count of nanoseconds, and the instants come
in the order of their counts, without gaps.  The instant a span later is
therefore their sum, or the greatest instant where the sum is beyond it.  A span
may be too long to be a move at all; then the sum is beyond it, too.
-/

namespace NetWorth

namespace Instant

/-! ## Counts of nanoseconds -/

/-- The count of the first instant. -/
def leastNanos : Int :=
  firstSecond * 1_000_000_000

/-- Outside leap seconds there is an instant for each count between the first and
the last one. -/
theorem exists_totalNanos_iff
    {count : Int} :
    (∃ t : Instant, ¬ t.InLeapSecond ∧ t.totalNanos = count) ↔
      leastNanos ≤ count ∧ count ≤ greatest.totalNanos := by
  simp only [InLeapSecond, totalNanos, leastNanos, greatest]
  constructor
  · rintro ⟨t, notLeap, rfl⟩
    have first := t.first_le
    have last := t.le_last
    omega
  · rintro ⟨first, last⟩
    refine ⟨⟨count / 1_000_000_000, (count % 1_000_000_000).toNat, ?_, ?_, ?_, ?_⟩,
      ?settled, ?count⟩
    case settled =>
      change ¬ 1_000_000_000 ≤ (count % 1_000_000_000).toNat
      omega
    case count =>
      change count / 1_000_000_000 * 1_000_000_000 +
        ((count % 1_000_000_000).toNat : Int) = count
      omega
    all_goals omega

/-- The instant of a count is the one outside leap seconds that has it. -/
theorem ofTotalNanos?_eq_some_iff
    {count : Int}
    {t : Instant} :
    ofTotalNanos? count = some t ↔ ¬ t.InLeapSecond ∧ t.totalNanos = count := by
  unfold ofTotalNanos? ofParts? InLeapSecond totalNanos
  split
  case isTrue inRange =>
    rw [Option.some.injEq]
    constructor
    · rintro rfl
      dsimp only
      omega
    · rintro ⟨notLeap, rfl⟩
      have sameSeconds :
          (t.seconds * 1_000_000_000 + t.nanos) / 1_000_000_000 = t.seconds := by
        omega
      have sameNanos :
          ((t.seconds * 1_000_000_000 + t.nanos) % 1_000_000_000).toNat =
            t.nanos := by
        omega
      simp only [sameSeconds, sameNanos]
  case isFalse outOfRange =>
    refine iff_of_false (Option.some_ne_none t).symm ?_
    rintro ⟨notLeap, rfl⟩
    have first := t.first_le
    have last := t.le_last
    omega

/-- There is no instant of a count that is out of range. -/
theorem ofTotalNanos?_eq_none_iff
    {count : Int} :
    ofTotalNanos? count = none ↔
      count < leastNanos ∨ greatest.totalNanos < count := by
  rw [Option.eq_none_iff_forall_ne_some]
  simp only [Ne, ofTotalNanos?_eq_some_iff]
  rw [← not_exists, exists_totalNanos_iff, not_and_or, not_le, not_le]

section Order

variable {first second : Instant}

/-- Instants outside leap seconds come in the order of their counts. -/
theorem lt_iff_totalNanos_lt
    (firstSettled : ¬ first.InLeapSecond)
    (secondSettled : ¬ second.InLeapSecond) :
    first < second ↔ first.totalNanos < second.totalNanos := by
  change first.seconds < second.seconds ∨
      first.seconds = second.seconds ∧ first.nanos < second.nanos ↔ _
  unfold InLeapSecond at firstSettled secondSettled
  unfold totalNanos
  omega

/-- Of two instants, one is not before the other where the other is not after it. -/
theorem not_lt_iff_le :
    ¬ first < second ↔ second ≤ first := by
  change ¬ (first.seconds < second.seconds ∨
        first.seconds = second.seconds ∧ first.nanos < second.nanos) ↔
    (second.seconds < first.seconds ∨
      second.seconds = first.seconds ∧ second.nanos ≤ first.nanos)
  omega

theorem le_iff_totalNanos_le
    (firstSettled : ¬ first.InLeapSecond)
    (secondSettled : ¬ second.InLeapSecond) :
    first ≤ second ↔ first.totalNanos ≤ second.totalNanos := by
  rw [← not_lt_iff_le, lt_iff_totalNanos_lt secondSettled firstSettled, not_lt]

/-- An instant in a leap second is before others from the next second on. -/
theorem lt_iff_of_inLeapSecond
    (inLeap : first.InLeapSecond)
    (secondSettled : ¬ second.InLeapSecond) :
    first < second ↔
      (first.seconds + 1) * 1_000_000_000 ≤ second.totalNanos := by
  change first.seconds < second.seconds ∨
      first.seconds = second.seconds ∧ first.nanos < second.nanos ↔ _
  unfold InLeapSecond at inLeap secondSettled
  unfold totalNanos
  omega

end Order

/-! ## The instant a span later -/

section After

variable
  {now : Instant}
  (settled : ¬ now.InLeapSecond)
  (lifetime : Span)

include settled

/-- A move forward fails only where the sum is beyond the greatest instant. -/
theorem addNanos?_eq_none_iff :
    now.addNanos? lifetime.totalNanos = none ↔
      greatest.totalNanos < now.totalNanos + lifetime.totalNanos := by
  have inRange : leastNanos ≤ now.totalNanos :=
    (exists_totalNanos_iff.mp ⟨now, settled, rfl⟩).1
  rw [addNanos?, if_neg settled, ofTotalNanos?_eq_none_iff]
  omega

/-- A span that is too long to be a move leads beyond the greatest instant. -/
theorem beyond_of_longestMove_lt
    (tooLong : longestMove < lifetime.totalNanos) :
    greatest.totalNanos < now.totalNanos + lifetime.totalNanos := by
  have inRange : leastNanos ≤ now.totalNanos :=
    (exists_totalNanos_iff.mp ⟨now, settled, rfl⟩).1
  have allTime : greatest.totalNanos < leastNanos + longestMove := by decide
  omega

/-- The instant a span later is outside leap seconds, and its count is the sum
unless that is beyond the greatest instant. -/
theorem after_exact :
    ¬ (now.after lifetime).InLeapSecond ∧
      (now.after lifetime).totalNanos =
        min (now.totalNanos + lifetime.totalNanos) greatest.totalNanos := by
  have greatestSettled : ¬ greatest.InLeapSecond := by decide
  unfold after
  split
  case isFalse tooLong =>
    have beyond :=
      beyond_of_longestMove_lt settled lifetime (Nat.lt_of_not_le tooLong)
    exact ⟨greatestSettled, (min_eq_right beyond.le).symm⟩
  case isTrue =>
    cases moved : now.addNanos? lifetime.totalNanos with
    | none =>
        have beyond := (addNanos?_eq_none_iff settled lifetime).mp moved
        exact ⟨greatestSettled, (min_eq_right beyond.le).symm⟩
    | some later =>
        have within : ¬ greatest.totalNanos < now.totalNanos + lifetime.totalNanos :=
          fun beyond => by
            rw [(addNanos?_eq_none_iff settled lifetime).mpr beyond] at moved
            cases moved
        rw [addNanos?, if_neg settled] at moved
        obtain ⟨laterSettled, sameCount⟩ := ofTotalNanos?_eq_some_iff.mp moved
        exact ⟨laterSettled, sameCount.trans (min_eq_left (not_lt.mp within)).symm⟩

end After

end Instant

/--
What is kept from a time on for a lifetime expires when both are added up, to the
nanosecond, or at the greatest instant if the sum is beyond it.  It expires no
earlier where it is kept from a later time on or for a longer lifetime.  It is
fresh at exactly the times before, in leap seconds as well, and without a
lifetime it is never fresh.
-/
theorem expiry_saturates
    {now : Instant}
    (settled : ¬ now.InLeapSecond)
    (lifetime : Span)
    (quote : Quote) :
    let entry : CachedQuote := ⟨quote, now.after lifetime⟩
    let expiry : Int :=
      min (now.totalNanos + lifetime.totalNanos) Instant.greatest.totalNanos
    ¬ entry.expiresAt.InLeapSecond ∧
      entry.expiresAt.totalNanos = expiry ∧
      (∀ (later : Instant) (longer : Span),
        ¬ later.InLeapSecond →
          now ≤ later →
            lifetime.totalNanos ≤ longer.totalNanos →
              entry.expiresAt ≤ later.after longer) ∧
      (∀ time : Instant,
        ¬ time.InLeapSecond →
          (entry.IsFresh time ↔ time.totalNanos < expiry)) ∧
      (∀ time : Instant,
        time.InLeapSecond →
          (entry.IsFresh time ↔
            (time.seconds + 1) * 1_000_000_000 ≤ expiry)) ∧
      (lifetime.totalNanos = 0 →
        ∀ time : Instant, now ≤ time → ¬ entry.IsFresh time) := by
  intro entry expiry
  obtain ⟨expirySettled, expiryEq⟩ := Instant.after_exact settled lifetime
  refine ⟨expirySettled, expiryEq, ?monotone, ?fresh, ?freshInLeap, ?noLifetime⟩
  case monotone =>
    intro later longer laterSettled nowLe lifetimeLe
    obtain ⟨longerSettled, longerEq⟩ := Instant.after_exact laterSettled longer
    have nanosLe := (Instant.le_iff_totalNanos_le settled laterSettled).mp nowLe
    rw [Instant.le_iff_totalNanos_le expirySettled longerSettled, expiryEq, longerEq]
    exact min_le_min_right _ (add_le_add nanosLe (Int.ofNat_le.mpr lifetimeLe))
  case fresh =>
    intro time timeSettled
    exact (Instant.lt_iff_totalNanos_lt timeSettled expirySettled).trans
      (by rw [expiryEq])
  case freshInLeap =>
    intro time inLeap
    exact (Instant.lt_iff_of_inLeapSecond inLeap expirySettled).trans
      (by rw [expiryEq])
  case noLifetime =>
    intro isZero time nowLe
    have sameTime : now.after lifetime ≤ now := by
      rw [Instant.le_iff_totalNanos_le expirySettled settled, expiryEq, isZero]
      exact (min_le_left _ _).trans (add_zero _).le
    exact Instant.not_lt_iff_le.mpr (Instant.le_trans sameTime nowLe)

/-- The time at which ten minutes are left. -/
def tenMinutesLeft :
    Instant :=
  { Instant.greatest with
    seconds := Instant.greatest.seconds - 600
    first_le := by decide
    le_last := by decide
    leap_at_59 := by decide }

/-- A quote of that time. -/
def lateQuote :
    Quote where
  assetClass := .stock
  symbol := "2330"
  name := "2330"
  price := .one
  currency := "TWD"
  observedAt := tenMinutesLeft
  source := "twse"

/-- A quote that is kept for twenty minutes of the last ten. -/
theorem expiry_saturates_tenMinutesLeft :
    let entry : CachedQuote :=
      ⟨lateQuote, tenMinutesLeft.after .twentyMinutes⟩
    ¬ tenMinutesLeft.InLeapSecond ∧
      Instant.greatest.totalNanos <
        tenMinutesLeft.totalNanos + Span.twentyMinutes.totalNanos ∧
      entry.expiresAt.totalNanos = Instant.greatest.totalNanos ∧
      entry.IsFresh tenMinutesLeft ∧
      ¬ entry.IsFresh .greatest := by
  intro entry
  have settled : ¬ tenMinutesLeft.InLeapSecond := by decide
  have greatestSettled : ¬ Instant.greatest.InLeapSecond := by decide
  have beyond :
      Instant.greatest.totalNanos <
        tenMinutesLeft.totalNanos + Span.twentyMinutes.totalNanos := by
    decide
  obtain ⟨-, expiryEq, -, fresh_iff, -, -⟩ :=
    expiry_saturates settled .twentyMinutes lateQuote
  rw [min_eq_right beyond.le] at expiryEq fresh_iff
  exact ⟨settled, beyond, expiryEq, (fresh_iff _ settled).mpr (by decide),
    fun fresh => lt_irrefl _ ((fresh_iff _ greatestSettled).mp fresh)⟩

end NetWorth
