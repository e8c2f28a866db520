import Mathlib
import NetWorth.Decimal.Reading
import NetWorth.Proofs.Text.Numeral

/-!
# Decimals read back

A decimal that is written and read keeps its magnitude and its scale, and its
sign unless it is a zero: the digit by digit reader has a place for every digit
that a decimal writes, and gives a zero no sign.
-/

namespace NetWorth.Decimal

open Text.Numeral (digitValue writePadded)

namespace Numeral

/-- The number that digits lead to after those that have been read is at least
the one read so far. -/
private theorem le_ofDigitChars
    (digits : List Char)
    (n : Nat) :
    n ≤ Nat.ofDigitChars 10 digits n := by
  rw [Nat.ofDigitChars_eq_ofDigitChars_zero]
  calc
    n ≤ 10 ^ digits.length * n :=
      Nat.le_mul_of_pos_left n (Nat.pow_pos (by decide))
    _ ≤ _ := Nat.le_add_right _ _

/-- The integer part takes every digit whose number fits. -/
private theorem readWhole_append
    {digits : List Char}
    (areDigits : ∀ c ∈ digits, c.isDigit = true)
    (coefficient : Nat)
    (seen : Bool)
    (fits : Nat.ofDigitChars 10 digits coefficient ≤ maxCoefficient)
    (rest : List Char) :
    readWhole coefficient seen (digits ++ rest) =
      readWhole (Nat.ofDigitChars 10 digits coefficient)
        (seen || !digits.isEmpty) rest := by
  induction digits generalizing coefficient seen with
  | nil => simp
  | cons c digits inductionHypothesis =>
      rw [List.forall_mem_cons] at areDigits
      have longerFits : 10 * coefficient + digitValue c ≤ maxCoefficient :=
        (le_ofDigitChars digits _).trans fits
      have restRead :=
        inductionHypothesis areDigits.2 (10 * coefficient + digitValue c) true fits
      rw [List.cons_append, readWhole, if_pos areDigits.1, if_pos longerFits,
        restRead, Nat.ofDigitChars_cons]
      simp [digitValue]

/-- The places take every digit while there is room for them. -/
private theorem readPlaces_digits
    {digits : List Char}
    (areDigits : ∀ c ∈ digits, c.isDigit = true)
    (n : Numeral)
    (seen : Bool)
    (seenSome : seen = true ∨ digits ≠ [])
    (room : n.scale + digits.length ≤ maxScale)
    (fits : Nat.ofDigitChars 10 digits n.coefficient ≤ maxCoefficient) :
    readPlaces n seen digits =
      some ⟨Nat.ofDigitChars 10 digits n.coefficient,
        n.scale + digits.length⟩ := by
  induction digits generalizing n seen with
  | nil =>
      have isSeen : seen = true := by simpa using seenSome
      simp [readPlaces, isSeen]
  | cons c digits inductionHypothesis =>
      rw [List.forall_mem_cons] at areDigits
      rw [List.length_cons] at room
      have longerFits : 10 * n.coefficient + digitValue c ≤ maxCoefficient :=
        (le_ofDigitChars digits _).trans fits
      have hasRoom : n.scale < maxScale := by omega
      have restRead :=
        inductionHypothesis areDigits.2
          ⟨10 * n.coefficient + digitValue c, n.scale + 1⟩ true (.inl rfl)
          (by simp only; omega) fits
      rw [readPlaces, if_pos areDigits.1, if_pos ⟨hasRoom, longerFits⟩,
        restRead, Nat.ofDigitChars_cons, List.length_cons, Nat.add_assoc,
        Nat.add_comm 1]
      rfl

/-- Digits with as many places as fit are read as the number that they stand
for without the point. -/
private theorem readWhole_point
    {whole places : List Char}
    (wholeDigits : ∀ c ∈ whole, c.isDigit = true)
    (placesDigits : ∀ c ∈ places, c.isDigit = true)
    (someWhole : whole ≠ [])
    (room : places.length ≤ maxScale)
    (fits : Text.Numeral.value (whole ++ places) ≤ maxCoefficient) :
    readWhole 0 false
        (whole ++ if places.length = 0 then [] else '.' :: places) =
      some ⟨Text.Numeral.value (whole ++ places), places.length⟩ := by
  have valueEq :
      Text.Numeral.value (whole ++ places) =
        Nat.ofDigitChars 10 places (Nat.ofDigitChars 10 whole 0) :=
    Nat.ofDigitChars_append 0
  rw [valueEq] at fits ⊢
  have wholeFits : Nat.ofDigitChars 10 whole 0 ≤ maxCoefficient :=
    (le_ofDigitChars places _).trans fits
  have isSeen : (false || !whole.isEmpty) = true := by
    simpa [List.isEmpty_iff] using someWhole
  rw [readWhole_append wholeDigits 0 false wholeFits, isSeen]
  split
  · next noPlaces =>
    rw [List.length_eq_zero_iff] at noPlaces
    subst noPlaces
    rfl
  · rw [readWhole, if_neg (by decide), if_pos rfl,
      readPlaces_digits placesDigits _ true (.inl rfl)
        (by simpa using room) fits]
    simp

end Numeral

/-- A coefficient with the sign of a decimal is that of the decimal, but for the
sign of a zero. -/
private theorem ofCoefficient?_signed
    (a : Decimal) :
    ofCoefficient? (if a.negative then -a.magnitude else a.magnitude) a.scale =
      some a.unsignedZero := by
  obtain ⟨negative, magnitude, scale, magnitudeLe, scaleLe⟩ := a
  have inRange : magnitude ≤ maxCoefficient ∧ scale ≤ maxScale :=
    ⟨magnitudeLe, scaleLe⟩
  by_cases isZero : magnitude = 0
  · subst isZero
    cases negative <;>
      simp [ofCoefficient?, ofParts?, scaleLe, unsignedZero, IsZero]
  · have isPositive : 0 < magnitude := Nat.pos_of_ne_zero isZero
    cases negative <;>
      simp [ofCoefficient?, ofParts?, inRange, unsignedZero, IsZero, isZero,
        isPositive]

/-- A sign in front of digits is split off, and digits have none. -/
private theorem ofChars?_signed
    (negative : Bool)
    (digits : List Char)
    (startsWithDigit : ∃ c rest, digits = c :: rest ∧ c.isDigit = true) :
    ofChars? ((if negative then ['-'] else []) ++ digits) =
      (Numeral.readWhole 0 false digits).bind fun n =>
        ofCoefficient? (if negative then -n.coefficient else n.coefficient)
          n.scale := by
  obtain ⟨c, rest, rfl, isDigit⟩ := startsWithDigit
  cases negative with
  | true => rfl
  | false =>
      have notMinus : c ≠ '-' := by rintro rfl; exact absurd isDigit (by decide)
      have notPlus : c ≠ '+' := by rintro rfl; exact absurd isDigit (by decide)
      simp [ofChars?, notMinus, notPlus]

/-- What is written is read as the same decimal, but for the sign of a zero. -/
theorem ofText?_toText
    (a : Decimal) :
    ofText? a.toText = some a.unsignedZero := by
  let digits := writePadded (a.scale + 1) a.magnitude
  let whole := digits.take (digits.length - a.scale)
  let places := digits.drop (digits.length - a.scale)
  have areDigits : ∀ c ∈ digits, c.isDigit = true :=
    fun c mem => Text.Numeral.isDigit_of_mem_writePadded mem
  have enough : a.scale + 1 ≤ digits.length := by
    rw [Text.Numeral.length_writePadded]
    exact Nat.le_max_left _ _
  have rejoined : whole ++ places = digits :=
    List.take_append_drop _ _
  have placesLength : places.length = a.scale := by
    rw [List.length_drop]
    omega
  have someWhole : whole ≠ [] := by
    rw [← List.length_pos_iff, List.length_take]
    omega
  have valueEq : Text.Numeral.value (whole ++ places) = a.magnitude := by
    rw [rejoined, Text.Numeral.value_writePadded]
  have wholeDigits : ∀ c ∈ whole, c.isDigit = true :=
    fun c mem => areDigits c (List.mem_of_mem_take mem)
  have read :
      Numeral.readWhole 0 false
          (whole ++ if a.scale = 0 then [] else '.' :: places) =
        some ⟨a.magnitude, a.scale⟩ := by
    have general :=
      Numeral.readWhole_point wholeDigits
        (fun c mem => areDigits c (List.mem_of_mem_drop mem)) someWhole
        (placesLength ▸ a.scale_le) (valueEq ▸ a.magnitude_le)
    rwa [placesLength, valueEq] at general
  have charsRead : ofChars? a.toChars = some a.unsignedZero := by
    obtain ⟨c, rest, wholeEq⟩ := List.exists_cons_of_ne_nil someWhole
    have signSplit :=
      ofChars?_signed a.negative
        (whole ++ if a.scale = 0 then [] else '.' :: places)
        ⟨c, _, by rw [wholeEq]; rfl, wholeDigits c (wholeEq ▸ List.mem_cons_self)⟩
    rw [read, ← List.append_assoc] at signSplit
    exact signSplit.trans (ofCoefficient?_signed a)
  rw [ofText?, toText, String.toList_ofList, charsRead]
  rfl

/-! ## The sign of a zero -/

/-- A zero with a minus sign. -/
def IsSignedZero
    (a : Decimal) :
    Prop :=
  a.IsZero ∧ a.negative = true

/-- Only a zero with a minus sign loses it. -/
theorem unsignedZero_eq_self_iff
    {a : Decimal} :
    a.unsignedZero = a ↔ ¬ a.IsSignedZero := by
  unfold unsignedZero IsSignedZero
  by_cases isZero : a.IsZero
  · rw [if_pos isZero]
    constructor
    · rintro same ⟨-, isNegative⟩
      rw [← same] at isNegative
      cases isNegative
    · intro notSigned
      have noSign : a.negative = false := by
        simpa [isZero] using notSigned
      rw [← noSign]
  · rw [if_neg isZero]
    exact iff_of_true rfl fun signed => isZero signed.1

theorem unsignedZero_of_not_isSignedZero
    {a : Decimal}
    (notSigned : ¬ a.IsSignedZero) :
    a.unsignedZero = a :=
  unsignedZero_eq_self_iff.mpr notSigned

@[simp] theorem unsignedZero_unsignedZero
    (a : Decimal) :
    a.unsignedZero.unsignedZero = a.unsignedZero := by
  unfold unsignedZero
  by_cases isZero : a.IsZero
  · have stillZero : ({ a with negative := false } : Decimal).IsZero := isZero
    simp [isZero, stillZero]
  · simp [isZero]

end NetWorth.Decimal
