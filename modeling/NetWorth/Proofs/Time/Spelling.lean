import Mathlib
import NetWorth.Time.Span
import NetWorth.Proofs.Text.Numeral
import NetWorth.Proofs.Text.SmallLetters

/-!
# Spellings of spans

A span is spelled with a number and the letter of a unit, in either case, and with
white space around both.  Exactly the texts that are spelled like this are read,
unless the number or the seconds take more than 64 bits.  The letter may be cut
off as the last byte of a text: that never takes a character apart.
-/

namespace NetWorth

open Text.Numeral (Row readBelow? readBelow?_eq_some_iff)

namespace TimeUnit

/-- A small letter stands for one unit. -/
theorem ofLetter?_eq_some_iff
    {c : Char}
    {unit : TimeUnit} :
    ofLetter? c = some unit ↔ c = unit.letter := by
  constructor
  · intro found
    have isLetter : unit.letter == c := by
      simpa using List.find?_some found
    exact (eq_of_beq isLetter).symm
  · rintro rfl
    cases unit <;> rfl

/-- The letter of a unit as it may be written. -/
def written
    (unit : TimeUnit)
    (capital : Bool) :
    Char :=
  if capital then unit.letter.toUpper else unit.letter

/-- The letter of a unit is read in either case. -/
theorem ofLetter?_toLower_eq_some_iff
    {c : Char}
    {unit : TimeUnit} :
    ofLetter? c.toLower = some unit ↔ ∃ capital, c = unit.written capital := by
  have isSmall : unit.letter.toLower = unit.letter := by
    cases unit <;> rfl
  rw [ofLetter?_eq_some_iff, Text.toLower_eq_iff isSmall]
  simp [written]

theorem not_isBlank_written
    (unit : TimeUnit)
    (capital : Bool) :
    ¬ Text.isBlank (unit.written capital) := by
  cases unit <;> cases capital <;> decide

end TimeUnit

/-! ## The number -/

namespace Text.Numeral.Row

variable (row : Row)

theorem chars_ne_nil :
    row.chars ≠ [] := by
  unfold chars
  split
  · exact List.cons_ne_nil _ _
  · exact row.some_digit

/-- There are digits in a number, and at most a sign. -/
theorem mem_chars
    {c : Char}
    (member : c ∈ row.chars) :
    c = '+' ∨ c.isDigit := by
  unfold chars at member
  split at member
  case isTrue => exact (List.mem_cons.mp member).imp_right (row.all_digits c)
  case isFalse => exact .inr (row.all_digits c member)

theorem not_isBlank_of_mem_chars
    {c : Char}
    (member : c ∈ row.chars) :
    ¬ isBlank c := by
  rcases row.mem_chars member with rfl | isDigit
  · decide
  · exact not_isBlank_of_isDigit isDigit

theorem not_isAlpha_of_mem_chars
    {c : Char}
    (member : c ∈ row.chars) :
    ¬ c.isAlpha := by
  rcases row.mem_chars member with rfl | isDigit
  · decide
  · exact not_isAlpha_of_isDigit isDigit

theorem trimmed_chars :
    Trimmed row.chars where
  head _ found := row.not_isBlank_of_mem_chars (List.mem_of_head? found)
  last _ found := row.not_isBlank_of_mem_chars (List.mem_of_getLast? found)

/-- A number is read in front of a unit from what is left without white space. -/
theorem readBelow?_trimChars_iff
    {front : List Char}
    {bound count : Nat} :
    readBelow? bound (trimChars (front.map Char.toLower)) = some count ↔
      ∃ row : Row,
        trimChars front = row.chars ∧ row.number = count ∧ count < bound := by
  rw [trimChars_map_toLower, readBelow?_eq_some_iff]
  refine exists_congr fun row => and_congr_left fun _ => ?_
  rw [eq_comm, map_toLower_eq_iff]
  exact fun c => row.not_isAlpha_of_mem_chars

end Text.Numeral.Row

/-! ## Spellings -/

namespace Span

/-- A number and a unit as they may be written, with white space between them or
none. -/
structure Spelling extends Row where
  between : List Char
  unit : TimeUnit
  capital : Bool
  between_blank : ∀ c ∈ between, Text.isBlank c

namespace Spelling

variable (spelling : Spelling)

/-- The characters from the number to the unit. -/
def chars :
    List Char :=
  spelling.toRow.chars ++ spelling.between ++
    [spelling.unit.written spelling.capital]

/-- Whether a text is spelled like this, with white space around it or none. -/
def Spells
    (text : String) :
    Prop :=
  ∃ lead trail,
    (∀ c ∈ lead, Text.isBlank c) ∧ (∀ c ∈ trail, Text.isBlank c) ∧
      lead ++ spelling.chars ++ trail = text.toList

/-- The seconds that are spelled. -/
def seconds :
    Nat :=
  spelling.number * spelling.unit.length

/-- Neither the number nor the seconds take more than 64 bits. -/
def Fits :
    Prop :=
  spelling.number ≤ 2 ^ 64 - 1 ∧ spelling.seconds ≤ 2 ^ 64 - 1

theorem trimmed_chars :
    Text.Trimmed spelling.chars where
  head c found := by
    rw [chars, List.append_assoc,
      List.head?_append_of_ne_nil _ spelling.toRow.chars_ne_nil] at found
    exact spelling.toRow.trimmed_chars.head c found
  last c found := by
    rw [chars, List.getLast?_concat, Option.some.injEq] at found
    rw [← found]
    exact TimeUnit.not_isBlank_written _ _

/-- A text is spelled by what is left of it without white space around it. -/
theorem spells_iff
    {text : String} :
    spelling.Spells text ↔ Text.trimChars text.toList = spelling.chars := by
  rw [Text.trimChars_eq_iff]
  exact (and_iff_right spelling.trimmed_chars).symm

/-- The number is what is left in front of the unit without white space. -/
theorem trimChars_front :
    Text.trimChars (spelling.toRow.chars ++ spelling.between) =
      spelling.toRow.chars :=
  Text.trimChars_eq_iff.mpr
    ⟨spelling.toRow.trimmed_chars, [], spelling.between, by simp,
      spelling.between_blank, rfl⟩

/-- A number in front of a unit makes a spelling. -/
theorem exists_chars_eq
    {front : List Char}
    {row : Row}
    {unit : TimeUnit}
    {capital : Bool}
    (trimmed : Text.Trimmed (front ++ [unit.written capital]))
    (isNumber : Text.trimChars front = row.chars) :
    ∃ spelling : Spelling,
      spelling.chars = front ++ [unit.written capital] ∧
        spelling.toRow = row ∧ spelling.unit = unit := by
  obtain ⟨-, lead, between, leadBlank, betweenBlank, rfl⟩ :=
    Text.trimChars_eq_iff.mp isNumber
  cases lead with
  | nil => exact ⟨⟨row, between, unit, capital, betweenBlank⟩, rfl, rfl, rfl⟩
  | cons c rest =>
      -- white space in front of the number would be in front of the whole text
      exact absurd (leadBlank c List.mem_cons_self) (trimmed.head c rfl)

end Spelling

/-! ## Reading -/

/-- The text as it is read: trimmed, in small letters. -/
def folded
    (text : String) :
    List Char :=
  (Text.trimChars text.toList).map Char.toLower

theorem ofSeconds?_eq_some_iff
    {seconds : Nat}
    {span : Span} :
    ofSeconds? seconds = some span ↔ span.seconds = seconds ∧ span.nanos = 0 := by
  obtain ⟨found, nanos, fits, -⟩ := span
  unfold ofSeconds?
  split
  case isTrue =>
    rw [Option.some.injEq, Span.mk.injEq, @eq_comm _ seconds, @eq_comm _ 0]
  case isFalse tooLarge =>
    refine iff_of_false (Option.some_ne_none _).symm ?_
    rintro ⟨rfl, -⟩
    exact tooLarge fits

/-- A reading succeeds if each of its steps does. -/
theorem ofText_eq_ok_iff
    {text : String}
    {span : Span} :
    ofText text = .ok span ↔
      ∃ front letter unit count,
        folded text = front ++ [letter] ∧
          TimeUnit.ofLetter? letter = some unit ∧
          readBelow? UInt64.size (Text.trimChars front) = some count ∧
          ofSeconds? (count * unit.length) = some span := by
  constructor
  · intro read
    simp only [ofText] at read
    split at read
    case h_1 => cases read
    case h_2 letter isLast =>
      obtain ⟨front, sameText⟩ := List.getLast?_eq_some_iff.mp isLast
      rw [sameText, List.dropLast_concat] at read
      split at read
      case h_1 => cases read
      case h_2 unit isUnit =>
        split at read
        case h_1 => cases read
        case h_2 count isCount =>
          split at read
          case h_1 => cases read
          case h_2 found isSpan =>
            cases read
            exact ⟨front, letter, unit, count, sameText, isUnit, isCount, isSpan⟩
  · rintro ⟨front, letter, unit, count, sameText, isUnit, isCount, isSpan⟩
    unfold folded at sameText
    simp only [ofText, sameText, List.getLast?_concat, List.dropLast_concat,
      isUnit, isCount, isSpan]

/-- A span is read from its spellings and from nothing else. -/
theorem ofText_eq_ok_iff_spells
    {text : String}
    {span : Span} :
    ofText text = .ok span ↔
      ∃ spelling : Spelling,
        spelling.Spells text ∧ spelling.Fits ∧
          span.seconds = spelling.seconds ∧ span.nanos = 0 := by
  have size : UInt64.size = 2 ^ 64 := rfl
  rw [ofText_eq_ok_iff]
  constructor
  · rintro ⟨front, letter, unit, count, sameText, isUnit, isCount, isSpan⟩
    obtain ⟨number, last, isText, rfl, isLast⟩ := List.map_eq_append_iff.mp sameText
    obtain ⟨c, rfl, rfl⟩ := List.map_eq_singleton_iff.mp isLast
    obtain ⟨capital, rfl⟩ := TimeUnit.ofLetter?_toLower_eq_some_iff.mp isUnit
    obtain ⟨row, isNumber, rfl, below⟩ := Row.readBelow?_trimChars_iff.mp isCount
    obtain ⟨spelling, sameChars, rfl, rfl⟩ :=
      Spelling.exists_chars_eq (isText ▸ Text.trimmed_trimChars _) isNumber
    obtain ⟨isSeconds, noNanos⟩ := ofSeconds?_eq_some_iff.mp isSpan
    have spells : spelling.Spells text :=
      spelling.spells_iff.mpr (isText.trans sameChars.symm)
    have isSeconds : span.seconds = spelling.seconds := isSeconds
    have fits := span.seconds_lt
    refine ⟨spelling, spells, ⟨?_, ?_⟩, isSeconds, noNanos⟩ <;> omega
  · rintro ⟨spelling, spells, ⟨numberFits, -⟩, isSeconds, noNanos⟩
    refine ⟨(spelling.toRow.chars ++ spelling.between).map Char.toLower,
      (spelling.unit.written spelling.capital).toLower, spelling.unit,
      spelling.number, ?_, ?_, ?_, ?_⟩
    · rw [folded, spelling.spells_iff.mp spells, Spelling.chars, List.map_append]
      rfl
    · exact TimeUnit.ofLetter?_toLower_eq_some_iff.mpr ⟨_, rfl⟩
    · refine Row.readBelow?_trimChars_iff.mpr
        ⟨spelling.toRow, spelling.trimChars_front, rfl, ?_⟩
      omega
    · exact ofSeconds?_eq_some_iff.mpr ⟨isSeconds, noNanos⟩

/-! ## Reading by bytes -/

end Span

/-- A text without its last byte, unless that takes a character apart. -/
def Text.withoutLastByte?
    (text : String) :
    Option String :=
  String.fromUTF8? (text.toUTF8.extract 0 (text.utf8ByteSize - 1))

/-- A character of one byte is taken off as a whole. -/
theorem Text.withoutLastByte?_concat
    {c : Char}
    (oneByte : c.utf8Size = 1)
    (front : List Char) :
    withoutLastByte? (String.ofList (front ++ [c])) =
      some (String.ofList front) := by
  have bytes :
      (String.ofList (front ++ [c])).toUTF8 =
        (String.ofList front).toUTF8 ++ (String.singleton c).toUTF8 := by
    rw [String.ofList_append, ← String.singleton_eq_ofList]
    exact String.toByteArray_append
  have size :
      (String.ofList (front ++ [c])).utf8ByteSize - 1 =
        (String.ofList front).toUTF8.size := by
    rw [String.ofList_append, ← String.singleton_eq_ofList,
      String.utf8ByteSize_append, String.utf8ByteSize_singleton, oneByte]
    exact Nat.add_sub_cancel _ 1
  rw [withoutLastByte?, bytes, size, ByteArray.extract_append_eq_left rfl]
  exact dif_pos (String.ofList front).isValidUTF8

namespace Span

/-- Reads a span like `ofText`, but takes the letter of the unit off as the last
byte.  Nothing is read if that takes a character apart. -/
def ofBytes?
    (text : String) :
    Option (Except SpanError Span) :=
  let cs := folded text
  match cs.getLast? with
  | none => some (.error .empty)
  | some letter =>
    match TimeUnit.ofLetter? letter with
    | none => some (.error .noUnit)
    | some unit =>
      (Text.withoutLastByte? (String.ofList cs)).map fun front =>
        match readBelow? UInt64.size (Text.trimChars front.toList) with
        | none => .error (.badNumber (String.ofList cs))
        | some count =>
          match ofSeconds? (count * unit.length) with
          | none => .error .tooLarge
          | some span => .ok span

/-- No character is taken apart. -/
theorem ofBytes?_eq
    (text : String) :
    ofBytes? text = some (ofText text) := by
  rw [ofBytes?, ofText, ← folded]
  cases isLast : (folded text).getLast? with
  | none => rfl
  | some letter =>
      dsimp only
      cases isUnit : TimeUnit.ofLetter? letter with
      | none => rfl
      | some unit =>
          obtain ⟨front, sameText⟩ := List.getLast?_eq_some_iff.mp isLast
          have oneByte : letter.utf8Size = 1 := by
            rw [TimeUnit.ofLetter?_eq_some_iff.mp isUnit]
            cases unit <;> rfl
          rw [sameText, Text.withoutLastByte?_concat oneByte,
            List.dropLast_concat]
          dsimp only [Option.map_some]
          generalize readBack : (String.ofList front).toList = cs
          obtain rfl : front = cs := String.toList_ofList.symm.trans readBack
          rfl

/--
A span is read from a text if and only if the text is spelled with a number and a
unit such that neither the number nor the seconds take more than 64 bits.  It has
these seconds and no part of a second.  Every other text gives an error.  Cutting
the unit off by the byte does the same, and takes no character apart.
-/
theorem read_iff_spelled
    (text : String) :
    (∀ span : Span,
        ofText text = .ok span ↔
          ∃ spelling : Spelling,
            spelling.Spells text ∧ spelling.Fits ∧
              span.seconds = spelling.seconds ∧ span.nanos = 0) ∧
      ((∃ error, ofText text = .error error) ↔
        ¬ ∃ spelling : Spelling, spelling.Spells text ∧ spelling.Fits) ∧
      ofBytes? text = some (ofText text) := by
  refine ⟨fun span => ofText_eq_ok_iff_spells, ?refused, ofBytes?_eq text⟩
  case refused =>
    cases outcome : ofText text with
    | error error =>
        refine iff_of_true ⟨error, rfl⟩ ?_
        rintro ⟨spelling, spells, fits⟩
        have secondsLt : spelling.seconds < UInt64.size :=
          Nat.lt_of_le_pred (by decide) fits.2
        have accepted : ofText text = .ok ⟨spelling.seconds, 0, secondsLt, by decide⟩ :=
          ofText_eq_ok_iff_spells.mpr ⟨spelling, spells, fits, rfl, rfl⟩
        rw [outcome] at accepted
        cases accepted
    | ok span =>
        obtain ⟨spelling, spells, fits, -⟩ := ofText_eq_ok_iff_spells.mp outcome
        refine iff_of_false ?_ (not_not_intro ⟨spelling, spells, fits⟩)
        rintro ⟨error, isError⟩
        cases isError

example :
    (ofText "\u3000+007\u00A0H\n").toOption.map Span.toText = some "7h" := by
  decide +kernel

end Span

end NetWorth
