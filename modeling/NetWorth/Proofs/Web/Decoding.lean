import Mathlib
import NetWorth.Json.Token
import NetWorth.Web.Encoding

/-!
# Escapes read back

A percent sign with two digits is an escape, and stands for a byte.  A text that
was encoded reads back as it was, whatever follows it.  A text that was not
encoded reads back as it was if, and only if, no escape begins anywhere in it:
each escape makes the bytes that are read fewer than those that are written.
-/

namespace NetWorth.Web.Encoding

/-! ## Escapes -/

/-- The bytes of a text. -/
def utf8 (cs : List Char) :
    List UInt8 :=
  cs.flatMap String.utf8EncodeChar

/-- The byte that is written as two digits in base sixteen. -/
def byte? (high low : Char) :
    Option UInt8 := do
  let sixteens ← Json.Token.hexValue? high
  let ones ← Json.Token.hexValue? low
  return UInt8.ofNat (16 * sixteens + ones)

/-- The bytes that a text stands for: a percent sign with two digits is the byte
of the digits, and any other character is itself. -/
def decode :
    List Char → List UInt8
  | [] => []
  | '%' :: high :: low :: after =>
      match byte? high low with
      | some byte => byte :: decode after
      | none => String.utf8EncodeChar '%' ++ decode (high :: low :: after)
  | c :: rest => String.utf8EncodeChar c ++ decode rest

/-- The text that a text stands for, unless its bytes are no text. -/
def decodeText? (cs : List Char) :
    Option String :=
  String.fromUTF8? (decode cs).toByteArray

/-- A text begins with a percent sign and two digits. -/
def IsEscape (cs : List Char) :
    Prop :=
  ∃ high low after,
    cs = '%' :: high :: low :: after ∧ (byte? high low).isSome

/-- An escape begins somewhere in a text. -/
def HasEscape (cs : List Char) :
    Prop :=
  ∃ tail, tail <:+ cs ∧ IsEscape tail

/-- There is no escape without a percent sign. -/
theorem not_hasEscape_of_not_mem
    {cs : List Char}
    (absent : '%' ∉ cs) :
    ¬ HasEscape cs := by
  rintro ⟨_, isTail, high, low, after, rfl, -⟩
  exact absent (isTail.subset List.mem_cons_self)

/-- A text begins with an escape, or has its escapes in the rest. -/
theorem hasEscape_cons_iff
    {c : Char}
    {rest : List Char} :
    HasEscape (c :: rest) ↔ IsEscape (c :: rest) ∨ HasEscape rest := by
  simp only [HasEscape, List.suffix_cons_iff, or_and_right, exists_or,
    exists_eq_left]

/-- A character after which no digit can follow keeps the escapes before it and
behind it apart. -/
theorem hasEscape_append_cons_iff
    {c : Char}
    (notDigit : Json.Token.hexValue? c = none)
    (notPercent : c ≠ '%')
    {before after : List Char} :
    HasEscape (before ++ c :: after) ↔ HasEscape before ∨ HasEscape after := by
  induction before with
  | nil =>
      have noStart : ¬ IsEscape (c :: after) := by
        rintro ⟨_, _, _, sameText, -⟩
        exact notPercent (List.cons.inj sameText).1
      have noEscape := not_hasEscape_of_not_mem (List.not_mem_nil (a := '%'))
      rw [List.nil_append, hasEscape_cons_iff, or_iff_right noStart,
        or_iff_right noEscape]
  | cons first rest inductionHypothesis =>
      have sameStart :
          IsEscape (first :: rest ++ c :: after) ↔ IsEscape (first :: rest) := by
        match rest with
        | [] => cases after <;> simp [IsEscape, byte?, notDigit]
        | [second] => simp [IsEscape, byte?, notDigit]
        | second :: third :: rest => simp [IsEscape]
      rw [List.cons_append, hasEscape_cons_iff, hasEscape_cons_iff,
        inductionHypothesis, ← List.cons_append, sameStart, or_assoc]

/-! ## What a text stands for -/

/-- An escape is read as its byte. -/
theorem decode_escape
    {high low : Char}
    {byte : UInt8}
    (isByte : byte? high low = some byte)
    (after : List Char) :
    decode ('%' :: high :: low :: after) = byte :: decode after := by
  rw [decode, isByte]

/-- A character with which no escape begins is read as itself. -/
theorem decode_cons
    {c : Char}
    {rest : List Char}
    (notEscape : ¬ IsEscape (c :: rest)) :
    decode (c :: rest) = String.utf8EncodeChar c ++ decode rest := by
  by_cases twoFollow : ∃ high low after, c = '%' ∧ rest = high :: low :: after
  · obtain ⟨high, low, after, rfl, rfl⟩ := twoFollow
    have notByte : byte? high low = none :=
      Option.not_isSome_iff_eq_none.mp fun isSome =>
        notEscape ⟨high, low, after, rfl, isSome⟩
    rw [decode, notByte]
  · exact decode.eq_3 c rest fun high low after isPercent follow =>
      twoFollow ⟨high, low, after, isPercent, follow⟩

/-- A text begins with an escape or not, and is read accordingly. -/
theorem decode_cases
    (c : Char)
    (rest : List Char) :
    (∃ high low after byte,
      c = '%' ∧ rest = high :: low :: after ∧ byte? high low = some byte ∧
        decode (c :: rest) = byte :: decode after) ∨
      ¬ IsEscape (c :: rest) ∧
        decode (c :: rest) = String.utf8EncodeChar c ++ decode rest := by
  by_cases isEscape : IsEscape (c :: rest)
  · obtain ⟨high, low, after, sameText, isSome⟩ := isEscape
    cases sameText
    obtain ⟨byte, isByte⟩ := Option.isSome_iff_exists.mp isSome
    exact .inl ⟨high, low, after, byte, rfl, rfl, isByte,
      decode_escape isByte after⟩
  · exact .inr ⟨isEscape, decode_cons isEscape⟩

/-- A text without escapes is read as itself. -/
theorem decode_of_not_hasEscape
    {cs : List Char}
    (plain : ¬ HasEscape cs) :
    decode cs = utf8 cs := by
  induction cs with
  | nil => rfl
  | cons c rest inductionHypothesis =>
      rw [hasEscape_cons_iff, not_or] at plain
      rw [decode_cons plain.1, inductionHypothesis plain.2]
      rfl

/-- Every character has a byte. -/
theorem length_utf8EncodeChar_pos
    (c : Char) :
    0 < (String.utf8EncodeChar c).length := by
  rw [String.length_utf8EncodeChar]
  exact c.utf8Size_pos

/-- What is read is never longer than what is written. -/
theorem length_decode_le
    (cs : List Char) :
    (decode cs).length ≤ (utf8 cs).length := by
  induction cs using decode.induct with
  | case1 => exact le_rfl
  | case2 high low after byte isByte inductionHypothesis =>
      simp only [decode_escape isByte, utf8, List.flatMap_cons, List.length_cons,
        List.length_append] at inductionHypothesis ⊢
      have highPos := length_utf8EncodeChar_pos high
      omega
  | case3 high low after notByte inductionHypothesis =>
      rw [decode]
      simpa [notByte, utf8] using inductionHypothesis
  | case4 c rest notEscape inductionHypothesis =>
      rw [decode.eq_3 c rest notEscape]
      simpa [utf8] using inductionHypothesis

/-- What is read is as long as what is written only if there is no escape. -/
theorem not_hasEscape_of_length_le
    {cs : List Char}
    (asLong : (utf8 cs).length ≤ (decode cs).length) :
    ¬ HasEscape cs := by
  induction cs with
  | nil => exact not_hasEscape_of_not_mem List.not_mem_nil
  | cons c rest inductionHypothesis =>
      rcases decode_cases c rest with
        ⟨high, low, after, byte, rfl, rfl, -, isRead⟩ | ⟨notEscape, isRead⟩
      · -- Three characters at the least were read as one byte.
        have shorter := length_decode_le after
        have percentPos := length_utf8EncodeChar_pos '%'
        have highPos := length_utf8EncodeChar_pos high
        have lowPos := length_utf8EncodeChar_pos low
        simp only [isRead, utf8, List.flatMap_cons, List.length_cons,
          List.length_append] at asLong shorter
        omega
      · rw [hasEscape_cons_iff, not_or]
        refine ⟨notEscape, inductionHypothesis ?_⟩
        simpa [isRead, utf8] using asLong

/-- A part of a text has no more bytes than the text. -/
theorem length_utf8_le_of_sublist
    {part whole : List Char}
    (isPart : part.Sublist whole) :
    (utf8 part).length ≤ (utf8 whole).length :=
  (isPart.flatMap String.utf8EncodeChar).length_le

/-- A part of a text has fewer bytes unless it is all of the text. -/
theorem eq_of_sublist_of_length_utf8
    {part whole : List Char}
    (isPart : part.Sublist whole)
    (asLong : (utf8 whole).length ≤ (utf8 part).length) :
    part = whole := by
  induction isPart with
  | slnil => rfl
  | cons c isPart inductionHypothesis =>
      have hasByte := length_utf8EncodeChar_pos c
      have rest := length_utf8_le_of_sublist isPart
      simp only [utf8, List.flatMap_cons, List.length_append] at asLong rest
      omega
  | cons_cons c isPart inductionHypothesis =>
      rw [inductionHypothesis]
      simpa [utf8] using asLong

/-- A text has the bytes of one text only. -/
theorem utf8_injective :
    Function.Injective utf8 := by
  intro first second sameBytes
  have sameText : String.ofList first = String.ofList second := by
    rw [← String.toByteArray_inj, String.toByteArray_ofList,
      String.toByteArray_ofList]
    exact congrArg List.toByteArray sameBytes
  exact String.ofList_injective sameText

/-- A text stands for the text that has its bytes. -/
theorem decodeText?_eq_some_iff
    {cs : List Char}
    {s : String} :
    decodeText? cs = some s ↔ decode cs = utf8 s.toList := by
  have sameBytes : s.toByteArray = (utf8 s.toList).toByteArray :=
    String.utf8Encode_toList.symm
  rw [← List.toByteArray_inj, ← sameBytes, decodeText?, String.fromUTF8?]
  constructor
  · intro isText
    split at isText
    · cases isText
      rfl
    · cases isText
  · intro isText
    rw [isText, dif_pos s.isValidUTF8]
    rfl

/-- A text without escapes stands for itself. -/
theorem decodeText?_of_not_hasEscape
    {cs : List Char}
    (plain : ¬ HasEscape cs) :
    decodeText? cs = some (String.ofList cs) := by
  rw [decodeText?_eq_some_iff, decode_of_not_hasEscape plain,
    String.toList_ofList]

/-! ## Reading what was encoded -/

section Encoded

open Encoding

variable
  {isPlain : Char → Bool}
  (percentNotPlain : isPlain '%' = false)

private theorem byte?_hexDigit :
    ∀ byte : UInt8,
      byte? (hexDigit (byte.toNat / 16)) (hexDigit (byte.toNat % 16)) =
        some byte := by
  decide +kernel

private theorem utf8EncodeChar_ofNat :
    ∀ byte : UInt8,
      byte < 0x80 → String.utf8EncodeChar (Char.ofNat byte.toNat) = [byte] := by
  decide +kernel

/-- The bytes from an index on are listed behind the ones before it. -/
private theorem toList_loop
    (bytes : ByteArray)
    (i : Nat)
    (before : List UInt8) :
    ByteArray.toList.loop bytes i before =
      before.reverse ++ bytes.data.toList.drop i := by
  fun_induction ByteArray.toList.loop bytes i before with
  | case1 i before isIndex inductionHypothesis =>
      have inList : i < bytes.data.toList.length := by simpa using isIndex
      have isByte : bytes.get! i = bytes.data.toList[i] := by
        simp [ByteArray.get!, isIndex]
      rw [inductionHypothesis, List.drop_eq_getElem_cons inList, isByte,
        List.reverse_cons, List.append_assoc, List.singleton_append]
  | case2 i before notIndex =>
      have beyond : bytes.data.toList.length ≤ i := by simpa using notIndex
      rw [List.drop_eq_nil_of_le beyond, List.append_nil]

/-- The bytes of a text are the bytes of its characters. -/
private theorem toList_toUTF8
    (s : String) :
    s.toUTF8.toList = utf8 s.toList := by
  have sameBytes : s.toUTF8 = (utf8 s.toList).toByteArray :=
    String.utf8Encode_toList.symm
  rw [sameBytes, ByteArray.toList, toList_loop, List.toList_data_toByteArray]
  rfl

include percentNotPlain in
/-- Whatever follows a text that was encoded, the bytes of the text are read
first. -/
theorem decode_encodeWith_append
    (s : String)
    (after : List Char) :
    decode (encodeWith isPlain s ++ after) = utf8 s.toList ++ decode after := by
  rw [← toList_toUTF8, encodeWith]
  induction s.toUTF8.toList with
  | nil => rfl
  | cons byte rest inductionHypothesis =>
      simp only [List.flatMap_cons, List.append_assoc, List.cons_append]
      split
      case isTrue standsForItself =>
        have notEscape :
            ∀ after, ¬ IsEscape (Char.ofNat byte.toNat :: after) := by
          rintro after ⟨_, _, _, sameText, -⟩
          rw [(List.cons.inj sameText).1, percentNotPlain] at standsForItself
          cases standsForItself.2
        rw [List.singleton_append, decode_cons (notEscape _),
          utf8EncodeChar_ofNat byte standsForItself.1, inductionHypothesis]
        rfl
      case isFalse =>
        rw [escapeByte, List.cons_append, List.cons_append, List.cons_append,
          List.nil_append, decode_escape (byte?_hexDigit byte),
          inductionHypothesis]

include percentNotPlain in
/-- A text that was encoded reads back as it was. -/
theorem decodeText?_encodeWith
    (s : String) :
    decodeText? (encodeWith isPlain s) = some s := by
  have isRead := decode_encodeWith_append percentNotPlain s []
  rw [List.append_nil, decode, List.append_nil] at isRead
  exact decodeText?_eq_some_iff.mpr isRead

/-- A text that was encoded is made of plain characters and of escapes. -/
theorem isPlain_of_mem_encodeWith
    {s : String}
    {c : Char}
    (isChar : c ∈ encodeWith isPlain s) :
    isPlain c ∨ c = '%' ∨ c.isAlphanum := by
  have hexDigit_isAlphanum : ∀ n < 16, (hexDigit n).isAlphanum := by decide
  obtain ⟨byte, -, isChar⟩ := List.mem_flatMap.mp isChar
  have small := byte.toNat_lt
  simp only at isChar
  split at isChar
  case isTrue standsForItself =>
    rw [List.mem_singleton.mp isChar]
    exact .inl standsForItself.2
  case isFalse =>
    rcases List.mem_cons.mp isChar with isPercent | isDigit
    · exact .inr (.inl isPercent)
    · simp only [List.mem_cons, List.not_mem_nil, or_false] at isDigit
      rcases isDigit with rfl | rfl <;>
        exact .inr (.inr (hexDigit_isAlphanum _ (by omega)))

end Encoded

/-- A character that is seen, and does not end a field, a query or an
address. -/
structure IsInner (c : Char) :
    Prop where
  visible : 0x20 < c.toNat
  noDelimiter : c ∉ ['#', '&', '=']

/-- Letters, digits and some signs are inner characters. -/
private theorem isInner_of
    {c : Char}
    (isPart : c.isAlphanum ∨ c ∈ "-._~*+%".toList) :
    IsInner c := by
  have outer :
      ∀ n ≤ 0x20,
        (Char.ofNat n).isAlphanum = false ∧
          Char.ofNat n ∉ "-._~*+%".toList := by
    decide
  constructor
  · by_contra control
    obtain ⟨notAlphanum, notSign⟩ := outer c.toNat (not_lt.mp control)
    rw [Char.ofNat_toNat] at notAlphanum notSign
    rcases isPart with isAlphanum | isSign
    · rw [notAlphanum] at isAlphanum
      cases isAlphanum
    · exact notSign isSign
  · intro isDelimiter
    simp only [List.mem_cons, List.not_mem_nil, or_false] at isDelimiter
    rcases isDelimiter with rfl | rfl | rfl <;> revert isPart <;> decide

/-- A part of an address reads back as it was. -/
theorem decodeText?_percent
    (s : String) :
    decodeText? (percent s).toList = some s := by
  rw [percent, String.toList_ofList]
  exact decodeText?_encodeWith (by decide) s

/-- A part of an address is made of inner characters without plus signs. -/
theorem isInner_of_mem_percent
    {s : String}
    {c : Char}
    (isChar : c ∈ (percent s).toList) :
    IsInner c ∧ c ≠ '+' := by
  rw [percent, String.toList_ofList] at isChar
  have isPart : c.isAlphanum ∨ c ∈ "-._~%".toList := by
    rcases isPlain_of_mem_encodeWith isChar with isPlain | rfl | isAlphanum
    · rw [Bool.or_eq_true, List.contains_iff_mem] at isPlain
      exact isPlain.imp_right (List.mem_append_left ['%'])
    · exact .inr (by decide)
    · exact .inl isAlphanum
  constructor
  · have subset : "-._~%".toList ⊆ "-._~*+%".toList := by decide
    exact isInner_of (isPart.imp_right (subset ·))
  · rintro rfl
    revert isPart
    decide

/-- A field of a form is made of inner characters. -/
theorem isInner_of_mem_formField
    {s : String}
    {c : Char}
    (isChar : c ∈ (formField s).toList) :
    IsInner c := by
  rw [formField, String.toList_ofList] at isChar
  obtain ⟨written, isWritten, rfl⟩ := List.mem_map.mp isChar
  split
  case isTrue => exact isInner_of (by decide)
  case isFalse notBlank =>
    apply isInner_of
    rcases isPlain_of_mem_encodeWith isWritten with isPlain | rfl | isAlphanum
    · rw [Bool.or_eq_true, List.contains_iff_mem] at isPlain
      refine isPlain.imp_right fun isSign => ?_
      have subset : "*-._".toList ⊆ "-._~*+%".toList := by decide
      rcases List.mem_append.mp (show written ∈ "*-._".toList ++ [' '] from isSign)
        with isSign | isBlank
      · exact subset isSign
      · exact absurd (List.mem_singleton.mp isBlank) notBlank
    · exact .inr (by decide)
    · exact .inl isAlphanum

end NetWorth.Web.Encoding
