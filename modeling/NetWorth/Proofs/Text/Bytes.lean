import Mathlib
import NetWorth.Text.Bytes

/-!
# Bytes that are a text

Every character of a text is found in its bytes, and no byte is left over.  Where
bytes are no text, at least one of them belongs to no character.
-/

namespace NetWorth.Text

variable {bytes : ByteArray} {position : Nat}

/-- A character at a position is the first of those from there on. -/
theorem rawFrom_of_char
    {c : Char}
    (decoded : bytes.utf8DecodeChar? position = some c) :
    rawFrom bytes position = some c :: rawFrom bytes (position + c.utf8Size) := by
  have inside : position < bytes.size :=
    ByteArray.lt_size_of_isSome_utf8DecodeChar? (Option.isSome_of_eq_some decoded)
  rw [rawFrom, if_pos inside, decoded]

/-- The bytes from a position on are those of a character and of what follows it. -/
theorem extract_of_char
    {c : Char}
    (decoded : bytes.utf8DecodeChar? position = some c) :
    bytes.extract position bytes.size =
      [c].utf8Encode ++ bytes.extract (position + c.utf8Size) bytes.size := by
  have inside : position + c.utf8Size ≤ bytes.size :=
    ByteArray.le_size_of_utf8DecodeChar?_eq_some decoded
  rw [ByteArray.utf8DecodeChar?_eq_utf8DecodeChar?_extract] at decoded
  have apart := ByteArray.eq_of_utf8DecodeChar?_eq_some decoded
  rw [ByteArray.extract_extract, ByteArray.size_extract, min_self,
    Nat.add_sub_cancel' (Nat.le_of_add_right_le inside), min_self,
    ← List.utf8Encode_singleton] at apart
  exact apart

/-- The characters from a position on are legible where the bytes are theirs. -/
theorem rawFrom_eq_map_some_iff
    {cs : List Char} :
    rawFrom bytes position = cs.map some ↔
      bytes.extract position bytes.size = cs.utf8Encode := by
  induction cs generalizing position with
  | nil =>
      rw [List.map_nil, List.utf8Encode_nil, ByteArray.extract_eq_empty_iff, min_self,
        rawFrom]
      split
      case isTrue inside =>
        refine iff_of_false ?_ (Nat.not_le_of_lt inside)
        split <;> exact List.cons_ne_nil _ _
      case isFalse outside => exact iff_of_true rfl (Nat.le_of_not_lt outside)
  | cons c cs inductionHypothesis =>
      by_cases decoded : bytes.utf8DecodeChar? position = some c
      · rw [rawFrom_of_char decoded, extract_of_char decoded, List.map_cons,
          List.cons.injEq, inductionHypothesis, List.utf8Encode_cons (l := cs),
          ByteArray.append_right_inj]
        exact and_iff_right rfl
      · refine iff_of_false (fun same => decoded ?_) (fun same => decoded ?_)
        · rw [rawFrom] at same
          split at same
          case isTrue =>
            split at same
            case h_1 d found =>
              rw [found, (List.cons.inj same).1]
            case h_2 => cases (List.cons.inj same).1
          case isFalse => cases same
        · rw [ByteArray.utf8DecodeChar?_eq_utf8DecodeChar?_extract, same,
            List.utf8DecodeChar?_utf8Encode_cons]

/-- Every character is legible if and only if the bytes are those of a text. -/
theorem raw_eq_map_some_iff
    {cs : List Char} :
    raw bytes = cs.map some ↔ bytes = cs.utf8Encode := by
  rw [raw, rawFrom_eq_map_some_iff, ByteArray.extract_zero_size]

theorem raw_toUTF8
    (s : String) :
    raw s.toUTF8 = s.toList.map some :=
  raw_eq_map_some_iff.mpr s.utf8Encode_toList.symm

end NetWorth.Text
