import Mathlib
import NetWorth.Text.Blank

/-!
# Trimming

A text is trimmed if neither end is white space.  Trimming takes the white space
off a text and nothing else: it finds the one trimmed text that gives the whole
text with white space around it.
-/

namespace NetWorth.Text

/-! ## Digits and letters -/

/-- The letters are those of the Latin alphabet. -/
theorem isAlpha_iff_toNat
    {c : Char} :
    c.isAlpha ↔
      0x41 ≤ c.toNat ∧ c.toNat ≤ 0x5A ∨ 0x61 ≤ c.toNat ∧ c.toNat ≤ 0x7A := by
  simp [Char.isAlpha, Char.isUpper, Char.isLower, UInt32.le_iff_toNat_le]

/-- A digit is no white space. -/
theorem not_isBlank_of_isDigit
    {c : Char}
    (isDigit : c.isDigit) :
    ¬ isBlank c := by
  have code : 48 ≤ c.toNat ∧ c.toNat ≤ 57 := Char.isDigit_iff_toNat.mp isDigit
  simp only [isBlank, Bool.or_eq_true, Bool.and_eq_true, decide_eq_true_eq,
    beq_iff_eq]
  omega

/-- A digit is no letter. -/
theorem not_isAlpha_of_isDigit
    {c : Char}
    (isDigit : c.isDigit) :
    ¬ c.isAlpha := by
  have code : 48 ≤ c.toNat ∧ c.toNat ≤ 57 := Char.isDigit_iff_toNat.mp isDigit
  rw [isAlpha_iff_toNat]
  omega

/-- White space is not made of letters. -/
theorem not_isAlpha_of_isBlank
    {c : Char}
    (blank : isBlank c) :
    ¬ c.isAlpha := by
  simp only [isBlank, Bool.or_eq_true, Bool.and_eq_true, decide_eq_true_eq,
    beq_iff_eq] at blank
  rw [isAlpha_iff_toNat]
  omega

/-! ## Trimmed texts -/

/-- Neither the first nor the last character is white space. -/
structure Trimmed
    (cs : List Char) :
    Prop where
  head : ∀ c, cs.head? = some c → ¬ isBlank c
  last : ∀ c, cs.getLast? = some c → ¬ isBlank c

/-- What is left by trimming is trimmed. -/
theorem trimmed_trimChars
    (cs : List Char) :
    Trimmed (trimChars cs) where
  head c found := by
    obtain ⟨after, sameText⟩ :
        trimChars cs <+: cs.dropWhile isBlank :=
      List.rdropWhile_prefix isBlank _
    have notBlank := List.head?_dropWhile_not isBlank cs
    rw [← sameText, List.head?_append, found] at notBlank
    simpa using notBlank
  last c found := by
    have nonempty : trimChars cs ≠ [] := by
      intro empty
      rw [empty] at found
      cases found
    rw [← List.getLast_of_getLast?_eq_some found]
    exact List.rdropWhile_last_not isBlank (dropBlanks cs) nonempty

/-- A trimmed text is left alone. -/
theorem trimChars_of_trimmed
    {cs : List Char}
    (trimmed : Trimmed cs) :
    trimChars cs = cs := by
  have noneInFront : dropBlanks cs = cs :=
    List.dropWhile_eq_self_iff.mpr fun nonempty =>
      trimmed.head _ (List.head?_eq_getElem? ▸ List.getElem?_eq_getElem nonempty)
  have noneAtEnd : dropBlanksEnd cs = cs :=
    List.rdropWhile_eq_self_iff.mpr fun nonempty =>
      trimmed.last _ (List.getLast?_eq_some_getLast nonempty)
  rw [trimChars, noneInFront, noneAtEnd]

/-! ## White space around a text -/

variable {cs lead trail : List Char}

/-- White space and what it surrounds make up a text. -/
theorem exists_padding
    (cs : List Char) :
    ∃ lead trail,
      (∀ c ∈ lead, isBlank c) ∧ (∀ c ∈ trail, isBlank c) ∧
        lead ++ trimChars cs ++ trail = cs := by
  refine ⟨cs.takeWhile isBlank, (dropBlanks cs).rtakeWhile isBlank,
    fun c => List.mem_takeWhile_imp, fun c => List.mem_rtakeWhile_imp, ?_⟩
  calc
    cs.takeWhile isBlank ++ (dropBlanks cs).rdropWhile isBlank ++
          (dropBlanks cs).rtakeWhile isBlank =
        cs.takeWhile isBlank ++ cs.dropWhile isBlank := by
      rw [List.append_assoc, List.rdropWhile_append_rtakeWhile]
      rfl
    _ = cs := List.takeWhile_append_dropWhile

/-- White space at the end does not count. -/
theorem dropBlanksEnd_append
    (trailBlank : ∀ c ∈ trail, isBlank c) :
    dropBlanksEnd (cs ++ trail) = dropBlanksEnd cs := by
  rw [dropBlanksEnd, List.reverse_append, List.dropWhile_append_of_pos]
  · rfl
  · exact fun c isTrail => trailBlank c (List.mem_reverse.mp isTrail)

/-- White space around a text is trimmed away. -/
theorem trimChars_padded
    (leadBlank : ∀ c ∈ lead, isBlank c)
    (trailBlank : ∀ c ∈ trail, isBlank c) :
    trimChars (lead ++ cs ++ trail) = trimChars cs := by
  have noneInFront : dropBlanks (lead ++ (cs ++ trail)) = dropBlanks (cs ++ trail) :=
    List.dropWhile_append_of_pos leadBlank
  rw [trimChars, List.append_assoc, noneInFront, dropBlanks, List.dropWhile_append]
  split
  case isTrue allBlank =>
    have nothing : trail.dropWhile isBlank = [] :=
      List.dropWhile_eq_nil_iff.mpr trailBlank
    rw [nothing, trimChars, dropBlanks, List.isEmpty_iff.mp allBlank]
  case isFalse =>
    exact dropBlanksEnd_append trailBlank

/-- Trimming finds the trimmed text that has white space around it. -/
theorem trimChars_eq_iff
    {inner : List Char} :
    trimChars cs = inner ↔
      Trimmed inner ∧
        ∃ lead trail,
          (∀ c ∈ lead, isBlank c) ∧ (∀ c ∈ trail, isBlank c) ∧
            lead ++ inner ++ trail = cs := by
  constructor
  · rintro rfl
    exact ⟨trimmed_trimChars cs, exists_padding cs⟩
  · rintro ⟨trimmed, lead, trail, leadBlank, trailBlank, rfl⟩
    rw [trimChars_padded leadBlank trailBlank, trimChars_of_trimmed trimmed]

end NetWorth.Text
