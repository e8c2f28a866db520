import Mathlib
import NetWorth.Proofs.Text.Blank

/-!
# Small letters

Only the capitals of the Latin alphabet are made small.  A letter is white space
in neither case, so a text may be trimmed before or after, and what is no letter
comes from nothing but itself.
-/

namespace NetWorth.Text

/-- Only letters are made small. -/
theorem toLower_of_not_isAlpha
    {c : Char}
    (notLetter : ¬ c.isAlpha) :
    c.toLower = c := by
  refine Char.toLower_eq_of_not_isUpper fun isCapital => notLetter ?_
  rw [Char.isAlpha, isCapital, Bool.true_or]

/-- A small letter comes from itself and from its capital. -/
theorem toLower_eq_iff
    {c small : Char}
    (isSmall : small.toLower = small) :
    c.toLower = small ↔ c = small ∨ c = small.toUpper := by
  constructor
  · rintro rfl
    by_cases isCapital : c.isUpper
    · right
      rw [Char.toUpper_toLower_eq_toUpper,
        Char.toUpper_eq_of_not_isLower (Char.not_isLower_of_isUpper isCapital)]
    · left
      exact (Char.toLower_eq_of_not_isUpper isCapital).symm
  · rintro (rfl | rfl)
    · exact isSmall
    · rw [Char.toLower_toUpper_eq_toLower, isSmall]

/-- A text without letters comes from nothing but itself. -/
theorem map_toLower_eq_iff
    {cs small : List Char}
    (noLetter : ∀ c ∈ small, ¬ c.isAlpha) :
    cs.map Char.toLower = small ↔ cs = small := by
  have unchanged
      {chars : List Char}
      (noLetter : ∀ c ∈ chars, ¬ c.isAlpha) :
      chars.map Char.toLower = chars :=
    (List.map_congr_left fun c member =>
      toLower_of_not_isAlpha (noLetter c member)).trans (List.map_id chars)
  constructor
  · rintro rfl
    refine (unchanged fun c member => ?_).symm
    rw [← c.isAlpha_toLower_eq_isAlpha]
    exact noLetter _ (List.mem_map_of_mem member)
  · rintro rfl
    exact unchanged noLetter

/-- A letter is white space in neither case. -/
theorem isBlank_toLower
    (c : Char) :
    isBlank c.toLower = isBlank c := by
  by_cases isLetter : c.isAlpha
  · have notBlank : ¬ isBlank c :=
      fun blank => not_isAlpha_of_isBlank blank isLetter
    have smallNotBlank : ¬ isBlank c.toLower := fun blank =>
      not_isAlpha_of_isBlank blank (c.isAlpha_toLower_eq_isAlpha.trans isLetter)
    rw [Bool.eq_false_of_not_eq_true notBlank,
      Bool.eq_false_of_not_eq_true smallNotBlank]
  · rw [toLower_of_not_isAlpha isLetter]

/-- A text is trimmed alike before and after its letters are made small. -/
theorem trimChars_map_toLower
    (cs : List Char) :
    trimChars (cs.map Char.toLower) = (trimChars cs).map Char.toLower := by
  have sameBlanks : isBlank ∘ Char.toLower = isBlank :=
    funext isBlank_toLower
  rw [trimChars, dropBlanks, List.dropWhile_map, sameBlanks, dropBlanksEnd,
    ← List.map_reverse, List.dropWhile_map, sameBlanks, ← List.map_reverse]
  rfl

end NetWorth.Text
