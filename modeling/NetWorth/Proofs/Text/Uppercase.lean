import Mathlib
import NetWorth.Text.Blank
import NetWorth.Text.Uppercase

/-!
# Upper case is final

No image of the table of capital letters is mapped any further, and none is
white space.  A text in upper case therefore stays as it is, and its ends are
white space only where those of the text before were.

That the table has this property is a fact about some three thousand numbers.
The numbers that are mapped and those that they are mapped to are two lists,
and that the lists have nothing in common is read off their masks: numbers with
one binary digit for each member of a list.
-/

namespace NetWorth.Text

namespace Uppercase

/-! ## Lists apart -/

/-- The number whose binary digits mark the members of a list. -/
def mask :
    List Nat → Nat
  | [] => 0
  | number :: rest => 2 ^ number ||| mask rest

theorem testBit_mask
    {numbers : List Nat}
    {number : Nat} :
    (mask numbers).testBit number ↔ number ∈ numbers := by
  induction numbers with
  | nil =>
      simp [mask]
  | cons first rest inductionHypothesis =>
      rw [mask, Nat.testBit_or, Nat.testBit_two_pow, Bool.or_eq_true,
        decide_eq_true_eq, inductionHypothesis, List.mem_cons, eq_comm]

/-- Lists whose masks have no digit in common have no member in common. -/
theorem not_mem_of_mask
    {numbers others : List Nat}
    {number : Nat}
    (apart : mask numbers &&& mask others = 0)
    (member : number ∈ numbers) :
    number ∉ others := by
  intro inOthers
  have marked : (mask numbers &&& mask others).testBit number = true := by
    rw [Nat.testBit_and, testBit_mask.mpr member, testBit_mask.mpr inOthers]
    rfl
  rw [apart, Nat.zero_testBit] at marked
  cases marked

/-! ## What is mapped, and to what -/

/-- The numbers that a run maps. -/
def Run.sources
    (run : Run) :
    List Nat :=
  (List.range run.count).map fun place => run.first + place * run.step

/-- The numbers that a run maps them to. -/
def Run.images
    (run : Run) :
    List Nat :=
  (List.range run.count).map fun place => run.image + place * run.step

theorem Run.capital?_eq_some
    {run : Run}
    {number capital : Nat}
    (covered : run.capital? number = some capital) :
    number ∈ run.sources ∧ capital ∈ run.images := by
  unfold Run.capital? at covered
  split at covered
  case isFalse => cases covered
  case isTrue inRun =>
    obtain ⟨firstLe, onStep, placeLt⟩ := inRun
    cases covered
    have distance :
        (number - run.first) / run.step * run.step = number - run.first :=
      Nat.div_mul_cancel (Nat.dvd_of_mod_eq_zero onStep)
    refine ⟨List.mem_map.mpr ⟨_, List.mem_range.mpr placeLt, ?_⟩,
      List.mem_map.mpr ⟨_, List.mem_range.mpr placeLt, ?_⟩⟩
    · rw [distance]
      omega
    · rw [distance]

/-- All numbers that the table maps. -/
def sources :
    List Nat :=
  expansions.map (·.1) ++ runs.flatMap Run.sources

/-- All numbers that the table maps them to. -/
def images :
    List Nat :=
  expansions.flatMap (·.2) ++ runs.flatMap Run.images

/-- The numbers of white space. -/
def blanks :
    List Nat :=
  [0x9, 0xA, 0xB, 0xC, 0xD, 0x20, 0x85, 0xA0, 0x1680, 0x2000, 0x2001, 0x2002,
    0x2003, 0x2004, 0x2005, 0x2006, 0x2007, 0x2008, 0x2009, 0x200A, 0x2028,
    0x2029, 0x202F, 0x205F, 0x3000]

private theorem images_apart_sources :
    mask images &&& mask sources = 0 := by
  decide +kernel

private theorem images_apart_blanks :
    mask images &&& mask blanks = 0 := by
  decide +kernel

private theorem images_valid :
    ∀ image ∈ images, image.isValidChar := by
  decide +kernel

private theorem expansions_nonempty :
    ∀ expansion ∈ expansions, expansion.2 ≠ [] := by
  decide +kernel

/-- A number is left alone, or it is mapped to images. -/
theorem codes_cases
    (number : Nat) :
    codes number = [number] ∨
      number ∈ sources ∧ codes number ≠ [] ∧
        ∀ image ∈ codes number, image ∈ images := by
  unfold codes
  cases expanded : expansions.find? (·.1 == number) with
  | some expansion =>
      obtain ⟨source, targets⟩ := expansion
      have listed := List.mem_of_find?_eq_some expanded
      have sameSource : source = number := by
        simpa using List.find?_some expanded
      refine .inr ⟨?_, expansions_nonempty _ listed, fun image isTarget => ?_⟩
      · exact List.mem_append_left _
          (List.mem_map.mpr ⟨_, listed, sameSource⟩)
      · exact List.mem_append_left _
          (List.mem_flatMap.mpr ⟨_, listed, isTarget⟩)
  | none =>
      cases covered : runs.findSome? (·.capital? number) with
      | none =>
          exact .inl rfl
      | some capital =>
          obtain ⟨run, inRuns, isCapital⟩ :=
            List.exists_of_findSome?_eq_some covered
          obtain ⟨isSource, isImage⟩ := Run.capital?_eq_some isCapital
          refine .inr ⟨?_, List.cons_ne_nil _ _, fun image isTarget => ?_⟩
          · exact List.mem_append_right _
              (List.mem_flatMap.mpr ⟨run, inRuns, isSource⟩)
          · rw [Option.getD_some, List.mem_singleton] at isTarget
            rw [isTarget]
            exact List.mem_append_right _
              (List.mem_flatMap.mpr ⟨run, inRuns, isImage⟩)

/-- What is not mapped is left alone. -/
theorem codes_of_not_mem_sources
    {number : Nat}
    (unmapped : number ∉ sources) :
    codes number = [number] :=
  (codes_cases number).resolve_right fun mapped => unmapped mapped.1

end Uppercase

open Uppercase

theorem mem_blanks_of_isBlank
    {c : Char}
    (blank : isBlank c) :
    c.toNat ∈ blanks := by
  simp only [isBlank, Bool.or_eq_true, Bool.and_eq_true, decide_eq_true_eq,
    beq_iff_eq] at blank
  simp only [blanks, List.mem_cons, List.not_mem_nil, or_false]
  omega

/-! ## Characters -/

theorem toNat_ofNat_of_isValidChar
    {number : Nat}
    (valid : number.isValidChar) :
    (Char.ofNat number).toNat = number := by
  rw [Char.ofNat, dif_pos valid]
  rfl

/-- A character in upper case is a character of its own or an image. -/
theorem upperChar_cases
    (c : Char) :
    upperChar c = [c] ∨
      upperChar c ≠ [] ∧
        ∀ capital ∈ upperChar c, capital.toNat ∈ images := by
  unfold upperChar
  rcases codes_cases c.toNat with alone | ⟨-, nonempty, mapped⟩
  · left
    rw [alone, List.map_singleton, Char.ofNat_toNat]
  · refine .inr ⟨fun empty => nonempty (List.map_eq_nil_iff.mp empty), ?_⟩
    intro capital isCapital
    obtain ⟨number, isCode, rfl⟩ := List.mem_map.mp isCapital
    rw [toNat_ofNat_of_isValidChar (images_valid _ (mapped _ isCode))]
    exact mapped _ isCode

theorem upperChar_ne_nil
    (c : Char) :
    upperChar c ≠ [] := by
  rcases upperChar_cases c with alone | ⟨nonempty, -⟩
  · rw [alone]
    exact List.cons_ne_nil _ _
  · exact nonempty

/-- A capital stays as it is. -/
theorem upperChar_of_mem_upperChar
    {c capital : Char}
    (isCapital : capital ∈ upperChar c) :
    upperChar capital = [capital] := by
  rcases upperChar_cases c with alone | ⟨-, mapped⟩
  · rw [alone, List.mem_singleton] at isCapital
    rw [isCapital, alone]
  · have unmapped : codes capital.toNat = [capital.toNat] :=
      codes_of_not_mem_sources
        (not_mem_of_mask images_apart_sources (mapped capital isCapital))
    rw [upperChar, unmapped, List.map_singleton, Char.ofNat_toNat]

/-- No white space comes about. -/
theorem isBlank_of_mem_upperChar
    {c capital : Char}
    (isCapital : capital ∈ upperChar c)
    (blank : isBlank capital) :
    isBlank c := by
  rcases upperChar_cases c with alone | ⟨-, mapped⟩
  · rw [alone, List.mem_singleton] at isCapital
    rw [← isCapital]
    exact blank
  · exact absurd (mem_blanks_of_isBlank blank)
      (not_mem_of_mask images_apart_blanks (mapped capital isCapital))

/-! ## Texts -/

/-- Upper case is final. -/
theorem upperChars_upperChars
    (cs : List Char) :
    upperChars (upperChars cs) = upperChars cs := by
  unfold upperChars
  rw [List.flatMap_assoc]
  congr 1
  funext c
  -- each capital of a character is its own upper case
  calc (upperChar c).flatMap upperChar
      = (upperChar c).flatMap fun capital => [capital] :=
        List.flatMap_congr fun _ isCapital =>
          upperChar_of_mem_upperChar isCapital
    _ = upperChar c := List.flatMap_singleton' _

end NetWorth.Text
