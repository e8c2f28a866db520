import Mathlib

/-!
# Patterns with preferences

A pattern is a row of pieces that a whole text is divided into.  Where there is
more than one way to divide it, a repetition prefers to take as much as it can or
as little as it can, and an earlier piece has its way before a later one.  A
search that goes back to the last choice finds the preferred way: it takes the
first choice from which the other pieces can be matched at all.
-/

namespace NetWorth.Text

/-- One piece of a pattern. -/
inductive Piece where
  /-- These characters. -/
  | exactly (chars : List Char)
  /-- As many of some characters as possible. -/
  | most (accepts : Char → Bool)
  /-- As few of some characters as possible. -/
  | fewest (accepts : Char → Bool)

namespace Piece

/-- The ways to take accepted characters off the front, the shortest one first. -/
def takings
    (accepts : Char → Bool) :
    List Char → List (List Char × List Char)
  | [] => [([], [])]
  | c :: rest =>
      ([], c :: rest) ::
        if accepts c then
          (takings accepts rest).map fun taking => (c :: taking.1, taking.2)
        else
          []

/-- The ways to match a piece in front of a text, with what is left of the text,
the preferred way first. -/
def splits
    (cs : List Char) :
    Piece → List (List Char × List Char)
  | exactly chars =>
      if chars.isPrefixOf cs then [(chars, cs.drop chars.length)] else []
  | most accepts => (takings accepts cs).reverse
  | fewest accepts => takings accepts cs

/-- Whether a piece can match exactly these characters. -/
def Accepts :
    Piece → List Char → Prop
  | exactly chars, taken => taken = chars
  | most accepts, taken => ∀ c ∈ taken, accepts c
  | fewest accepts, taken => ∀ c ∈ taken, accepts c

end Piece

/-- The parts of a text that match the pieces of a pattern, in the preferred way
if there is one. -/
def match? :
    List Piece → List Char → Option (List (List Char))
  | [], cs => if cs.isEmpty then some [] else none
  | piece :: pieces, cs =>
      (piece.splits cs).findSome? fun split =>
        (match? pieces split.2).map (split.1 :: ·)

namespace Piece

variable
  {accepts : Char → Bool}
  {cs : List Char}

/-- A way to take accepted characters divides the text. -/
theorem divides_of_mem_takings
    {split : List Char × List Char}
    (listed : split ∈ takings accepts cs) :
    (∀ c ∈ split.1, accepts c) ∧ split.1 ++ split.2 = cs := by
  induction cs generalizing split with
  | nil =>
      rw [List.mem_singleton.mp listed]
      simp
  | cons c rest inductionHypothesis =>
      rcases List.mem_cons.mp listed with rfl | isLonger
      · simp
      · split at isLonger
        case isFalse => cases isLonger
        case isTrue accepted =>
          obtain ⟨shorter, isTaking, rfl⟩ := List.mem_map.mp isLonger
          obtain ⟨allAccepted, rfl⟩ := inductionHypothesis isTaking
          exact ⟨List.forall_mem_cons.mpr ⟨accepted, allAccepted⟩, rfl⟩

/-- The last way takes all that are accepted. -/
theorem exists_takings_eq
    (accepts : Char → Bool)
    (cs : List Char) :
    ∃ shorter,
      takings accepts cs =
        shorter ++ [(cs.takeWhile accepts, cs.dropWhile accepts)] := by
  induction cs with
  | nil => exact ⟨[], rfl⟩
  | cons c rest inductionHypothesis =>
      obtain ⟨shorter, longestLast⟩ := inductionHypothesis
      by_cases accepted : accepts c
      · refine ⟨([], c :: rest) ::
          shorter.map fun taking => (c :: taking.1, taking.2), ?_⟩
        simp [takings, accepted, longestLast]
      · exact ⟨[], by simp [takings, accepted]⟩

/-- A search through the ways to take characters, the shortest one first, ends at
the first one that will do. -/
theorem findSome?_takings
    {Result : Type}
    {result : Result}
    {search : List Char × List Char → Option Result}
    {taken left : List Char}
    (accepted : ∀ c ∈ taken, accepts c)
    (found : search (taken, left) = some result)
    (noneShorter :
      ∀ before after,
        before ++ after = taken → after ≠ [] → search (before, after ++ left) = none) :
    (takings accepts (taken ++ left)).findSome? search = some result := by
  induction taken generalizing search with
  | nil => cases left <;> simp [takings, found]
  | cons c rest inductionHypothesis =>
      obtain ⟨firstAccepted, restAccepted⟩ := List.forall_mem_cons.mp accepted
      have notAtOnce : search ([], c :: rest ++ left) = none :=
        noneShorter [] (c :: rest) rfl (List.cons_ne_nil _ _)
      rw [List.cons_append] at notAtOnce ⊢
      rw [takings, if_pos firstAccepted, List.findSome?_cons, notAtOnce,
        List.findSome?_map]
      refine inductionHypothesis restAccepted found fun before after sameText more => ?_
      exact noneShorter (c :: before) after (congrArg (c :: ·) sameText) more

/-- A way to match a piece takes what the piece accepts. -/
theorem accepts_of_mem_splits
    {piece : Piece}
    {split : List Char × List Char}
    (listed : split ∈ piece.splits cs) :
    piece.Accepts split.1 ∧ split.1 ++ split.2 = cs := by
  cases piece with
  | exactly chars =>
      rw [splits] at listed
      split at listed
      case isFalse => cases listed
      case isTrue inFront =>
        rw [List.mem_singleton.mp listed]
        exact ⟨rfl, List.prefix_iff_eq_append.mp
          (List.isPrefixOf_iff_prefix.mp inFront)⟩
  | most accepts => exact divides_of_mem_takings (List.mem_reverse.mp listed)
  | fewest accepts => exact divides_of_mem_takings listed

end Piece

section Match

variable
  {pieces : List Piece}
  {parts : List (List Char)}

/-- The parts of a match make up the text, and each is accepted by its piece. -/
theorem forall₂_accepts_of_match?
    {cs : List Char}
    (matched : match? pieces cs = some parts) :
    List.Forall₂ Piece.Accepts pieces parts ∧ parts.flatten = cs := by
  induction pieces generalizing cs parts with
  | nil =>
      rw [match?] at matched
      split at matched
      case isFalse => cases matched
      case isTrue isEmpty =>
        cases matched
        exact ⟨.nil, (List.isEmpty_iff.mp isEmpty).symm⟩
  | cons piece rest inductionHypothesis =>
      obtain ⟨split, isSplit, restMatched⟩ :=
        List.exists_of_findSome?_eq_some matched
      obtain ⟨others, othersMatched, rfl⟩ := Option.map_eq_some_iff.mp restMatched
      obtain ⟨accepted, rfl⟩ := Piece.accepts_of_mem_splits isSplit
      obtain ⟨othersAccepted, isRest⟩ := inductionHypothesis othersMatched
      exact ⟨.cons accepted othersAccepted, by rw [List.flatten_cons, isRest]⟩

/-- Characters in front of a text are matched in one way only. -/
theorem match?_exactly
    (chars cs : List Char) :
    match? (.exactly chars :: pieces) (chars ++ cs) =
      (match? pieces cs).map (chars :: ·) := by
  have inFront : chars.isPrefixOf (chars ++ cs) = true :=
    List.isPrefixOf_iff_prefix.mpr (List.prefix_append _ _)
  rw [match?, Piece.splits, if_pos inFront, List.drop_left, List.findSome?_singleton]

/-- A repetition that prefers to take much takes all that it can if the other
pieces match the rest. -/
theorem match?_most
    {accepts : Char → Bool}
    {cs : List Char}
    (matched : match? pieces (cs.dropWhile accepts) = some parts) :
    match? (.most accepts :: pieces) cs =
      some (cs.takeWhile accepts :: parts) := by
  obtain ⟨shorter, longestLast⟩ := Piece.exists_takings_eq accepts cs
  rw [match?, Piece.splits, longestLast, List.reverse_concat,
    List.findSome?_cons, matched]
  rfl

/-- A repetition that prefers to take little takes no more than what leaves a rest
that the other pieces match. -/
theorem match?_fewest
    {accepts : Char → Bool}
    {taken left : List Char}
    (accepted : ∀ c ∈ taken, accepts c)
    (matched : match? pieces left = some parts)
    (noneShorter :
      ∀ before after,
        before ++ after = taken → after ≠ [] → match? pieces (after ++ left) = none) :
    match? (.fewest accepts :: pieces) (taken ++ left) = some (taken :: parts) := by
  rw [match?]
  refine Piece.findSome?_takings accepted ?found fun before after sameText more => ?none
  case found => rw [matched]; rfl
  case none => rw [noneShorter before after sameText more]; rfl

end Match

end NetWorth.Text
