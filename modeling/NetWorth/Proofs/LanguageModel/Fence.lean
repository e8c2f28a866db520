import Mathlib
import NetWorth.LanguageModel.Reply
import NetWorth.Proofs.Text.Blank
import NetWorth.Proofs.Text.Pattern

/-!
# Code fences

A reply in a code fence means what it means without.  The fence is one around the
whole text: a pattern with preferences describes it, and what the pattern finds
between the fences, however many of them there are in the reply itself, is what
is left when the text is stripped.
-/

namespace NetWorth

namespace LanguageModel

open Text

/-- A code fence around a whole text. -/
def fencePattern :
    List Piece :=
  [.most isBlank, .exactly fence, .most Char.isAlpha, .most isBlank,
    .fewest fun _ => true, .most isBlank, .exactly fence, .most isBlank]

/-- What stands between the fences. -/
def fenced?
    (cs : List Char) :
    Option (List Char) :=
  (match? fencePattern cs).bind (·[4]?)

/-- The end of a text from which a fence is closed. -/
private def closing :
    List Piece :=
  [.most isBlank, .exactly fence, .most isBlank]

section Closing

variable
  {before lead trail : List Char}

/-- Before a fence, characters are taken as if the text ended there. -/
private theorem takeWhile_append_fence
    {accepts : Char → Bool}
    (notMark : accepts '\x60' = false)
    (cs after : List Char) :
    (cs ++ (fence ++ after)).takeWhile accepts = cs.takeWhile accepts ∧
      (cs ++ (fence ++ after)).dropWhile accepts =
        cs.dropWhile accepts ++ (fence ++ after) := by
  induction cs with
  | nil => simp [fence, notMark]
  | cons c rest inductionHypothesis =>
      obtain ⟨taken, dropped⟩ := inductionHypothesis
      by_cases accepted : accepts c
      · simp [accepted, taken, dropped]
      · simp [accepted]

/-- No white space stands at the end of a fence. -/
private theorem dropBlanksEnd_fence
    (cs : List Char) :
    dropBlanksEnd (cs ++ fence) = cs ++ fence := by
  have endsInMark : (cs ++ fence).getLast? = some '\x60' := by
    rw [List.getLast?_append]
    rfl
  refine List.rdropWhile_eq_self_iff.mpr fun nonempty => ?_
  rw [List.getLast_of_getLast?_eq_some endsInMark]
  decide

/-- A fence with white space around it is matched. -/
private theorem match?_closing
    (leadBlank : ∀ c ∈ lead, isBlank c)
    (trailBlank : ∀ c ∈ trail, isBlank c) :
    match? closing (lead ++ (fence ++ trail)) = some [lead, fence, trail] := by
  have notBlank : isBlank '\x60' = false := rfl
  obtain ⟨taken, dropped⟩ := takeWhile_append_fence notBlank lead trail
  rw [List.takeWhile_eq_self_iff.mpr leadBlank] at taken
  rw [List.dropWhile_eq_nil_iff.mpr leadBlank, List.nil_append] at dropped
  have noneLeft : match? [] (trail.dropWhile isBlank) = some [] := by
    rw [List.dropWhile_eq_nil_iff.mpr trailBlank]
    rfl
  have trailMatched : match? [.most isBlank] trail = some [trail] := by
    rw [match?_most noneLeft, List.takeWhile_eq_self_iff.mpr trailBlank]
  have fenceMatched :
      match? [.exactly fence, .most isBlank]
          ((lead ++ (fence ++ trail)).dropWhile isBlank) =
        some [fence, trail] := by
    rw [dropped, match?_exactly, trailMatched]
    rfl
  rw [closing, match?_most fenceMatched, taken]

/-- No fence is closed where something else stands before it. -/
private theorem match?_closing_eq_none
    (trailBlank : ∀ c ∈ trail, isBlank c)
    {c : Char}
    (notBlank : ¬ isBlank c)
    (stands : c ∈ before) :
    match? closing (before ++ (fence ++ trail)) = none := by
  rw [Option.eq_none_iff_forall_ne_some]
  intro parts matched
  obtain ⟨accepted, sameText⟩ := forall₂_accepts_of_match? matched
  obtain _ | ⟨othersBlank, _ | ⟨rfl, _ | ⟨endBlank, _ | _⟩⟩⟩ := accepted
  rename_i others ending
  have fencesLast : others ++ fence = before ++ fence := by
    calc
      others ++ fence = dropBlanksEnd (others ++ fence ++ ending) := by
        rw [dropBlanksEnd_append endBlank, dropBlanksEnd_fence]
      _ = dropBlanksEnd (before ++ fence ++ trail) := by
        rw [List.append_assoc before, ← sameText]
        simp
      _ = before ++ fence := by
        rw [dropBlanksEnd_append trailBlank, dropBlanksEnd_fence]
  rw [← List.append_cancel_right fencesLast] at stands
  exact notBlank (othersBlank c stands)

end Closing

/-! ## Texts that are a code fence as a whole -/

/-- Whether a text begins with a fence and ends with another one. -/
def IsFenced
    (cs : List Char) :
    Prop :=
  ∃ inner, cs = fence ++ inner ++ fence

/-- That there is room for two fences is what tells them apart from one that is
read twice. -/
theorem isFenced_iff
    {cs : List Char} :
    IsFenced cs ↔
      fence <+: cs ∧ fence <:+ cs ∧ 2 * fence.length ≤ cs.length := by
  constructor
  · rintro ⟨inner, rfl⟩
    refine ⟨⟨inner ++ fence, by simp⟩, ⟨fence ++ inner, rfl⟩, ?_⟩
    simp only [List.length_append]
    omega
  · rintro ⟨⟨rest, rfl⟩, isSuffix, hasRoom⟩
    have short : fence.length ≤ rest.length := by
      rw [List.length_append] at hasRoom
      omega
    obtain ⟨inner, rfl⟩ :=
      List.suffix_of_suffix_length_le isSuffix (List.suffix_append _ _) short
    exact ⟨inner, (List.append_assoc _ _ _).symm⟩

/-- No white space stands around a code fence. -/
theorem trimmed_fenced
    (inner : List Char) :
    Trimmed (fence ++ inner ++ fence) where
  head c isHead := by
    obtain rfl : '\x60' = c := Option.some.inj isHead
    decide
  last c isLast := by
    rw [List.getLast?_append] at isLast
    obtain rfl : '\x60' = c := Option.some.inj isLast
    decide

section Stripping

variable
  {text : String}
  {cs inner : List Char}

/-- What is left of a code fence is what it holds, without the name of a language
and without white space around it. -/
theorem stripFence_of_fenced
    (isFenced : trimChars text.toList = fence ++ inner ++ fence) :
    stripFence text = String.ofList (trimChars (inner.dropWhile Char.isAlpha)) := by
  have condition := isFenced_iff.mp ⟨inner, isFenced⟩
  have isInner :
      ((fence ++ inner ++ fence).drop fence.length).take
          ((fence ++ inner ++ fence).length - 2 * fence.length) =
        inner := by
    have count :
        (fence ++ inner ++ fence).length - 2 * fence.length = inner.length := by
      simp only [List.length_append]
      omega
    rw [count, List.append_assoc, List.drop_left, List.take_left]
  unfold stripFence
  simp only [List.isPrefixOf_iff_prefix, List.isSuffixOf_iff_suffix]
  rw [if_pos condition, isFenced, isInner]

/-- Any other text is only trimmed. -/
theorem stripFence_of_not_fenced
    (notFenced : ¬ IsFenced (trimChars text.toList)) :
    stripFence text = Text.trim text := by
  rw [isFenced_iff] at notFenced
  unfold stripFence Text.trim
  simp only [List.isPrefixOf_iff_prefix, List.isSuffixOf_iff_suffix]
  rw [if_neg notFenced]

/-- Contents are matched up to the last fence that is closed, and the white space
before it does not belong to them.  Any sooner, and something that is not white
space would stand before that fence. -/
private theorem exists_match?_contents
    {trail : List Char}
    (trailBlank : ∀ c ∈ trail, isBlank c)
    (cs : List Char) :
    ∃ after,
      match? (.fewest (fun _ => true) :: closing)
          (cs.dropWhile isBlank ++ (fence ++ trail)) =
        some [trimChars cs, after, fence, trail] := by
  have contentsFirst :
      trimChars cs ++ (dropBlanks cs).rtakeWhile isBlank = cs.dropWhile isBlank :=
    List.rdropWhile_append_rtakeWhile
  rw [← contentsFirst, List.append_assoc]
  refine ⟨_, match?_fewest (fun _ _ => rfl)
    (match?_closing (fun c => List.mem_rtakeWhile_imp) trailBlank)
    fun before rest sameContents more => ?_⟩
  obtain ⟨c, isLast⟩ :=
    Option.ne_none_iff_exists'.mp (mt List.getLast?_eq_none_iff.mp more)
  have lastOfContents : (trimChars cs).getLast? = some c := by
    rw [← sameContents, List.getLast?_append, isLast]
    rfl
  rw [← List.append_assoc]
  exact match?_closing_eq_none trailBlank
    ((trimmed_trimChars cs).last c lastOfContents)
    (List.mem_append_left _ (List.mem_of_getLast? isLast))

/-- The pattern finds what a code fence holds. -/
theorem fenced?_of_fenced
    (isFenced : trimChars cs = fence ++ inner ++ fence) :
    fenced? cs = some (trimChars (inner.dropWhile Char.isAlpha)) := by
  obtain ⟨lead, trail, leadBlank, trailBlank, sameText⟩ := exists_padding cs
  have wholeText : lead ++ (fence ++ (inner ++ (fence ++ trail))) = cs := by
    rw [← sameText, isFenced]
    simp
  obtain ⟨after, contentsTaken⟩ :=
    exists_match?_contents trailBlank (inner.dropWhile Char.isAlpha)
  -- each repetition before the contents takes all that it can
  obtain ⟨blanks, blanksTaken⟩ :
      ∃ blanks,
        match? (.most isBlank :: .fewest (fun _ => true) :: closing)
            (inner.dropWhile Char.isAlpha ++ (fence ++ trail)) =
          some [blanks, trimChars (inner.dropWhile Char.isAlpha), after, fence,
            trail] := by
    refine ⟨_, match?_most ?_⟩
    rw [(takeWhile_append_fence rfl _ trail).2]
    exact contentsTaken
  obtain ⟨name, nameTaken⟩ :
      ∃ name,
        match? (.most Char.isAlpha :: .most isBlank :: .fewest (fun _ => true) ::
            closing) (inner ++ (fence ++ trail)) =
          some [name, blanks, trimChars (inner.dropWhile Char.isAlpha), after,
            fence, trail] := by
    refine ⟨_, match?_most ?_⟩
    rw [(takeWhile_append_fence rfl inner trail).2]
    exact blanksTaken
  obtain ⟨front, matched⟩ :
      ∃ front,
        match? fencePattern cs =
          some [front, fence, name, blanks,
            trimChars (inner.dropWhile Char.isAlpha), after, fence, trail] := by
    refine ⟨_, match?_most ?_⟩
    rw [← wholeText, (takeWhile_append_fence rfl lead _).2,
      List.dropWhile_eq_nil_iff.mpr leadBlank, List.nil_append, match?_exactly]
    exact congrArg (Option.map _) nameTaken
  rw [fenced?, matched]
  rfl

/-- The pattern matches nothing but code fences. -/
theorem fenced?_of_not_fenced
    (notFenced : ¬ IsFenced (trimChars cs)) :
    fenced? cs = none := by
  suffices unmatched : match? fencePattern cs = none by
    rw [fenced?, unmatched, Option.bind_none]
  rw [Option.eq_none_iff_forall_ne_some]
  intro parts matched
  obtain ⟨accepted, sameText⟩ := forall₂_accepts_of_match? matched
  obtain _ | ⟨leadBlank, _ | ⟨rfl, _ | ⟨-, _ | ⟨-, _ | ⟨-, _ | ⟨-, _ | ⟨rfl,
    _ | ⟨trailBlank, _ | _⟩⟩⟩⟩⟩⟩⟩⟩ := accepted
  rename_i lead language between contents after trail
  refine notFenced ⟨language ++ between ++ contents ++ after, ?_⟩
  have padded :
      cs =
        lead ++ (fence ++ (language ++ between ++ contents ++ after) ++ fence) ++
          trail := by
    rw [← sameText]
    simp
  rw [padded, trimChars_padded leadBlank trailBlank]
  exact trimChars_of_trimmed (trimmed_fenced _)

/-- Stripping finds what the pattern finds, and where it finds nothing it trims. -/
theorem stripFence_eq
    (text : String) :
    stripFence text =
      ((fenced? text.toList).map String.ofList).getD (Text.trim text) := by
  by_cases isFenced : IsFenced (trimChars text.toList)
  · obtain ⟨inner, isFenced⟩ := isFenced
    rw [stripFence_of_fenced isFenced, fenced?_of_fenced isFenced]
    rfl
  · rw [stripFence_of_not_fenced isFenced, fenced?_of_not_fenced isFenced]
    rfl

end Stripping

/-! ## Replies in a code fence -/

/-- What may be put around a reply: fences, the name of a language, and white
space. -/
structure Wrapping where
  lead : String
  language : String
  afterLanguage : String
  beforeClosing : String
  trail : String
  lead_blank : isBlankText lead
  language_letters : language.toList.all Char.isAlpha
  afterLanguage_blank : isBlankText afterLanguage
  beforeClosing_blank : isBlankText beforeClosing
  trail_blank : isBlankText trail

/-- A reply with a code fence around it. -/
def Wrapping.wrap
    (wrapping : Wrapping)
    (payload : String) :
    String :=
  wrapping.lead ++ String.ofList fence ++ wrapping.language ++
    wrapping.afterLanguage ++ payload ++ wrapping.beforeClosing ++
      String.ofList fence ++ wrapping.trail

/-- Whether a text is put in braces, but for white space around them. -/
structure IsBraced
    (text : String) :
    Prop where
  opening : (trimChars text.toList).head? = some '\x7b'
  closing : (trimChars text.toList).getLast? = some '\x7d'

section Wrapped

variable
  {payload : String}
  (isBraced : IsBraced payload)

include isBraced

/-- A text in braces is not a code fence. -/
theorem stripFence_of_isBraced :
    stripFence payload = Text.trim payload := by
  refine stripFence_of_not_fenced ?_
  rintro ⟨inner, isFenced⟩
  have opening := isBraced.opening
  rw [isFenced] at opening
  cases opening

/-- The name of a language ends before a text in braces. -/
private theorem dropWhile_isAlpha_of_isBraced
    {before : List Char}
    (blank : ∀ c ∈ before, isBlank c)
    (after : List Char) :
    (before ++ payload.toList ++ after).dropWhile Char.isAlpha =
      before ++ payload.toList ++ after := by
  obtain ⟨lead, trail, leadBlank, -, sameText⟩ := exists_padding payload.toList
  obtain ⟨rest, isText⟩ := List.head?_eq_some_iff.mp isBraced.opening
  have braceFirst :
      before ++ payload.toList ++ after =
        (before ++ lead) ++ '\x7b' :: (rest ++ trail ++ after) := by
    rw [← sameText, isText]
    simp
  rw [braceFirst]
  cases inFront : before ++ lead with
  | nil => rfl
  | cons c others =>
      have cBlank : isBlank c := by
        rcases List.mem_append.mp (inFront ▸ List.mem_cons_self) with isBefore | isLead
        · exact blank c isBefore
        · exact leadBlank c isLead
      exact List.dropWhile_cons_of_neg (not_isAlpha_of_isBlank cBlank)

/-- A text in braces comes out of a code fence as it is, but for white space. -/
theorem stripFence_wrap
    (wrapping : Wrapping) :
    stripFence (wrapping.wrap payload) = Text.trim payload := by
  let inner :=
    wrapping.language.toList ++
      (wrapping.afterLanguage.toList ++ payload.toList ++
        wrapping.beforeClosing.toList)
  have wrapped :
      (wrapping.wrap payload).toList =
        wrapping.lead.toList ++ (fence ++ inner ++ fence) ++
          wrapping.trail.toList := by
    simp [Wrapping.wrap, inner]
  have afterBlank := List.all_eq_true.mp wrapping.afterLanguage_blank
  have isFenced :
      trimChars (wrapping.wrap payload).toList = fence ++ inner ++ fence := by
    rw [wrapped, trimChars_padded (List.all_eq_true.mp wrapping.lead_blank)
      (List.all_eq_true.mp wrapping.trail_blank)]
    exact trimChars_of_trimmed (trimmed_fenced inner)
  have nameDropped :
      inner.dropWhile Char.isAlpha =
        wrapping.afterLanguage.toList ++ payload.toList ++
          wrapping.beforeClosing.toList := by
    rw [List.dropWhile_append_of_pos
      (List.all_eq_true.mp wrapping.language_letters)]
    exact dropWhile_isAlpha_of_isBraced isBraced afterBlank _
  rw [stripFence_of_fenced isFenced, nameDropped,
    trimChars_padded afterBlank (List.all_eq_true.mp wrapping.beforeClosing_blank)]
  rfl

end Wrapped

/--
A reply in braces means the same in a code fence and without one, whatever stands
between the braces, and what is left of either is the reply without the white
space around it.  A text that does not begin and end with a fence is only
trimmed.  In every text, what is left is what the pattern finds, and if it finds
nothing the text is trimmed.
-/
theorem fence_transparent :
    (∀ (wrapping : Wrapping) (payload : String),
        IsBraced payload →
          stripFence (wrapping.wrap payload) = Text.trim payload ∧
            stripFence payload = Text.trim payload ∧
              ∀ assetClass symbol expected now,
                answerText assetClass symbol expected now (wrapping.wrap payload) =
                  answerText assetClass symbol expected now payload) ∧
      (∀ text : String,
        ¬ (fence <+: trimChars text.toList ∧ fence <:+ trimChars text.toList) →
          stripFence text = Text.trim text) ∧
      ∀ text : String,
        stripFence text =
          ((fenced? text.toList).map String.ofList).getD (Text.trim text) := by
  refine ⟨fun wrapping payload isBraced => ?_, fun text notBoth => ?_, stripFence_eq⟩
  · have wrapped := stripFence_wrap isBraced wrapping
    have bare := stripFence_of_isBraced isBraced
    refine ⟨wrapped, bare, fun assetClass symbol expected now => ?_⟩
    rw [answerText, wrapped, ← bare]
    rfl
  · refine stripFence_of_not_fenced fun isFenced => ?_
    obtain ⟨isPrefix, isSuffix, -⟩ := isFenced_iff.mp isFenced
    exact notBoth ⟨isPrefix, isSuffix⟩

/-- A reply with fences and a line break between its braces. -/
def replyWithFences :
    String :=
  " \x7b\"error\": \"```json\n```\"\x7d"

/-- The name of a language, and white space of several kinds. -/
def jsonWrapping :
    Wrapping where
  lead := "\u00A0\n"
  language := "JSON"
  afterLanguage := "\r\n"
  beforeClosing := "\u2003"
  trail := " \n"
  lead_blank := by decide
  language_letters := by decide
  afterLanguage_blank := by decide
  beforeClosing_blank := by decide
  trail_blank := by decide

/-- The fences in the reply are not the ones that are stripped. -/
theorem fence_transparent_replyWithFences :
    IsBraced replyWithFences ∧
      stripFence (jsonWrapping.wrap replyWithFences) = Text.trim replyWithFences ∧
      ¬ (fence <+: trimChars replyWithFences.toList ∧
          fence <:+ trimChars replyWithFences.toList) ∧
      stripFence replyWithFences = Text.trim replyWithFences := by
  have isBraced : IsBraced replyWithFences := ⟨by decide, by decide⟩
  have notBoth :
      ¬ (fence <+: trimChars replyWithFences.toList ∧
          fence <:+ trimChars replyWithFences.toList) := by
    decide
  obtain ⟨transparent, trimmedOnly, -⟩ := fence_transparent
  exact ⟨isBraced, (transparent jsonWrapping replyWithFences isBraced).1, notBoth,
    trimmedOnly replyWithFences notBoth⟩

end LanguageModel

end NetWorth
