import Mathlib
import NetWorth.Proofs.Web.Decoding
import NetWorth.Web.Address

/-!
# Reading queries

The server at an address reads the query as fields, names with values.  It drops
what does not count in an address, takes the query apart, and undoes the escapes
in the parts afterwards.  So fields that were encoded read back as they were, and
a value that was put into an address as it is reads back only if nothing in it is
cut off, dropped or read as something else.
-/

namespace NetWorth.Web.Query

open Encoding

/-! ## Fields -/

/-- A text with blanks in the place of plus signs. -/
def blanks (cs : List Char) :
    List Char :=
  cs.map fun c => if c = '+' then ' ' else c

/-- The text of a name or a value, in which a plus sign is a blank. -/
def fieldText? (cs : List Char) :
    Option String :=
  decodeText? (blanks cs)

/-- A field is a name and a value on the two sides of its first equals sign. -/
def field (cs : List Char) :
    Option String × Option String :=
  (fieldText? (cs.takeWhile (· != '=')),
    fieldText? ((cs.dropWhile (· != '=')).drop 1))

/-- The fields of a query. -/
def fieldsOf (query : List Char) :
    List (Option String × Option String) :=
  ((query.splitOn '&').filter fun part => !part.isEmpty).map field

/-- The fragment of an address follows its first number sign. -/
def fragment? (address : String) :
    Option (List Char) :=
  ((Address.significant address).dropWhile (· != '#')).tail?

/-- The query of an address follows its first question mark and ends before the
fragment. -/
def query (address : String) :
    List Char :=
  (((Address.significant address).takeWhile (· != '#')).dropWhile
    (· != '?')).drop 1

/-- The fields of the query of an address. -/
def fields (address : String) :
    List (Option String × Option String) :=
  fieldsOf (query address)

section Parts

variable
  {c : Char}
  {before : List Char}

/-- A text that does not contain a character is in front of the character. -/
private theorem all_ne_of_not_mem
    (absent : c ∉ before) :
    ∀ other ∈ before, (other != c) = true := by
  intro other isBefore
  rw [bne_iff_ne]
  rintro rfl
  exact absent isBefore

/-- All of a text stands in front of a character that it does not contain. -/
theorem takeWhile_of_not_mem
    (absent : c ∉ before) :
    before.takeWhile (· != c) = before :=
  List.takeWhile_eq_self_iff.mpr (all_ne_of_not_mem absent)

/-- Nothing stands behind a character that a text does not contain. -/
theorem dropWhile_of_not_mem
    (absent : c ∉ before) :
    before.dropWhile (· != c) = [] :=
  List.dropWhile_eq_nil_iff.mpr (all_ne_of_not_mem absent)

/-- What stands in front of a character ends where the character is seen. -/
theorem takeWhile_append_cons
    (c : Char)
    (before after : List Char) :
    (before ++ c :: after).takeWhile (· != c) = before.takeWhile (· != c) := by
  induction before with
  | nil => simp
  | cons first rest inductionHypothesis =>
      simp only [List.cons_append, List.takeWhile_cons, inductionHypothesis]

/-- What stands behind the first of a character, and the character. -/
theorem dropWhile_append_cons
    (absent : c ∉ before)
    (after : List Char) :
    (before ++ c :: after).dropWhile (· != c) = c :: after := by
  rw [List.dropWhile_append_of_pos (all_ne_of_not_mem absent)]
  simp

end Parts

/-! ## The query of an address -/

/-- A character that counts wherever it stands. -/
def Counts (c : Char) :
    Bool :=
  c != '\t' && c != '\n' && c != '\r'

/-- A text is left alone where none of its characters is dropped. -/
theorem filter_counts_eq_self
    {cs : List Char}
    (noneDropped : ∀ c ∈ ['\t', '\n', '\r'], c ∉ cs) :
    cs.filter Counts = cs := by
  rw [List.filter_eq_self]
  intro c isChar
  by_contra dropped
  refine noneDropped c ?_ isChar
  simpa [Counts, imp_iff_not_or, or_assoc] using dropped

/-- A text is left alone at an end that is a character to keep. -/
private theorem dropWhile_of_head?
    {isOuter : Char → Bool}
    {cs : List Char}
    (first : ∃ c, cs.head? = some c ∧ isOuter c = false) :
    cs.dropWhile isOuter = cs := by
  obtain ⟨c, isFirst, isInner⟩ := first
  cases cs with
  | nil => cases isFirst
  | cons _ rest =>
      cases isFirst
      rw [List.dropWhile_cons_of_neg (by rw [isInner]; exact Bool.false_ne_true)]

/-- What does not count around an address is dropped in front of a part that
neither begins nor ends with it. -/
private theorem significant_eq
    {address : String}
    {front back : List Char}
    (sameText : address.toList = front ++ back)
    (first : ∃ c, back.head? = some c ∧ 0x20 < c.toNat)
    (last : ∃ c, back.getLast? = some c ∧ 0x20 < c.toNat) :
    ∃ kept, kept.Sublist front ∧
      Address.significant address = kept ++ back.filter Counts := by
  let isOuter (c : Char) : Bool := c.toNat ≤ 0x20
  have keepsFront : back.dropWhile isOuter = back := by
    obtain ⟨c, isFirst, isInner⟩ := first
    exact dropWhile_of_head? ⟨c, isFirst, by simpa [isOuter] using isInner⟩
  have keepsBack (front : List Char) :
      (front ++ back).reverse.dropWhile isOuter = (front ++ back).reverse := by
    obtain ⟨c, isLast, isInner⟩ := last
    refine dropWhile_of_head? ⟨c, ?_, by simpa [isOuter] using isInner⟩
    rw [List.head?_reverse, List.getLast?_append, isLast]
    rfl
  obtain ⟨inner, isInner, dropped⟩ :
      ∃ inner, inner.Sublist front ∧
        (front ++ back).dropWhile isOuter = inner ++ back := by
    rw [List.dropWhile_append, keepsFront]
    split
    · exact ⟨[], List.nil_sublist _, rfl⟩
    · exact ⟨_, List.dropWhile_sublist _, rfl⟩
  refine ⟨inner.filter Counts, List.filter_sublist.trans isInner, ?_⟩
  change (((address.toList.dropWhile isOuter).reverse.dropWhile
    isOuter).reverse.filter Counts) = _
  rw [sameText, dropped, keepsBack, List.reverse_reverse, List.filter_append]

section QueryPart

variable
  {address : String}
  {front back : List Char}
  (sameText : address.toList = front ++ '?' :: back)
  (noMark : '?' ∉ front)
  (noSign : '#' ∉ front)
  (last : ∀ c, back.getLast? = some c → 0x20 < c.toNat)

include sameText noMark noSign last

private theorem significant_query :
    ∃ kept, '?' ∉ kept ∧ '#' ∉ kept ∧
      Address.significant address = kept ++ '?' :: back.filter Counts := by
  have endsVisibly :
      ∃ c, ('?' :: back).getLast? = some c ∧ 0x20 < c.toNat := by
    refine ⟨_, List.getLast?_cons, ?_⟩
    cases isLast : back.getLast? with
    | none => decide
    | some c => exact last c isLast
  obtain ⟨kept, isPart, isSignificant⟩ :=
    significant_eq sameText ⟨'?', rfl, by decide⟩ endsVisibly
  exact ⟨kept, fun isMark => noMark (isPart.subset isMark),
    fun isSign => noSign (isPart.subset isSign), isSignificant⟩

/-- The query begins behind the first question mark. -/
theorem query_eq :
    query address = (back.filter Counts).takeWhile (· != '#') := by
  obtain ⟨kept, noMark, noSign, isSignificant⟩ :=
    significant_query sameText noMark noSign last
  rw [query, isSignificant,
    List.takeWhile_append_of_pos (all_ne_of_not_mem noSign),
    List.takeWhile_cons_of_pos (by decide), dropWhile_append_cons noMark]
  rfl

/-- Behind the first question mark, there is a fragment where there is a number
sign. -/
theorem fragment?_eq_none_iff :
    fragment? address = none ↔ '#' ∉ back := by
  obtain ⟨kept, noMark, noSign, isSignificant⟩ :=
    significant_query sameText noMark noSign last
  have sameSign : '#' ∈ back.filter Counts ↔ '#' ∈ back := by
    rw [List.mem_filter]
    exact and_iff_left rfl
  rw [fragment?, isSignificant,
    List.dropWhile_append_of_pos (all_ne_of_not_mem noSign),
    List.dropWhile_cons_of_pos (by decide), ← sameSign]
  constructor
  · intro noFragment isSign
    obtain ⟨before, after, isText, absent⟩ := List.eq_append_cons_of_mem isSign
    rw [isText, dropWhile_append_cons absent] at noFragment
    cases noFragment
  · intro absent
    rw [dropWhile_of_not_mem absent]
    rfl

end QueryPart

/-- A query in which nothing is dropped or cut off is read as it is written. -/
theorem fields_of_visible
    {address : String}
    {front back : List Char}
    (sameText : address.toList = front ++ '?' :: back)
    (noMark : '?' ∉ front)
    (noSign : '#' ∉ front)
    (visible : ∀ c ∈ back, 0x20 < c.toNat ∧ c ≠ '#') :
    fragment? address = none ∧ fields address = fieldsOf back := by
  have last (c : Char) (isLast : back.getLast? = some c) : 0x20 < c.toNat :=
    (visible c (List.mem_of_getLast? isLast)).1
  have noSignBehind : '#' ∉ back := fun isSign =>
    (visible '#' isSign).2 rfl
  have allCount : back.filter Counts = back := by
    refine filter_counts_eq_self fun c isDropped isChar => ?_
    have isVisible := (visible c isChar).1
    simp only [List.mem_cons, List.not_mem_nil, or_false] at isDropped
    rcases isDropped with rfl | rfl | rfl <;> revert isVisible <;> decide
  constructor
  · rwa [fragment?_eq_none_iff sameText noMark noSign last]
  · rw [fields, query_eq sameText noMark noSign last, allCount,
      takeWhile_of_not_mem noSignBehind]

/-! ## The fields of a query -/

section Named

variable
  {name value : List Char}
  (noSeparator : '&' ∉ name)
  (noEquals : '=' ∉ name)
  (valueNoSeparator : '&' ∉ value)

include noEquals in
/-- A field is taken apart at the equals sign behind its name. -/
theorem field_named :
    field (name ++ '=' :: value) = (fieldText? name, fieldText? value) := by
  rw [field, takeWhile_append_cons, takeWhile_of_not_mem noEquals,
    dropWhile_append_cons noEquals]
  rfl

include noSeparator valueNoSeparator in
private theorem no_separator :
    ∀ c ∈ name ++ '=' :: value, (c == '&') = false := by
  intro c isPart
  rw [beq_eq_false_iff_ne]
  rintro rfl
  rcases List.mem_append.mp isPart with inName | inRest
  · exact noSeparator inName
  · rcases List.mem_cons.mp inRest with isEquals | inValue
    · cases isEquals
    · exact valueNoSeparator inValue

include noSeparator noEquals valueNoSeparator

/-- A query may be a single field. -/
theorem fieldsOf_single :
    fieldsOf (name ++ '=' :: value) = [(fieldText? name, fieldText? value)] := by
  rw [fieldsOf, List.splitOn,
    List.splitOnP_eq_singleton (no_separator noSeparator valueNoSeparator),
    List.filter_cons_of_pos (by simp), List.filter_nil, List.map_singleton,
    field_named noEquals]

/-- The first field of a query ends where the others begin. -/
theorem fieldsOf_append
    (others : List Char) :
    fieldsOf (name ++ '=' :: value ++ '&' :: others) =
      (fieldText? name, fieldText? value) :: fieldsOf others := by
  rw [fieldsOf, List.splitOn,
    List.splitOnP_append_cons_of_forall_mem
      (no_separator noSeparator valueNoSeparator) '&' rfl,
    List.filter_cons_of_pos (by simp), List.map_cons, field_named noEquals]
  rfl

end Named

/-- The first field of a query has the name in front, and its value ends before
the next field. -/
theorem head?_fieldsOf
    {name : List Char}
    (noSeparator : '&' ∉ name)
    (noEquals : '=' ∉ name)
    (rest : List Char) :
    (fieldsOf (name ++ '=' :: rest)).head? =
      some (fieldText? name, fieldText? (rest.takeWhile (· != '&'))) := by
  by_cases others : '&' ∈ rest
  · obtain ⟨value, others, rfl, absent⟩ := List.eq_append_cons_of_mem others
    rw [takeWhile_append_cons, takeWhile_of_not_mem absent, ← List.cons_append,
      ← List.append_assoc, fieldsOf_append noSeparator noEquals absent,
      List.head?_cons]
  · rw [takeWhile_of_not_mem others, fieldsOf_single noSeparator noEquals others,
      List.head?_cons]

/-! ## What reads back as itself -/

/-- A plus sign takes as many bytes as a blank. -/
private theorem length_utf8_blanks
    (cs : List Char) :
    (utf8 (blanks cs)).length = (utf8 cs).length := by
  induction cs with
  | nil => rfl
  | cons c rest inductionHypothesis =>
      have sameLength :
          (String.utf8EncodeChar (if c = '+' then ' ' else c)).length =
            (String.utf8EncodeChar c).length := by
        split
        case isTrue isPlus => rw [isPlus]; rfl
        case isFalse => rfl
      simp only [utf8, blanks, List.map_cons, List.flatMap_cons,
        List.length_append, sameLength] at inductionHypothesis ⊢
      rw [inductionHypothesis]

/-- A text is left alone if, and only if, it has no plus sign. -/
theorem blanks_eq_self_iff
    {cs : List Char} :
    blanks cs = cs ↔ '+' ∉ cs := by
  induction cs with
  | nil => simp [blanks]
  | cons c rest inductionHypothesis =>
      rw [blanks, List.map_cons, List.cons.injEq, List.mem_cons, not_or,
        ← inductionHypothesis, eq_comm (a := '+')]
      refine and_congr_left fun _ => ?_
      split
      case isTrue isPlus => simp [isPlus]
      case isFalse notPlus => simp [notPlus]

/-- A part of a text reads as the whole only if it is the whole and nothing in it
is read as something else. -/
theorem fieldText?_eq_some_iff_of_sublist
    {part : List Char}
    {whole : String}
    (isPart : part.Sublist whole.toList) :
    fieldText? part = some whole ↔
      part = whole.toList ∧ '+' ∉ part ∧ ¬ HasEscape part := by
  constructor
  · intro isRead
    rw [fieldText?, decodeText?_eq_some_iff] at isRead
    have readLength := congrArg List.length isRead
    have notLonger := length_decode_le (blanks part)
    have sameLength := length_utf8_blanks part
    have partLength := length_utf8_le_of_sublist isPart
    have isWhole := eq_of_sublist_of_length_utf8 isPart (by omega)
    have noEscape : ¬ HasEscape (blanks part) :=
      not_hasEscape_of_length_le (by omega)
    have unchanged : blanks part = part := by
      rw [decode_of_not_hasEscape noEscape, ← isWhole] at isRead
      exact utf8_injective isRead
    rw [unchanged] at noEscape
    exact ⟨isWhole, blanks_eq_self_iff.mp unchanged, noEscape⟩
  · rintro ⟨isWhole, noPlus, noEscape⟩
    rw [fieldText?, blanks_eq_self_iff.mpr noPlus,
      decodeText?_of_not_hasEscape noEscape, isWhole, String.ofList_toList]

/-- A text reads as itself if, and only if, nothing in it reads as something
else. -/
theorem fieldText?_eq_self_iff
    {s : String} :
    fieldText? s.toList = some s ↔ '+' ∉ s.toList ∧ ¬ HasEscape s.toList := by
  rw [fieldText?_eq_some_iff_of_sublist (List.Sublist.refl _), and_iff_right rfl]

/-- Without plus signs and percent signs, a text reads as itself. -/
theorem fieldText?_of_not_mem
    {s : String}
    (noPlus : '+' ∉ s.toList)
    (noPercent : '%' ∉ s.toList) :
    fieldText? s.toList = some s :=
  fieldText?_eq_self_iff.mpr ⟨noPlus, not_hasEscape_of_not_mem noPercent⟩

/-! ## Fields that were encoded -/

/-- Nothing is dropped or cut off in a field of inner characters. -/
private theorem visible_of_mem_field
    {name value : List Char}
    (nameInner : ∀ c ∈ name, IsInner c)
    (valueInner : ∀ c ∈ value, IsInner c)
    {c : Char}
    (isChar : c ∈ name ++ '=' :: value) :
    0x20 < c.toNat ∧ c ≠ '#' := by
  have ofInner (inner : IsInner c) : 0x20 < c.toNat ∧ c ≠ '#' := by
    refine ⟨inner.visible, ?_⟩
    rintro rfl
    exact inner.noDelimiter (by decide)
  rcases List.mem_append.mp isChar with inName | inRest
  · exact ofInner (nameInner c inName)
  · rcases List.mem_cons.mp inRest with rfl | inValue
    · decide
    · exact ofInner (valueInner c inValue)

/-- A part of an address reads back in a field as well. -/
theorem fieldText?_percent
    (s : String) :
    fieldText? (percent s).toList = some s := by
  have noPlus : '+' ∉ (percent s).toList := fun isPlus =>
    (isInner_of_mem_percent isPlus).2 rfl
  rw [fieldText?, blanks_eq_self_iff.mpr noPlus, decodeText?_percent]

/-- An address can be a field of another address, and reads back as it was. -/
theorem fields_percent
    {address name value : String}
    {front : List Char}
    (sameText :
      address.toList =
        front ++ '?' :: ((percent name).toList ++ '=' :: (percent value).toList))
    (noMark : '?' ∉ front)
    (noSign : '#' ∉ front) :
    fragment? address = none ∧ fields address = [(some name, some value)] := by
  have inner {s : String} {c : Char} (isChar : c ∈ (percent s).toList) :
      IsInner c :=
    (isInner_of_mem_percent isChar).1
  have absent (s : String) {c : Char} (isDelimiter : c ∈ ['#', '&', '=']) :
      c ∉ (percent s).toList := fun isChar =>
    (inner isChar).noDelimiter isDelimiter
  obtain ⟨noFragment, isRead⟩ :=
    fields_of_visible sameText noMark noSign fun c =>
      visible_of_mem_field (fun _ => inner) fun _ => inner
  refine ⟨noFragment, isRead.trans ?_⟩
  rw [fieldsOf_single (absent name (by decide)) (absent name (by decide))
      (absent value (by decide)),
    fieldText?_percent, fieldText?_percent]

/-- A field of a form reads back as it was. -/
theorem fieldText?_formField
    (s : String) :
    fieldText? (formField s).toList = some s := by
  let isPlain (c : Char) : Bool := c.isAlphanum || "*-._ ".toList.contains c
  have noPlus : '+' ∉ encodeWith isPlain s := by
    intro isPlus
    rcases isPlain_of_mem_encodeWith isPlus with isPlain | isPercent | isAlphanum
    · revert isPlain
      decide
    · cases isPercent
    · revert isAlphanum
      decide
  have blanksBack :
      blanks ((encodeWith isPlain s).map fun c => if c = ' ' then '+' else c) =
        encodeWith isPlain s := by
    rw [blanks, List.map_map]
    refine (List.map_congr_left fun c isChar => ?_).trans (List.map_id _)
    by_cases isBlank : c = ' '
    · simp [isBlank]
    · have notPlus : c ≠ '+' := fun isPlus => noPlus (isPlus ▸ isChar)
      simp [isBlank, notPlus]
  rw [fieldText?, formField, String.toList_ofList]
  change decodeText? (blanks ((encodeWith isPlain s).map _)) = _
  rw [blanksBack, decodeText?_encodeWith (by decide)]

/-- A form of several fields begins with the first of them. -/
private theorem toList_form_cons
    (name value : String)
    (next : String × String)
    (rest : List (String × String)) :
    (form ((name, value) :: next :: rest)).toList =
      (formField name).toList ++ '=' :: (formField value).toList ++
        '&' :: (form (next :: rest)).toList := by
  rw [form, List.map_cons, List.map_cons, String.intercalate_cons_cons]
  simp [form]

/-- A form of one field is that field. -/
private theorem toList_form_singleton
    (name value : String) :
    (form [(name, value)]).toList =
      (formField name).toList ++ '=' :: (formField value).toList := by
  simp [form]

/-- A delimiter is not part of a field. -/
private theorem not_mem_formField
    {c : Char}
    (isDelimiter : c ∈ ['#', '&', '='])
    (s : String) :
    c ∉ (formField s).toList := fun isChar =>
  (isInner_of_mem_formField isChar).noDelimiter isDelimiter

/-- The fields of a form read back as they were. -/
theorem fieldsOf_form
    (pairs : List (String × String)) :
    fieldsOf (form pairs).toList =
      pairs.map fun (name, value) => (some name, some value) := by
  match pairs with
  | [] => rfl
  | [(name, value)] =>
      rw [toList_form_singleton,
        fieldsOf_single (not_mem_formField (by decide) _)
          (not_mem_formField (by decide) _) (not_mem_formField (by decide) _),
        fieldText?_formField, fieldText?_formField]
      rfl
  | (name, value) :: next :: rest =>
      rw [toList_form_cons,
        fieldsOf_append (not_mem_formField (by decide) _)
          (not_mem_formField (by decide) _) (not_mem_formField (by decide) _),
        fieldText?_formField, fieldText?_formField,
        fieldsOf_form (next :: rest)]
      rfl

/-- Nothing in a form is dropped or cut off. -/
private theorem visible_of_mem_form
    {pairs : List (String × String)}
    {c : Char}
    (isChar : c ∈ (form pairs).toList) :
    0x20 < c.toNat ∧ c ≠ '#' := by
  have inField {name value : String}
      (isChar : c ∈ (formField name).toList ++ '=' :: (formField value).toList) :
      0x20 < c.toNat ∧ c ≠ '#' :=
    visible_of_mem_field (fun _ => isInner_of_mem_formField)
      (fun _ => isInner_of_mem_formField) isChar
  match pairs with
  | [] => cases isChar
  | [(name, value)] =>
      rw [toList_form_singleton] at isChar
      exact inField isChar
  | (name, value) :: next :: rest =>
      rw [toList_form_cons] at isChar
      rcases List.mem_append.mp isChar with isFirst | isLater
      · exact inField isFirst
      · rcases List.mem_cons.mp isLater with rfl | isLater
        · decide
        · exact visible_of_mem_form isLater

/-- Fields that are added to an address read back as they were. -/
theorem fields_withQuery
    {address : String}
    (noMark : '?' ∉ address.toList)
    (noSign : '#' ∉ address.toList)
    (pairs : List (String × String)) :
    fragment? (withQuery address pairs) = none ∧
      fields (withQuery address pairs) =
        pairs.map fun (name, value) => (some name, some value) := by
  have sameText :
      (withQuery address pairs).toList =
        address.toList ++ '?' :: (form pairs).toList := by
    have unmarked : address.toList.contains '?' = false := by
      simpa using noMark
    rw [withQuery, unmarked]
    simp
  rw [← fieldsOf_form]
  exact fields_of_visible sameText noMark noSign fun c => visible_of_mem_form

end NetWorth.Web.Query
