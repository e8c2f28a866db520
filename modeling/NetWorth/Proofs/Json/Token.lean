import Mathlib
import NetWorth.Json.Printing
import NetWorth.Json.Token

/-!
# The tokens of what is written

A value that is written, on one line or over several, is split into the tokens
that stand for it: each token is recognised by its first character, and strings
come back character by character through their escapes.  A string that is not
legible is a token as well.
-/

namespace NetWorth.Json

namespace Token

/-! ## Strings -/

/-- An escape that is read as a character adds it. -/
private theorem scanString_escape
    {after rest : Text.Raw}
    {c : Char}
    (escape : escaped? after = some (some c, rest))
    (shorter : rest.length ≤ after.length)
    (reversed : List Char) :
    scanString (some reversed) (some '\\' :: after) =
      scanString (some (c :: reversed)) rest := by
  rw [scanString, if_neg (by decide), if_pos rfl, escape]
  simp only [shorter, if_true]
  rfl

/-- A character that is no quote, backslash or control adds itself to those before
it, unless one of them is illegible. -/
private theorem scanString_plain
    {c : Char}
    (notQuote : c ≠ '"')
    (notBackslash : c ≠ '\\')
    (notControl : ¬ c.toNat < 0x20)
    (reversed : Option (List Char))
    (rest : Text.Raw) :
    scanString reversed (some c :: rest) =
      scanString (reversed.map (c :: ·)) rest := by
  rw [scanString, if_neg notQuote, if_neg notBackslash, if_neg notControl]
  cases reversed <;> rfl

private theorem hexValue?_hexDigit :
    ∀ n < 16, hexValue? (hexDigit n) = some n := by
  decide

/-- A control that is written by its number is read by its number. -/
private theorem escaped?_control
    {c : Char}
    (control : c.toNat < 0x20)
    (rest : Text.Raw) :
    escaped? (some 'u' :: some '0' :: some '0' :: some (hexDigit (c.toNat / 16)) ::
        some (hexDigit (c.toNat % 16)) :: rest) =
      some (some c, rest) := by
  have high := hexValue?_hexDigit (c.toNat / 16) (by omega)
  have low := hexValue?_hexDigit (c.toNat % 16) (by omega)
  have zero : hexValue? '0' = some 0 := rfl
  have unitRead :
      hexUnit? (some '0' :: some '0' :: some (hexDigit (c.toNat / 16)) ::
          some (hexDigit (c.toNat % 16)) :: rest) =
        some (c.toNat, rest) := by
    simp only [hexUnit?, List.mapM_cons, List.mapM_nil, zero, high, low,
      Option.bind_eq_bind, Option.bind_some, Option.pure_def, List.foldl_cons,
      List.foldl_nil, Option.some.injEq, Prod.mk.injEq, and_true]
    omega
  have notHigh : isHighHalf c.toNat = false := by
    simp only [isHighHalf, Bool.and_eq_false_iff, decide_eq_false_iff_not]
    omega
  have notLow : isLowHalf c.toNat = false := by
    simp only [isLowHalf, Bool.and_eq_false_iff, decide_eq_false_iff_not]
    omega
  change numberedChar? _ = _
  simp [numberedChar?, unitRead, notHigh, notLow]

/-- A character that is written in a string is read as itself. -/
private theorem scanString_escapeChar
    (c : Char)
    (reversed : List Char)
    (rest : Text.Raw) :
    scanString (some reversed) ((escapeChar c).map some ++ rest) =
      scanString (some (c :: reversed)) rest := by
  have named (letter : Char)
      (escape : ∀ rest, escaped? (some letter :: rest) = some (some c, rest)) :
      scanString (some reversed) (['\\', letter].map some ++ rest) =
        scanString (some (c :: reversed)) rest :=
    scanString_escape (escape rest) (Nat.le_succ _) reversed
  unfold escapeChar
  split
  · next isQuote => exact named '"' fun _ => by rw [isQuote]; rfl
  split
  · next isBackslash => exact named '\\' fun _ => by rw [isBackslash]; rfl
  split
  · next isLineFeed => exact named 'n' fun _ => isLineFeed ▸ rfl
  split
  · next isReturn => exact named 'r' fun _ => isReturn ▸ rfl
  split
  · next isTab => exact named 't' fun _ => isTab ▸ rfl
  split
  · next isBackspace => exact named 'b' fun _ => isBackspace ▸ rfl
  split
  · next isFormFeed => exact named 'f' fun _ => isFormFeed ▸ rfl
  split
  · next control =>
    exact scanString_escape (escaped?_control control rest) (by simp; omega)
      reversed
  · next notQuote notBackslash _ _ _ _ _ notControl =>
    exact scanString_plain notQuote notBackslash notControl (some reversed) rest

/-- The inside of a string is read up to its closing quote. -/
private theorem scanString_flatMap
    (cs reversed : List Char)
    (rest : Text.Raw) :
    scanString (some reversed) ((cs.flatMap escapeChar).map some ++ some '"' :: rest) =
      some (some (cs.reverse ++ reversed), rest) := by
  induction cs generalizing reversed with
  | nil =>
      rw [List.flatMap_nil, List.map_nil, List.nil_append, scanString, if_pos rfl]
      rfl
  | cons c cs inductionHypothesis =>
      rw [List.flatMap_cons, List.map_append, List.append_assoc, scanString_escapeChar,
        inductionHypothesis, List.reverse_cons, List.append_assoc]
      rfl

/-- The inside of a string is read up to its closing quote, even if there are bytes
in it that belong to no character.  Then nothing of it is legible. -/
private theorem scanString_illegible
    {inside : Text.Raw}
    (plain : ∀ c, some c ∈ inside → c ≠ '"' ∧ c ≠ '\\' ∧ ¬ c.toNat < 0x20)
    {reversed : Option (List Char)}
    (illegible : reversed = none ∨ none ∈ inside)
    (rest : Text.Raw) :
    scanString reversed (inside ++ some '"' :: rest) = some (none, rest) := by
  induction inside generalizing reversed with
  | nil =>
      have isNone : reversed = none := by simpa using illegible
      rw [isNone, List.nil_append, scanString, if_pos rfl]
  | cons first inside inductionHypothesis =>
      have plainRest := fun c member => plain c (List.mem_cons_of_mem _ member)
      rw [List.cons_append]
      cases first with
      | none =>
          rw [scanString]
          exact inductionHypothesis plainRest (.inl rfl)
      | some c =>
          obtain ⟨notQuote, notBackslash, notControl⟩ := plain c List.mem_cons_self
          rw [scanString_plain notQuote notBackslash notControl]
          refine inductionHypothesis plainRest (illegible.imp ?_ ?_)
          · rintro rfl
            rfl
          · exact fun member => (List.mem_cons.mp member).resolve_left (by simp)

/-! ## Splitting a text -/

/-- Blanks between tokens are passed over. -/
private theorem scan_blanks
    {blanks : List Char}
    (areSpaces : ∀ c ∈ blanks, isSpace c = true)
    (rest : Text.Raw) :
    scan (blanks.map some ++ rest) = scan rest := by
  induction blanks with
  | nil => rfl
  | cons c blanks inductionHypothesis =>
      rw [List.forall_mem_cons] at areSpaces
      rw [List.map_cons, List.cons_append, scan, if_pos areSpaces.1,
        inductionHypothesis areSpaces.2]

/-- A token at the front of a text is the first of its tokens. -/
private theorem scan_cons
    {c : Char}
    {rest after : Text.Raw}
    {token : Token}
    (notSpace : isSpace c = false)
    (one : scanOne c rest = some (token, after))
    (shorter : after.length ≤ rest.length) :
    scan (some c :: rest) = (scan after).map (token :: ·) := by
  rw [scan, one]
  simp [notSpace, shorter]

/-- A string is one token. -/
private theorem scan_stringChars
    (s : String)
    (rest : Text.Raw) :
    scan ((stringChars s).map some ++ rest) =
      (scan rest).map (.str (some s) :: ·) := by
  have inside := scanString_flatMap s.toList [] rest
  have one :
      scanOne '"' ((s.toList.flatMap escapeChar).map some ++ some '"' :: rest) =
        some (.str (some s), rest) := by
    change (scanString (some []) _).map _ = _
    rw [inside]
    simp
  rw [stringChars, List.map_append, List.append_assoc]
  exact scan_cons rfl one (by simp; omega)

/-- A string with bytes that belong to no character is one token as well, and what
stands behind it is read as ever. -/
theorem scan_illegible
    {inside : Text.Raw}
    (plain : ∀ c, some c ∈ inside → c ≠ '"' ∧ c ≠ '\\' ∧ ¬ c.toNat < 0x20)
    (illegible : none ∈ inside)
    (rest : Text.Raw) :
    scan (some '"' :: (inside ++ some '"' :: rest)) =
      (scan rest).map (.str none :: ·) := by
  have one :
      scanOne '"' (inside ++ some '"' :: rest) = some (.str none, rest) := by
    change (scanString (some []) _).map _ = _
    rw [scanString_illegible plain (.inr illegible)]
    rfl
  exact scan_cons rfl one (by simp; omega)

end Token

/-! ## Values -/

mutual

/-- The tokens that a value is written with. -/
def tokens :
    Json → List Token
  | .null => [.null]
  | .bool b => [.bool b]
  | .num n => [.num (some n)]
  | .str s => [.str (some s)]
  | .arr items => .openArray :: (itemTokens items ++ [.closeArray])
  | .obj members => .openObject :: (memberTokens members ++ [.closeObject])
  | .illegible => [.null]

/-- The tokens of items with commas between them. -/
def itemTokens :
    List Json → List Token
  | [] => []
  | [item] => tokens item
  | item :: second :: rest => tokens item ++ .comma :: itemTokens (second :: rest)

/-- The tokens of members with commas between them. -/
def memberTokens :
    List (String × Json) → List Token
  | [] => []
  | [(name, value)] => .str (some name) :: .colon :: tokens value
  | (name, value) :: second :: rest =>
      .str (some name) :: .colon ::
        (tokens value ++ .comma :: memberTokens (second :: rest))

end

/-- A value that is made without numbers, and all of which is legible. -/
inductive Wordy :
    Json → Prop where
  | null :
      Wordy .null
  | bool (b : Bool) :
      Wordy (.bool b)
  | str (s : String) :
      Wordy (.str s)
  | arr
      {items : List Json}
      (wordyItems : ∀ item ∈ items, Wordy item) :
      Wordy (.arr items)
  | obj
      {members : List (String × Json)}
      (wordyMembers : ∀ member ∈ members, Wordy member.2) :
      Wordy (.obj members)

namespace Token

/-! ## Characters and their tokens -/

/-- Characters that are split into tokens, whatever follows them. -/
private def Splits
    (cs : List Char)
    (tokens : List Token) :
    Prop :=
  ∀ rest, scan (cs.map some ++ rest) = (scan rest).map (tokens ++ ·)

section Splits

variable
  {first second : List Char}
  {firstTokens secondTokens : List Token}

/-- Characters that follow others are split after them. -/
private theorem Splits.append
    (firstSplits : Splits first firstTokens)
    (secondSplits : Splits second secondTokens) :
    Splits (first ++ second) (firstTokens ++ secondTokens) := by
  intro rest
  rw [List.map_append, List.append_assoc, firstSplits, secondSplits, Option.map_map]
  congr 1
  funext tokens
  exact (List.append_assoc _ _ _).symm

/-- Blanks hold no token. -/
private theorem splits_blanks
    (areSpaces : ∀ c ∈ first, isSpace c = true) :
    Splits first [] := by
  intro rest
  rw [scan_blanks areSpaces]
  simp

/-- A mark is a token of one character. -/
private theorem splits_mark
    {c : Char}
    {token : Token}
    (notSpace : isSpace c = false)
    (one : ∀ rest, scanOne c rest = some (token, rest)) :
    Splits [c] [token] :=
  fun rest => scan_cons notSpace (one rest) (Nat.le_refl _)

private theorem splits_openArray :
    Splits ['['] [.openArray] :=
  splits_mark rfl fun _ => rfl

private theorem splits_closeArray :
    Splits [']'] [.closeArray] :=
  splits_mark rfl fun _ => rfl

private theorem splits_openObject :
    Splits ['\x7b'] [.openObject] :=
  splits_mark rfl fun _ => rfl

private theorem splits_closeObject :
    Splits ['\x7d'] [.closeObject] :=
  splits_mark rfl fun _ => rfl

private theorem splits_comma :
    Splits [','] [.comma] :=
  splits_mark rfl fun _ => rfl

private theorem splits_colon :
    Splits [':'] [.colon] :=
  splits_mark rfl fun _ => rfl

private theorem splits_null :
    Splits ['n', 'u', 'l', 'l'] [.null] :=
  fun _ => scan_cons rfl rfl (Nat.le_add_right _ 3)

private theorem splits_true :
    Splits ['t', 'r', 'u', 'e'] [.bool true] :=
  fun _ => scan_cons rfl rfl (Nat.le_add_right _ 3)

private theorem splits_false :
    Splits ['f', 'a', 'l', 's', 'e'] [.bool false] :=
  fun _ => scan_cons rfl rfl (Nat.le_add_right _ 4)

private theorem splits_stringChars
    (s : String) :
    Splits (stringChars s) [.str (some s)] :=
  scan_stringChars s

/-- A line starts with blanks. -/
private theorem splits_newLine
    (depth : Nat) :
    Splits (newLine depth) [] := by
  refine splits_blanks fun c mem => ?_
  rcases List.mem_cons.mp mem with isLineFeed | isIndent
  · rw [isLineFeed]
    rfl
  · rw [List.eq_of_mem_replicate isIndent]
    rfl

end Splits

/-! ## Values on one line -/

private theorem splits_itemsChars
    {items : List Json}
    (splits : ∀ item ∈ items, Splits item.toChars item.tokens) :
    Splits (itemsChars items) (itemTokens items) := by
  induction items with
  | nil => exact splits_blanks fun _ mem => by cases mem
  | cons item others inductionHypothesis =>
      rw [List.forall_mem_cons] at splits
      cases others with
      | nil => exact splits.1
      | cons second others =>
          exact splits.1.append
            (splits_comma.append (inductionHypothesis splits.2))

private theorem splits_membersChars
    {members : List (String × Json)}
    (splits :
      ∀ member ∈ members, Splits member.2.toChars member.2.tokens) :
    Splits (membersChars members) (memberTokens members) := by
  induction members with
  | nil => exact splits_blanks fun _ mem => by cases mem
  | cons member others inductionHypothesis =>
      rw [List.forall_mem_cons] at splits
      have one :=
        (splits_stringChars member.1).append (splits_colon.append splits.1)
      cases others with
      | nil => exact one
      | cons second others =>
          exact one.append
            (splits_comma.append (inductionHypothesis splits.2))

private theorem splits_toChars
    {j : Json}
    (wordy : j.Wordy) :
    Splits j.toChars j.tokens := by
  induction wordy with
  | null => exact splits_null
  | bool b =>
      cases b with
      | true => exact splits_true
      | false => exact splits_false
  | str s => exact splits_stringChars s
  | arr _ itemsSplit =>
      exact splits_openArray.append
        ((splits_itemsChars itemsSplit).append splits_closeArray)
  | obj _ membersSplit =>
      exact splits_openObject.append
        ((splits_membersChars membersSplit).append splits_closeObject)

/-- What is written of a value on one line is split into its tokens. -/
theorem scan_toChars
    {j : Json}
    (wordy : j.Wordy)
    (rest : Text.Raw) :
    scan (j.toChars.map some ++ rest) = (scan rest).map (j.tokens ++ ·) :=
  splits_toChars wordy rest

/-! ## Values over several lines -/

private theorem splits_prettyItems
    {items : List Json}
    {depth : Nat}
    (splits :
      ∀ item ∈ items, Splits (item.prettyChars depth) item.tokens) :
    Splits (prettyItems depth items) (itemTokens items) := by
  induction items with
  | nil => exact splits_blanks fun _ mem => by cases mem
  | cons item others inductionHypothesis =>
      rw [List.forall_mem_cons] at splits
      have one := (splits_newLine depth).append splits.1
      cases others with
      | nil => exact one
      | cons second others =>
          exact one.append
            (splits_comma.append (inductionHypothesis splits.2))

private theorem splits_prettyMembers
    {members : List (String × Json)}
    {depth : Nat}
    (splits :
      ∀ member ∈ members,
        Splits (member.2.prettyChars depth) member.2.tokens) :
    Splits (prettyMembers depth members) (memberTokens members) := by
  have blank : Splits [' '] [] :=
    splits_blanks fun c mem => by rw [List.mem_singleton.mp mem]; rfl
  induction members with
  | nil => exact splits_blanks fun _ mem => by cases mem
  | cons member others inductionHypothesis =>
      rw [List.forall_mem_cons] at splits
      have one :=
        ((splits_newLine depth).append (splits_stringChars member.1)).append
          (splits_colon.append (blank.append splits.1))
      cases others with
      | nil => exact one
      | cons second others =>
          exact one.append
            (splits_comma.append (inductionHypothesis splits.2))

/-- What is written of a value over several lines is split into its tokens. -/
theorem scan_prettyChars
    {j : Json}
    (wordy : j.Wordy)
    (depth : Nat)
    (rest : Text.Raw) :
    scan ((prettyChars depth j).map some ++ rest) =
      (scan rest).map (j.tokens ++ ·) := by
  suffices splits : Splits (prettyChars depth j) j.tokens from splits rest
  clear rest
  induction wordy generalizing depth with
  | null => exact splits_null
  | bool b =>
      cases b with
      | true => exact splits_true
      | false => exact splits_false
  | str s => exact splits_stringChars s
  | @arr items _ itemsSplit =>
      cases items with
      | nil => exact splits_openArray.append splits_closeArray
      | cons item others =>
          have inside :=
            splits_prettyItems fun item mem => itemsSplit item mem (depth + 1)
          have whole :=
            ((splits_openArray.append inside).append
              (splits_newLine depth)).append splits_closeArray
          rw [List.append_nil] at whole
          exact whole
  | @obj members _ membersSplit =>
      cases members with
      | nil => exact splits_openObject.append splits_closeObject
      | cons member others =>
          have inside :=
            splits_prettyMembers fun member mem =>
              membersSplit member mem (depth + 1)
          have whole :=
            ((splits_openObject.append inside).append
              (splits_newLine depth)).append splits_closeObject
          rw [List.append_nil] at whole
          exact whole

end Token

end NetWorth.Json
