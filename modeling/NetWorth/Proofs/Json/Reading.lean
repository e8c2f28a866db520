import Mathlib
import NetWorth.Json.Reading
import NetWorth.Proofs.Json.Token
import NetWorth.Proofs.Text.Bytes

/-!
# Values read back

The reader of tokens is a machine with a stack.  The tokens of a value take it
from where a value may stand to where the value has been delivered, whatever is
open around it, so what is written of a value is read as the value.  Bytes that
are a text are read as the text.
-/

namespace NetWorth.Json

namespace Reading

variable {j item : Json} {outer : List Frame}

/-- The tokens of a value deliver it to the containers that are open. -/
private def Delivers
    (j : Json) :
    Prop :=
  ∀ frames, j.tokens.foldlM step ⟨frames, .value⟩ = deliver j frames

/-- Tokens that follow a value find it delivered. -/
private theorem Delivers.append
    (delivers : Delivers j)
    (frames : List Frame)
    (rest : List Token) :
    (j.tokens ++ rest).foldlM step ⟨frames, .value⟩ =
      (deliver j frames).bind (rest.foldlM step) := by
  rw [List.foldlM_append, delivers frames]
  rfl

/-- No value starts with the end of an array, so the first item may be taken
for a value. -/
private theorem foldlM_firstItem
    (wordy : item.Wordy)
    (rest : List Token) :
    (item.tokens ++ rest).foldlM step ⟨.items [] :: outer, .itemOrEnd⟩ =
      (item.tokens ++ rest).foldlM step ⟨.items [] :: outer, .value⟩ := by
  cases wordy <;> simp only [tokens, List.cons_append, List.foldlM_cons] <;> rfl

/-- A last token takes the last step. -/
private theorem foldlM_last
    (token : Token)
    (state : State) :
    [token].foldlM step state = step state token := by
  rw [List.foldlM_cons]
  cases step state token <;> rfl

/-- Items up to the end of their array deliver the array. -/
private theorem foldlM_items
    {items : List Json}
    (someItem : items ≠ [])
    (itemsDeliver : ∀ item ∈ items, Delivers item)
    (reversed : List Json) :
    (itemTokens items ++ [Token.closeArray]).foldlM step
        ⟨.items reversed :: outer, .value⟩ =
      deliver (.arr (reversed.reverse ++ items)) outer := by
  induction items generalizing reversed with
  | nil => exact absurd rfl someItem
  | cons item others inductionHypothesis =>
      rw [List.forall_mem_cons] at itemsDeliver
      obtain ⟨itemDelivers, othersDeliver⟩ := itemsDeliver
      cases others with
      | nil =>
          rw [itemTokens, itemDelivers.append]
          change [Token.closeArray].foldlM step _ = _
          rw [foldlM_last, ← List.reverse_cons]
          rfl
      | cons second others =>
          have restDelivers :=
            inductionHypothesis (List.cons_ne_nil _ _) othersDeliver
              (item :: reversed)
          rw [List.reverse_cons, List.append_assoc] at restDelivers
          rw [itemTokens, List.append_assoc, itemDelivers.append]
          exact restDelivers

/-- Members whose names are all legible. -/
private def named
    (members : List (String × Json)) :
    List (Option String × Json) :=
  members.map fun member => (some member.1, member.2)

/-- An object of which all names are legible has its members. -/
private theorem object_named
    (members : List (String × Json)) :
    object (named members) = .obj members := by
  have allNamed :
      (named members).mapM
          (fun (member : Option String × Json) =>
            member.1.map fun name => (name, member.2)) =
        some members := by
    induction members with
    | nil => rfl
    | cons member others inductionHypothesis =>
        rw [named] at inductionHypothesis
        simp [named, inductionHypothesis]
  unfold object
  rw [allNamed]

/-- Members up to the end of their object deliver the object. -/
private theorem foldlM_members
    {members : List (String × Json)}
    (someMember : members ≠ [])
    (valuesDeliver : ∀ member ∈ members, Delivers member.2)
    (before : List (String × Json)) :
    (memberTokens members ++ [Token.closeObject]).foldlM step
        ⟨.members (named before).reverse :: outer, .name⟩ =
      deliver (.obj (before ++ members)) outer := by
  induction members generalizing before with
  | nil => exact absurd rfl someMember
  | cons member others inductionHypothesis =>
      rw [List.forall_mem_cons] at valuesDeliver
      obtain ⟨valueDelivers, othersDeliver⟩ := valuesDeliver
      obtain ⟨name, value⟩ := member
      have namedSnoc :
          (named (before ++ [(name, value)])).reverse =
            (some name, value) :: (named before).reverse := by
        simp [named]
      -- The name, the colon and the value are taken in their places.
      have memberTaken (rest : List Token) :
          (Token.str (some name) :: .colon :: (value.tokens ++ rest)).foldlM step
              ⟨.members (named before).reverse :: outer, .name⟩ =
            rest.foldlM step
              ⟨.members (named (before ++ [(name, value)])).reverse :: outer,
                .separator⟩ := by
        rw [namedSnoc]
        exact valueDelivers.append
          (.member (named before).reverse (some name) :: outer) rest
      cases others with
      | nil =>
          rw [memberTokens, List.cons_append, List.cons_append, memberTaken,
            foldlM_last]
          change deliver (object (List.reverse (List.reverse _))) outer = _
          rw [List.reverse_reverse, object_named]
      | cons second others =>
          have restDelivers :=
            inductionHypothesis (List.cons_ne_nil _ _) othersDeliver
              (before ++ [(name, value)])
          rw [List.append_assoc] at restDelivers
          rw [memberTokens, List.cons_append, List.cons_append, List.append_assoc,
            memberTaken]
          exact restDelivers

/-- The tokens of a value deliver it. -/
private theorem delivers
    (wordy : j.Wordy) :
    Delivers j := by
  induction wordy with
  | null => exact fun frames => foldlM_last .null _
  | bool b => exact fun frames => foldlM_last (.bool b) _
  | str s => exact fun frames => foldlM_last (.str (some s)) _
  | @arr items wordyItems itemsDeliver =>
      intro frames
      cases items with
      | nil =>
          change [Token.closeArray].foldlM step _ = _
          rw [foldlM_last]
          exact Option.or_none
      | cons item others =>
          have delivered :
              (itemTokens (item :: others) ++ [Token.closeArray]).foldlM step
                  ⟨.items [] :: frames, .value⟩ =
                deliver (.arr (item :: others)) frames :=
            foldlM_items (List.cons_ne_nil _ _) itemsDeliver []
          obtain ⟨tail, tokensEq⟩ :
              ∃ tail, itemTokens (item :: others) = item.tokens ++ tail := by
            cases others with
            | nil => exact ⟨[], (List.append_nil _).symm⟩
            | cons second others => exact ⟨_, rfl⟩
          rw [tokensEq, List.append_assoc] at delivered
          rw [tokens, tokensEq, List.append_assoc]
          have wordyItem : item.Wordy := wordyItems item List.mem_cons_self
          exact (foldlM_firstItem wordyItem _).trans delivered
  | @obj members _ valuesDeliver =>
      intro frames
      cases members with
      | nil =>
          change [Token.closeObject].foldlM step _ = _
          rw [foldlM_last]
          exact Option.or_none
      | cons member others =>
          have delivered :
              (memberTokens (member :: others) ++ [Token.closeObject]).foldlM step
                  ⟨.members [] :: frames, .name⟩ =
                deliver (.obj (member :: others)) frames :=
            foldlM_members (List.cons_ne_nil _ _) valuesDeliver []
          obtain ⟨tail, tokensEq⟩ :
              ∃ tail, memberTokens (member :: others) =
                .str (some member.1) :: tail := by
            cases others with
            | nil => exact ⟨_, rfl⟩
            | cons second others => exact ⟨_, rfl⟩
          rw [tokensEq] at delivered
          rw [tokens, tokensEq]
          exact delivered

end Reading

/-- Characters that are split into the tokens of a value are read as it. -/
private theorem ofRaw?_eq_some
    {j : Json}
    (wordy : j.Wordy)
    {cs : Text.Raw}
    (scanned :
      Token.scan (cs ++ []) = (Token.scan []).map (j.tokens ++ ·)) :
    ofRaw? cs = some j := by
  have empty : Token.scan [] = some [] := by rw [Token.scan]
  rw [List.append_nil, empty, Option.map_some, List.append_nil] at scanned
  have read : ofTokens? j.tokens = some j := by
    rw [ofTokens?, Reading.delivers wordy]
    rfl
  rw [ofRaw?, scanned]
  exact read

/-- What is written of a value on one line is read as the value. -/
theorem ofRaw?_toChars
    {j : Json}
    (wordy : j.Wordy) :
    ofRaw? (j.toChars.map some) = some j :=
  ofRaw?_eq_some wordy (Token.scan_toChars wordy [])

/-- What is written of a value over several lines is read as the value. -/
theorem ofRaw?_prettyChars
    {j : Json}
    (wordy : j.Wordy) :
    ofRaw? ((j.prettyChars 0).map some) = some j :=
  ofRaw?_eq_some wordy (Token.scan_prettyChars wordy 0 [])

/-- A decoder of the line of a value decodes the value. -/
theorem decode?_render
    {j : Json}
    (wordy : j.Wordy)
    (decode : Json → Option α) :
    decode? decode j.render = decode j := by
  rw [decode?, render, String.toList_ofList, ofRaw?_toChars wordy]
  rfl

/-- A decoder of the text of a value decodes the value. -/
theorem decode?_pretty
    {j : Json}
    (wordy : j.Wordy)
    (decode : Json → Option α) :
    decode? decode j.pretty = decode j := by
  rw [decode?, pretty, String.toList_ofList, ofRaw?_prettyChars wordy]
  rfl

/-- Bytes that are a text are decoded as the text. -/
theorem decodeBytes?_toUTF8
    (decode : Json → Option α)
    (s : String) :
    decodeBytes? decode s.toUTF8 = decode? decode s := by
  rw [decodeBytes?, decode?, Text.raw_toUTF8]

/-- An object with two members, of which the first one is a byte that is no text. -/
def halfLegible :
    ByteArray :=
  "\x7b\"c\":\"".toUTF8 ++ ⟨#[0xFF]⟩ ++ "\",\"n\":\"TSMC\"\x7d".toUTF8

example :
    decodeBytes? (fun j => (j.get? "n").bind text?) halfLegible = some "TSMC" ∧
      decodeBytes? (fun j => (j.get? "c").bind text?) halfLegible = none := by
  decide +kernel

end NetWorth.Json
