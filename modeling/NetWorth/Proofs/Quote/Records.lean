import Mathlib
import NetWorth.Quote.FileStore
import NetWorth.Proofs.Json.Codec
import NetWorth.Proofs.Table

/-!
# Quotes read back

A cached quote that is written as a record is read field by field as it was,
but for its price: a zero comes back without its sign.  So does every entry of a
table that is written to a file.
-/

namespace NetWorth

open Json (Wordy)
open Json.Record (ofJson?_bind required_bind)

/-- The quote with a price that is no signed zero. -/
def Quote.unsigned
    (q : Quote) :
    Quote :=
  { q with price := q.price.unsignedZero }

/-- The entry with a price that is no signed zero. -/
def CachedQuote.unsigned
    (entry : CachedQuote) :
    CachedQuote :=
  { entry with quote := entry.quote.unsigned }

@[simp] theorem CachedQuote.unsigned_unsigned
    (entry : CachedQuote) :
    entry.unsigned.unsigned = entry.unsigned := by
  simp [unsigned, Quote.unsigned]

/-- The sign of a price has no part in how long an entry lasts. -/
@[simp] theorem CachedQuote.isFresh_unsigned
    (entry : CachedQuote)
    (now : Instant) :
    entry.unsigned.IsFresh now ↔ entry.IsFresh now :=
  Iff.rfl

namespace Quote

private theorem wordy_members
    (q : Quote) :
    ∀ member ∈ q.members, Wordy member.2 := by
  simp only [members, List.forall_mem_cons, Json.ofAssetClass, Json.ofDecimal,
    Json.ofInstant]
  exact ⟨.str _, .str _, .str _, .str _, .str _, .str _, .str _, by simp⟩

/-- The fields of a quote are read from any record that has them in front. -/
private theorem ofRecord?_members
    (q : Quote)
    (others : List (String × Json)) :
    ofRecord? ⟨q.members ++ others, false⟩ = some q.unsigned := by
  rw [ofRecord?,
    required_bind rfl (Json.assetClass?_ofAssetClass _),
    required_bind rfl (Json.text?_str _),
    required_bind rfl (Json.text?_str _),
    required_bind rfl (Json.decimal?_ofDecimal _),
    required_bind rfl (Json.text?_str _),
    required_bind rfl (Json.instant?_ofInstant _),
    required_bind rfl (Json.text?_str _)]
  rfl

/-- A quote that is written is read as it was, but for the sign of a zero. -/
theorem ofJson?_toJson
    (q : Quote) :
    ofJson? q.toJson = some q.unsigned := by
  have fieldsRead := ofRecord?_members q []
  rw [List.append_nil] at fieldsRead
  rw [ofJson?, ofJson?_bind fieldNames q.toJson rfl (.refl _) rfl]
  exact fieldsRead

/-- Quotes as JSON. -/
def codec :
    Json.Codec Quote where
  encode :=
    toJson
  decode? :=
    ofJson?
  decimals q :=
    [q.price]
  unsigned :=
    unsigned

/-- A quote comes back. -/
theorem faithful
    (q : Quote) :
    codec.Faithful q := by
  refine .of_wordy (.obj q.wordy_members) (ofJson?_toJson q) ?_
  cases q
  simp [codec, unsigned, Decimal.unsignedZero_eq_self_iff]

end Quote

namespace CachedQuote

theorem wordy_toJson
    (entry : CachedQuote) :
    Wordy entry.toJson := by
  refine .obj fun member mem => ?_
  rcases List.mem_append.mp mem with inQuote | isExpiry
  · exact entry.quote.wordy_members member inQuote
  · rw [List.mem_singleton.mp isExpiry]
    exact .str _

/-- A cached quote that is written is read as it was, but for the sign of a
zero. -/
theorem ofJson?_toJson
    (entry : CachedQuote) :
    ofJson? entry.toJson = some entry.unsigned := by
  rw [ofJson?, ofJson?_bind fieldNames entry.toJson rfl (.refl _) rfl,
    Quote.ofRecord?_members, Option.bind_eq_bind, Option.bind_some,
    required_bind rfl (Json.instant?_ofInstant entry.expiresAt)]
  rfl

/-- Cached quotes as JSON. -/
def codec :
    Json.Codec CachedQuote where
  encode :=
    toJson
  decode? :=
    ofJson?
  decimals entry :=
    [entry.quote.price]
  unsigned :=
    unsigned

/-- A cached quote comes back. -/
theorem faithful
    (entry : CachedQuote) :
    codec.Faithful entry := by
  refine .of_wordy entry.wordy_toJson (ofJson?_toJson entry) ?_
  obtain ⟨quote, _⟩ := entry
  cases quote
  simp [codec, unsigned, Quote.unsigned, Decimal.unsignedZero_eq_self_iff]

end CachedQuote

namespace QuoteTable

private theorem wordy_toJson
    (t : QuoteTable) :
    Wordy t.toJson := by
  refine .obj fun member mem => ?_
  obtain ⟨entry, -, rfl⟩ := List.mem_map.mp mem
  exact entry.2.wordy_toJson

/-- The text of a file is not blank: it starts with a brace. -/
private theorem isBlankText_toText
    (t : QuoteTable) :
    Text.isBlankText t.toText = false := by
  obtain ⟨after, charsEq⟩ : ∃ after, t.toJson.prettyChars 0 = '\x7b' :: after := by
    rw [toJson]
    cases t.entries with
    | nil => exact ⟨_, rfl⟩
    | cons entry others => exact ⟨_, rfl⟩
  rw [Text.isBlankText, toText, Json.pretty, String.toList_ofList, charsEq]
  rfl

/-- A table of cached quotes that is written is read as it was, but for the
signs of zeros. -/
theorem ofText?_toText
    (t : QuoteTable) :
    ofText? t.toText = some (t.mapValues CachedQuote.unsigned) := by
  have entriesRead : ofJson? t.toJson = some (t.mapValues CachedQuote.unsigned) := by
    have sameTable := Table.ofList_entries (t.mapValues CachedQuote.unsigned)
    rw [ofJson?, toJson, Json.members?, Option.bind_eq_bind, Option.bind_some,
      Json.mapM_members CachedQuote.ofJson?_toJson]
    exact congrArg some sameTable
  rw [ofText?, isBlankText_toText, toText, Json.decode?_pretty (wordy_toJson t),
    entriesRead]
  rfl

end QuoteTable

end NetWorth
