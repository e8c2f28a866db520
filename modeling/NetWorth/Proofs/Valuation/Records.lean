import Mathlib
import NetWorth.Valuation.Records
import NetWorth.Proofs.Json.Codec

/-!
# Valuations read back

Valuations with their items, snapshots and account summaries come back from
JSON.  An item is told by its kind, which is written first; items that are left
out of a total are only written if there are any, and a balance that has no
value in the display currency is not written at all.
-/

namespace NetWorth

open Json.Record (ofJson?_bind required_bind withDefault_bind withDefault_bind_of_missing
  optional_bind optional_bind_of_missing)

namespace SkippedItem

/-- The item with the minus sign of a zero left out. -/
def unsigned
    (s : SkippedItem) :
    SkippedItem :=
  { s with amount := s.amount.unsignedZero }

/-- Skipped items as JSON. -/
def codec :
    Json.Codec SkippedItem where
  encode :=
    toJson
  decode? :=
    ofJson?
  decimals s :=
    [s.amount]
  unsigned :=
    unsigned

private theorem ofJson?_toJson
    (s : SkippedItem) :
    ofJson? s.toJson = some s.unsigned := by
  rw [ofJson?,
    ofJson?_bind fieldNames s.toJson rfl (.refl _) rfl,
    required_bind rfl (Json.text?_str _),
    required_bind rfl (Json.decimal?_ofDecimal _),
    required_bind rfl (Json.text?_str _)]
  rfl

private theorem wordy_toJson
    (s : SkippedItem) :
    s.toJson.Wordy :=
  Json.wordy_of_plain rfl

/-- A skipped item comes back. -/
theorem faithful
    (s : SkippedItem) :
    codec.Faithful s := by
  refine .of_wordy s.wordy_toJson (ofJson?_toJson s) ?_
  cases s
  simp [codec, unsigned, Decimal.unsignedZero_eq_self_iff]

end SkippedItem

namespace LineItem

/-- The decimals of a line. -/
def decimals :
    LineItem → List Decimal
  | .holding _ amount _ converted => [amount, converted]
  | .account _ _ amount _ converted => [amount, converted]

/-- The line with the minus signs of its zeros left out. -/
def unsigned :
    LineItem → LineItem
  | .holding key amount currency converted =>
      .holding key amount.unsignedZero currency converted.unsignedZero
  | .account accountId name amount currency converted =>
      .account accountId name amount.unsignedZero currency
        converted.unsignedZero

/-- Lines as JSON. -/
def codec :
    Json.Codec LineItem where
  encode :=
    toJson
  decode? :=
    ofJson?
  decimals :=
    decimals
  unsigned :=
    unsigned

/-- Every part of a line that is written is legible. -/
private theorem legible_toJson
    (line : LineItem)
    (depth : Nat) :
    line.toJson.legible (depth + 1) = true := by
  cases line <;> simp [toJson, Json.legible, Json.legibleMembers, Json.ofDecimal]

private theorem splitKind?_holding
    (key : String)
    (amount : Decimal)
    (currency : String)
    (converted : Decimal) :
    splitKind? (toJson (.holding key amount currency converted)) =
      some ("holding",
        .obj [("key", .str key), ("amount", .ofDecimal amount),
          ("currency", .str currency), ("converted", .ofDecimal converted)]) := by
  simp [toJson, splitKind?]

private theorem splitKind?_account
    (accountId name : String)
    (amount : Decimal)
    (currency : String)
    (converted : Decimal) :
    splitKind? (toJson (.account accountId name amount currency converted)) =
      some ("account",
        .obj [("account_id", .str accountId), ("name", .str name),
          ("amount", .ofDecimal amount), ("currency", .str currency),
          ("converted", .ofDecimal converted)]) := by
  simp [toJson, splitKind?]

private theorem ofJson?_toJson
    (line : LineItem) :
    ofJson? line.toJson = some line.unsigned := by
  have legible : line.toJson.legible Json.maxDepth = true :=
    line.legible_toJson 126
  rw [ofJson?, Json.whole?_of_legible legible]
  cases line with
  | holding key amount currency converted =>
      rw [splitKind?_holding, Option.bind_eq_bind, Option.bind_some]
      dsimp only
      rw [if_pos rfl,
        ofJson?_bind holdingFields _ rfl (.refl _) rfl,
        required_bind rfl (Json.text?_str _),
        required_bind rfl (Json.decimal?_ofDecimal _),
        required_bind rfl (Json.text?_str _),
        required_bind rfl (Json.decimal?_ofDecimal _)]
      rfl
  | account accountId name amount currency converted =>
      rw [splitKind?_account, Option.bind_eq_bind, Option.bind_some]
      dsimp only
      rw [if_neg (by decide), if_pos rfl,
        ofJson?_bind accountFields _ rfl (.refl _) rfl,
        required_bind rfl (Json.text?_str _),
        required_bind rfl (Json.text?_str _),
        required_bind rfl (Json.decimal?_ofDecimal _),
        required_bind rfl (Json.text?_str _),
        required_bind rfl (Json.decimal?_ofDecimal _)]
      rfl

private theorem wordy_toJson
    (line : LineItem) :
    line.toJson.Wordy := by
  cases line <;> exact Json.wordy_of_plain rfl

/-- A line of either kind comes back. -/
theorem faithful
    (line : LineItem) :
    codec.Faithful line := by
  refine .of_wordy line.wordy_toJson (ofJson?_toJson line) ?_
  cases line <;>
    simp [codec, unsigned, decimals, Decimal.unsignedZero_eq_self_iff]

end LineItem

namespace Valuation

/-- The decimals of a valuation. -/
def decimals
    (v : Valuation) :
    List Decimal :=
  v.totalValue ::
    (v.lineItems.flatMap LineItem.codec.decimals ++
      v.skipped.flatMap SkippedItem.codec.decimals)

/-- The valuation with the minus signs of its zeros left out. -/
def unsigned
    (v : Valuation) :
    Valuation :=
  { v with
    totalValue := v.totalValue.unsignedZero
    lineItems := v.lineItems.map LineItem.codec.unsigned
    skipped := v.skipped.map SkippedItem.codec.unsigned }

/-- Valuations as JSON. -/
def codec :
    Json.Codec Valuation where
  encode :=
    toJson
  decode? :=
    ofJson?
  decimals :=
    decimals
  unsigned :=
    unsigned

private theorem legibleItems_lines
    (lines : List LineItem)
    (depth : Nat) :
    Json.legibleItems (depth + 1) (lines.map (·.toJson)) = true := by
  induction lines with
  | nil => rfl
  | cons line rest inductionHypothesis =>
      rw [List.map_cons, Json.legibleItems, line.legible_toJson,
        inductionHypothesis]
      rfl

/-- Lines are read as a whole. -/
private theorem lines_read
    (lines : List LineItem) :
    Json.whole? (Json.maxDepth - 1) (Json.list? LineItem.ofJson?)
        (.arr (lines.map (·.toJson))) =
      some (lines.map LineItem.unsigned) := by
  have legible :
      (Json.arr (lines.map (·.toJson))).legible (Json.maxDepth - 1) =
        true := by
    rw [Json.legible]
    exact legibleItems_lines lines 124
  rw [Json.whole?_of_legible legible]
  exact Json.list?_map fun line _ => line.ofJson?_toJson

private theorem skipped_read
    (skipped : List SkippedItem) :
    Json.list? SkippedItem.ofJson? (.arr (skipped.map (·.toJson))) =
      some (skipped.map SkippedItem.unsigned) :=
  Json.list?_map fun item _ => item.ofJson?_toJson

private theorem ofJson?_toJson
    (v : Valuation) :
    ofJson? v.toJson = some v.unsigned := by
  obtain ⟨userId, currency, totalValue, lineItems, skipped, asOf⟩ := v
  cases skipped with
  | nil =>
      have inOrder :
          (["user_id", "currency", "total_value", "line_items",
            "as_of"] : List String).Sublist fieldNames := by
        decide
      rw [ofJson?,
        ofJson?_bind fieldNames
          (toJson ⟨userId, currency, totalValue, lineItems, [], asOf⟩) rfl
          inOrder rfl,
        required_bind rfl (Json.text?_str _),
        required_bind rfl (Json.text?_str _),
        required_bind rfl (Json.decimal?_ofDecimal _),
        required_bind rfl (lines_read lineItems),
        withDefault_bind_of_missing rfl,
        required_bind rfl (Json.instant?_ofInstant _)]
      rfl
  | cons item rest =>
      rw [ofJson?,
        ofJson?_bind fieldNames
          (toJson
            ⟨userId, currency, totalValue, lineItems, item :: rest, asOf⟩)
          rfl (.refl _) rfl,
        required_bind rfl (Json.text?_str _),
        required_bind rfl (Json.text?_str _),
        required_bind rfl (Json.decimal?_ofDecimal _),
        required_bind rfl (lines_read lineItems),
        withDefault_bind rfl (skipped_read (item :: rest)),
        required_bind rfl (Json.instant?_ofInstant _)]
      rfl

private theorem wordy_toJson
    (v : Valuation) :
    v.toJson.Wordy := by
  have lines : (Json.arr (v.lineItems.map (·.toJson))).Wordy := by
    refine .arr fun item mem => ?_
    obtain ⟨line, -, rfl⟩ := List.mem_map.mp mem
    exact line.wordy_toJson
  have skipped : (Json.arr (v.skipped.map (·.toJson))).Wordy := by
    refine .arr fun item mem => ?_
    obtain ⟨item, -, rfl⟩ := List.mem_map.mp mem
    exact item.wordy_toJson
  unfold toJson
  refine .obj ?_
  simp only [List.forall_mem_append, List.forall_mem_cons]
  refine ⟨⟨⟨.str _, .str _, .str _, lines, by simp⟩, ?_⟩, .str _, by simp⟩
  split
  · simp
  · simpa using skipped

/-- A valuation comes back with all its items. -/
theorem faithful
    (v : Valuation) :
    codec.Faithful v := by
  refine .of_wordy v.wordy_toJson (ofJson?_toJson v) ?_
  obtain ⟨userId, currency, totalValue, lineItems, skipped, asOf⟩ := v
  have lines :
      lineItems.map LineItem.codec.unsigned = lineItems ↔
        ∀ a ∈ lineItems.flatMap LineItem.codec.decimals,
          ¬ a.IsSignedZero :=
    Json.Codec.map_unsigned_eq_iff fun line _ => line.faithful
  have leftOut :
      skipped.map SkippedItem.codec.unsigned = skipped ↔
        ∀ a ∈ skipped.flatMap SkippedItem.codec.decimals,
          ¬ a.IsSignedZero :=
    Json.Codec.map_unsigned_eq_iff fun item _ => item.faithful
  simp only [codec, unsigned, decimals, mk.injEq, true_and, and_true, lines,
    leftOut, List.forall_mem_cons, List.forall_mem_append,
    Decimal.unsignedZero_eq_self_iff]

end Valuation

namespace Snapshot

/-- The snapshot with the minus sign of a zero left out. -/
def unsigned
    (s : Snapshot) :
    Snapshot :=
  { s with totalValue := s.totalValue.unsignedZero }

/-- Snapshots as JSON. -/
def codec :
    Json.Codec Snapshot where
  encode :=
    toJson
  decode? :=
    ofJson?
  decimals s :=
    [s.totalValue]
  unsigned :=
    unsigned

private theorem ofJson?_toJson
    (s : Snapshot) :
    ofJson? s.toJson = some s.unsigned := by
  rw [ofJson?,
    ofJson?_bind fieldNames s.toJson rfl (.refl _) rfl,
    required_bind rfl (Json.text?_str _),
    required_bind rfl (Json.date?_ofDate _),
    required_bind rfl (Json.decimal?_ofDecimal _),
    required_bind rfl (Json.text?_str _)]
  rfl

/-- A snapshot comes back. -/
theorem faithful
    (s : Snapshot) :
    codec.Faithful s := by
  refine .of_wordy (Json.wordy_of_plain rfl) (ofJson?_toJson s) ?_
  cases s
  simp [codec, unsigned, Decimal.unsignedZero_eq_self_iff]

end Snapshot

namespace AccountSummary

/-- The decimals of a summary. -/
def decimals
    (s : AccountSummary) :
    List Decimal :=
  s.balance :: s.displayBalance.toList

/-- The summary with the minus signs of its zeros left out. -/
def unsigned
    (s : AccountSummary) :
    AccountSummary :=
  { s with
    balance := s.balance.unsignedZero
    displayBalance := s.displayBalance.map Decimal.unsignedZero }

/-- Account summaries as JSON. -/
def codec :
    Json.Codec AccountSummary where
  encode :=
    toJson
  decode? :=
    ofJson?
  decimals :=
    decimals
  unsigned :=
    unsigned

private theorem ofJson?_toJson
    (s : AccountSummary) :
    ofJson? s.toJson = some s.unsigned := by
  obtain ⟨accountId, name, currency, balance, displayBalance⟩ := s
  cases displayBalance with
  | none =>
      rw [ofJson?,
        ofJson?_bind fieldNames
          (toJson ⟨accountId, name, currency, balance, none⟩) rfl
          (List.sublist_append_left _ ["balance_in_display_currency"]) rfl,
        required_bind rfl (Json.text?_str _),
        required_bind rfl (Json.text?_str _),
        required_bind rfl (Json.text?_str _),
        required_bind rfl (Json.decimal?_ofDecimal _),
        optional_bind_of_missing rfl rfl]
      rfl
  | some displayBalance =>
      rw [ofJson?,
        ofJson?_bind fieldNames
          (toJson ⟨accountId, name, currency, balance, some displayBalance⟩)
          rfl (.refl _) rfl,
        required_bind rfl (Json.text?_str _),
        required_bind rfl (Json.text?_str _),
        required_bind rfl (Json.text?_str _),
        required_bind rfl (Json.decimal?_ofDecimal _),
        optional_bind rfl
          (Json.Record.nullable_ofDecimal (some displayBalance))]
      rfl

/-- An account summary comes back. -/
theorem faithful
    (s : AccountSummary) :
    codec.Faithful s := by
  refine .of_wordy ?_ (ofJson?_toJson s) ?_
  · refine Json.wordy_of_plain ?_
    cases s.displayBalance <;> rfl
  · obtain ⟨_, _, _, _, displayBalance⟩ := s
    cases displayBalance <;>
      simp [codec, unsigned, decimals, Decimal.unsignedZero_eq_self_iff]

end AccountSummary

end NetWorth
