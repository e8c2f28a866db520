import Mathlib
import NetWorth.Ledger.Records
import NetWorth.Proofs.Json.Codec

/-!
# Ledger records read back

Trades, accounts and group keys come back from JSON.  A trade is written with
everything that its origin could supply, so nothing is taken from there.
-/

namespace NetWorth

open Json.Record (ofJson?_bind required_bind withDefault_bind)

@[simp] theorem Json.tradeSide?_name
    (side : TradeSide) :
    tradeSide? (.str side.name) = some side := by
  rw [tradeSide?, choice?, Option.bind_some]
  cases side <;> simp [TradeSide.ofName?, TradeSide.name]

namespace Trade

/-- The decimals of a trade. -/
def decimals
    (t : Trade) :
    List Decimal :=
  [t.quantity, t.unitPrice]

/-- The trade with the minus signs of its zeros left out. -/
def unsigned
    (t : Trade) :
    Trade :=
  { t with
    quantity := t.quantity.unsignedZero
    unitPrice := t.unitPrice.unsignedZero }

/-- Trades as JSON, with an origin for what is missing. -/
def codec
    (origin : Origin) :
    Json.Codec Trade where
  encode :=
    toJson
  decode? :=
    ofJson? origin
  decimals :=
    decimals
  unsigned :=
    unsigned

private theorem ofJson?_toJson
    (origin : Origin)
    (t : Trade) :
    ofJson? origin t.toJson = some t.unsigned := by
  rw [ofJson?,
    ofJson?_bind fieldNames t.toJson rfl (.refl _) rfl,
    withDefault_bind rfl (Json.text?_str _),
    withDefault_bind rfl (Json.text?_str _),
    withDefault_bind rfl (Json.text?_str _),
    required_bind rfl (Json.tradeSide?_name _),
    required_bind rfl (Json.assetClass?_ofAssetClass _),
    required_bind rfl (Json.text?_str _),
    withDefault_bind rfl (Json.text?_str _),
    required_bind rfl (Json.decimal?_ofDecimal _),
    required_bind rfl (Json.decimal?_ofDecimal _),
    required_bind rfl (Json.text?_str _),
    required_bind rfl (Json.date?_ofDate _),
    withDefault_bind rfl (Json.instant?_ofInstant _)]
  rfl

/-- A trade comes back, whatever origin is at hand. -/
theorem faithful
    (origin : Origin)
    (t : Trade) :
    (codec origin).Faithful t := by
  refine .of_wordy (Json.wordy_of_plain rfl) (ofJson?_toJson origin t) ?_
  cases t
  simp [codec, unsigned, decimals, Decimal.unsignedZero_eq_self_iff]

end Trade

namespace Account

/-- The account with the minus sign of a zero left out. -/
def unsigned
    (a : Account) :
    Account :=
  { a with balance := a.balance.unsignedZero }

/-- Accounts as JSON. -/
def codec :
    Json.Codec Account where
  encode :=
    toJson
  decode? :=
    ofJson?
  decimals a :=
    [a.balance]
  unsigned :=
    unsigned

private theorem ofJson?_toJson
    (a : Account) :
    ofJson? a.toJson = some a.unsigned := by
  rw [ofJson?,
    ofJson?_bind fieldNames a.toJson rfl (.refl _) rfl,
    required_bind rfl (Json.text?_str _),
    required_bind rfl (Json.text?_str _),
    required_bind rfl (Json.text?_str _),
    required_bind rfl (Json.text?_str _),
    required_bind rfl (Json.decimal?_ofDecimal _)]
  rfl

/-- An account comes back. -/
theorem faithful
    (a : Account) :
    codec.Faithful a := by
  refine .of_wordy (Json.wordy_of_plain rfl) (ofJson?_toJson a) ?_
  cases a
  simp [codec, unsigned, Decimal.unsignedZero_eq_self_iff]

end Account

namespace GroupKey

/-- Group keys as JSON. -/
def codec :
    Json.Codec GroupKey where
  encode :=
    toJson
  decode? :=
    ofJson?
  decimals _ :=
    []
  unsigned :=
    id

private theorem ofJson?_toJson
    (key : GroupKey) :
    ofJson? key.toJson = some key := by
  rw [ofJson?,
    ofJson?_bind fieldNames key.toJson rfl (.refl _) rfl,
    required_bind rfl (Json.assetClass?_ofAssetClass _),
    required_bind rfl (Json.text?_str _),
    required_bind rfl (Json.text?_str _)]
  rfl

/-- A group key comes back; it has no decimals. -/
theorem faithful
    (key : GroupKey) :
    codec.Faithful key := by
  refine .of_wordy (Json.wordy_of_plain rfl) (ofJson?_toJson key) ?_
  exact iff_of_true rfl fun _ mem => by cases mem

end GroupKey

end NetWorth
