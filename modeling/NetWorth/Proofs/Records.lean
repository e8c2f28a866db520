import Mathlib
import NetWorth.Proofs.Holding.Records
import NetWorth.Proofs.Ledger.Records
import NetWorth.Proofs.Quote.Records
import NetWorth.Proofs.Rates.Records
import NetWorth.Proofs.Valuation.Records

/-!
# Records read back

Whatever record is written, what is read is that record: with its texts, its
dates and times, its kind and what it leaves out, and with the magnitude and the
scale of each of its decimals.  The only thing that a record can lose is the
minus sign of a zero, which stays on a number below zero that is rounded away
when it is read, and which is not read from a zero.
-/

namespace NetWorth.Json.Codec

/--
Every record comes back from its value, from one line and from several, but for
the minus signs of zeros; without such zeros it is the same record.  The codes
of a rate table have to be in normal form.
-/
theorem records_faithful :
    (∀ origin trade, (Trade.codec origin).Faithful trade) ∧
      (∀ account, Account.codec.Faithful account) ∧
      (∀ stored, StoredRate.codec.Faithful stored) ∧
      (∀ quote, Quote.codec.Faithful quote) ∧
      (∀ entry, CachedQuote.codec.Faithful entry) ∧
      (∀ key, GroupKey.codec.Faithful key) ∧
      (∀ holding, Holding.codec.Faithful holding) ∧
      (∀ line, LineItem.codec.Faithful line) ∧
      (∀ valuation, Valuation.codec.Faithful valuation) ∧
      (∀ snapshot, Snapshot.codec.Faithful snapshot) ∧
      (∀ summary, AccountSummary.codec.Faithful summary) ∧
      ∀ rates : RateTable, rates.IsNormal → RateTable.codec.Faithful rates :=
  ⟨Trade.faithful, Account.faithful, StoredRate.faithful, Quote.faithful,
    CachedQuote.faithful, GroupKey.faithful, Holding.faithful,
    LineItem.faithful, Valuation.faithful, Snapshot.faithful,
    AccountSummary.faithful, fun _ normal => RateTable.faithful normal⟩

/-- Rates for the Taiwan dollar, of which one is no rate at all. -/
def sampleRates :
    RateTable :=
  .ofRates "twd" [(" usd", .one), ("JPY", .zero)] (some .epoch)

/-- The rates come back from one line: their codes are in normal form, and their
zero has no sign. -/
theorem records_faithful_sampleRates :
    sampleRates.IsNormal ∧
      Json.decode? RateTable.ofJson? sampleRates.toJson.render =
        some sampleRates := by
  have normal : sampleRates.IsNormal :=
    ⟨by decide +kernel, by decide +kernel⟩
  obtain ⟨-, -, -, -, -, -, -, -, -, -, -, ratesFaithful⟩ := records_faithful
  have faithful := ratesFaithful sampleRates normal
  have noSignedZero :
      ∀ a ∈ RateTable.codec.decimals sampleRates, ¬ a.IsSignedZero := by
    have noSign :
        ∀ a ∈ RateTable.codec.decimals sampleRates, a.negative = false := by
      decide +kernel
    rintro a isRate ⟨-, isNegative⟩
    rw [noSign a isRate] at isNegative
    cases isNegative
  refine ⟨normal, ?_⟩
  have read := faithful.fromLine
  rwa [faithful.unsigned_eq noSignedZero] at read

/-- An account with a balance below zero that is rounded away when it is
read. -/
def accountRoundedAway :
    Json :=
  .obj [("id", .str "a"), ("user_id", .str "u"), ("name", .str "Cash"),
    ("currency", .str "USD"), ("balance", .str "-0.04e-27")]

/-- The balance is read as a zero with a minus sign, and written as one; then
the account does not come back. -/
theorem accountRoundedAway_differs :
    ∃ account,
      Account.ofJson? accountRoundedAway = some account ∧
        account.balance.toText = "-0.0000000000000000000000000000" ∧
        Account.ofJson? account.toJson ≠ some account := by
  obtain ⟨account, isRead⟩ :
      ∃ account, Account.ofJson? accountRoundedAway = some account :=
    Option.isSome_iff_exists.mp (by decide +kernel)
  have balances :
      (Account.ofJson? accountRoundedAway).all
          (fun account =>
            (account.balance.IsZero && account.balance.negative) &&
              account.balance.toText == "-0.0000000000000000000000000000") =
        true := by
    decide +kernel
  rw [isRead, Option.all_some, Bool.and_eq_true, Bool.and_eq_true,
    decide_eq_true_iff, beq_iff_eq] at balances
  refine ⟨account, isRead, balances.2, fun comesBack => ?_⟩
  have faithful := Account.faithful account
  have same : account.unsigned = account :=
    Option.some.inj (faithful.fromJson.symm.trans comesBack)
  exact faithful.unsigned_eq_iff.mp same account.balance
    (List.mem_singleton.mpr rfl) balances.1

end NetWorth.Json.Codec
