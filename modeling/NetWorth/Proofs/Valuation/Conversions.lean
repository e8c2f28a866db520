import Mathlib
import NetWorth.Book.Memory
import NetWorth.Proofs.Holding.Isolation
import NetWorth.Proofs.Valuation.Calls
import NetWorth.Proofs.Valuation.Turns

/-!
# Conversions agree

What a holding or an account is worth in the display currency is worked out in
three places: when a holding is valued, when accounts are summarized, and when a
total is made of both.  The first leaves an amount in the display currency as it
is, the second converts from a code as it is written, and the third from its
normal form.  They come to the same.
-/

namespace NetWorth.Valuation

/-- A turn that takes an item for the value at which it is shown. -/
structure Turn.Agrees
    (rates : RateTable)
    (turn : Turn)
    (shown : Option Decimal) :
    Prop where
  converted_iff :
    ∀ value, turn.item.converted? rates = some value ↔ shown = some value
  counted :
    ∀ value sum,
      shown = some value →
        turn.sum.add? value = some sum →
          turn.fate rates = .counted value
  overflowing :
    ∀ value,
      shown = some value →
        turn.sum.add? value = none →
          turn.fate rates = .overflowing value
  unconverted_iff : turn.fate rates = .unconverted ↔ shown = none

/-- Whatever sum an item meets, it is taken for what it is converted to. -/
theorem Turn.agrees_converted
    (rates : RateTable)
    (turn : Turn) :
    turn.Agrees rates (turn.item.converted? rates) where
  converted_iff _ := Iff.rfl
  counted value sum converted added := by
    simp only [fate, converted, added]
  overflowing value converted notAdded := by
    simp only [fate, converted, notAdded]
  unconverted_iff := by
    unfold fate
    cases turn.item.converted? rates with
    | none => exact iff_of_true rfl rfl
    | some value =>
        cases added : turn.sum.add? value with
        | none => simp [added]
        | some sum => simp [added]

/-- An item that is put to a total, and taken at each of its turns for the value
at which it is shown. -/
structure TakenAsShown
    (rates : RateTable)
    (items : List Item)
    (item : Item)
    (shown : Option Decimal) :
    Prop where
  listed : item ∈ items
  agrees :
    ∀ turn ∈ turns rates .zero items,
      turn.item = item → turn.Agrees rates shown

theorem takenAsShown
    {rates : RateTable}
    {items : List Item}
    {item : Item}
    {shown : Option Decimal}
    (listed : item ∈ items)
    (isConverted : item.converted? rates = shown) :
    TakenAsShown rates items item shown where
  listed := listed
  agrees turn _ isItem := by
    rw [← isConverted, ← isItem]
    exact turn.agrees_converted rates

theorem holding_mem_items
    {holdings : List Holding}
    {holding : Holding}
    (listed : holding ∈ holdings)
    (accounts : List Account) :
    .holding holding ∈ items holdings accounts :=
  List.mem_append_left _
    (List.mem_map_of_mem (List.mem_mergeSort.mpr listed))

theorem account_mem_items
    {accounts : List Account}
    {account : Account}
    (listed : account ∈ accounts)
    (holdings : List Holding) :
    .account account ∈ items holdings accounts :=
  List.mem_append_right _ (List.mem_map_of_mem listed)

/-- A code in its normal form is converted as it is written. -/
theorem converted_account
    (rates : RateTable)
    (account : Account) :
    (Item.account account).converted? rates =
      (Services.summarize rates account).displayBalance := by
  unfold Item.converted? Services.summarize
  dsimp only [Item.amount, Item.currency]
  rw [RateTable.toBase_normalCode]

/-- A holding is shown for what it is converted to: an amount in the base is
converted to itself. -/
theorem converted_holding
    {World : Type}
    {appraisal : Appraisal World}
    {holdings : Table GroupKey Holding}
    (valued : appraisal.run.1 = .ok holdings)
    (inDisplayCurrency :
      appraisal.rates.base = normalCode appraisal.displayCurrency)
    {holding : Holding}
    (isHeld : holding ∈ holdings.values) :
    (Item.holding holding).converted? appraisal.rates =
      holding.displayValue := by
  obtain ⟨position, answer, normal, rfl⟩ :=
    Appraisal.exists_position_of_held valued isHeld
  unfold Item.converted?
  dsimp only [Item.amount, Item.currency]
  rw [Position.currency_valued, Position.displayValue_valued]
  unfold Position.displayValue
  by_cases isDisplayCurrency :
      position.key.currency = normalCode appraisal.displayCurrency
  · rw [if_pos isDisplayCurrency, RateTable.toBase_of_eq_base]
    · rfl
    · rw [normal, isDisplayCurrency, inDisplayCurrency]
  · rw [if_neg isDisplayCurrency]

/--
The conversions agree.  A total of holdings and accounts follows from their
turns, and at its turn each of them is taken for the value at which it is shown:
a holding, wherever it is listed, for its value in the display currency, and an
account for the balance in its summary.
-/
theorem conversions_agree
    {World State : Type}
    {appraisal : Appraisal World}
    {holdings : Table GroupKey Holding}
    {listed : List Holding}
    {services : Services (StateM State)}
    {user : String}
    {accounts : List Account}
    {start between after : State}
    (valued : appraisal.run.1 = .ok holdings)
    (inDisplayCurrency :
      appraisal.rates.base = normalCode appraisal.displayCurrency)
    (inAnyOrder : listed.Perm holdings.values)
    (ratesRead :
      Services.outcome (services.displayCurrency user >>= services.ratesFor)
          start =
        (.ok appraisal.rates, between))
    (accountsRead :
      (services.book.accounts user).run between = (.ok accounts, after))
    (asOf : Instant) :
    (fold user listed accounts appraisal.rates asOf).Follows appraisal.rates
        (items listed accounts) ∧
      (turns appraisal.rates .zero (items listed accounts)).map (·.item) =
        items listed accounts ∧
      (∀ holding ∈ holdings.values,
        TakenAsShown appraisal.rates (items listed accounts)
          (.holding holding) holding.displayValue) ∧
      ∃ summaries,
        Services.outcome (services.accountSummaries user) start =
            (.ok summaries, after) ∧
          List.Forall₂
            (fun account summary =>
              summary.accountId = account.id ∧
                TakenAsShown appraisal.rates (items listed accounts)
                  (.account account) summary.displayBalance)
            accounts summaries := by
  refine ⟨fold_follows _ _ _ _ _, map_item_turns _ _ _,
    fun holding isHeld => ?_, _,
    Services.accountSummaries_outcome ratesRead accountsRead, ?_⟩
  · exact takenAsShown
      (holding_mem_items (inAnyOrder.mem_iff.mpr isHeld) accounts)
      (converted_holding valued inDisplayCurrency isHeld)
  · rw [List.forall₂_map_right_iff, List.forall₂_same]
    intro account isListed
    exact ⟨rfl, takenAsShown (account_mem_items isListed listed)
      (converted_account _ account)⟩

/-! ## Accounts in odd spellings -/

/-- Accounts in the base, in a currency without a usable rate, and with a
balance that leaves no room for the others. -/
def oddAccounts :
    List Account :=
  [⟨"cash", "u", "Cash", " twd", .hundred⟩,
    ⟨"yen", "u", "Yen", "jpy", .hundred⟩,
    ⟨"broker", "u", "Broker", "Usd ", .one⟩,
    ⟨"vault", "u", "Vault", "TWD",
      Ledger.sampleDecimal Decimal.maxCoefficient 0⟩]

/-- Services at the rates of `Appraisal.among`, on a book in memory. -/
def oddServices :
    Services (StateM MemoryBook) where
  book :=
    MemoryBook.book
  rates :=
    ⟨fun _ => return .ok Appraisal.among.rates⟩
  prices :=
    ⟨"sample", fun _ _ => return .error (.unavailable "sample" "closed")⟩
  clock :=
    ⟨return .epoch⟩
  defaultCurrency :=
    "TWD"

/-- A book with these accounts. -/
def oddBook :
    MemoryBook :=
  oddAccounts.foldl MemoryBook.saveAccount .empty

private theorem accountsOf_oddBook :
    oddBook.accountsOf "u" = oddAccounts := by
  decide +kernel

theorem conversions_agree_oddBook :
    ∃ holdings summaries,
      Appraisal.among.run.1 = .ok holdings ∧
        Appraisal.among.rates.base =
          normalCode Appraisal.among.displayCurrency ∧
        Services.outcome (oddServices.accountSummaries "u") oddBook =
          (.ok summaries, oddBook) ∧
        summaries.map (fun summary =>
            summary.displayBalance.map Decimal.toText) =
          [some "100", none, some "32",
            some "79228162514264337593543950335"] ∧
        ∀ holding ∈ holdings.values,
          TakenAsShown Appraisal.among.rates
            (items holdings.values.reverse oddAccounts)
            (.holding holding) holding.displayValue := by
  have inDisplayCurrency :
      Appraisal.among.rates.base =
        normalCode Appraisal.among.displayCurrency := by
    decide +kernel
  have accountsRead :
      (oddServices.book.accounts "u").run oddBook =
        (.ok oddAccounts, oddBook) :=
    congrArg (fun accounts => (Except.ok accounts, oddBook))
      accountsOf_oddBook
  have ratesRead :
      Services.outcome
          (oddServices.displayCurrency "u" >>= oddServices.ratesFor)
          oddBook =
        (.ok Appraisal.among.rates, oddBook) :=
    rfl
  obtain ⟨-, -, held, summaries, summarized, -⟩ :=
    conversions_agree Appraisal.among_run.1 inDisplayCurrency
      (List.reverse_perm _) ratesRead accountsRead .epoch
  refine ⟨_, summaries, Appraisal.among_run.1, inDisplayCurrency, summarized,
    ?_, held⟩
  rw [Services.accountSummaries_outcome ratesRead accountsRead,
    Prod.mk.injEq, Except.ok.injEq] at summarized
  rw [← summarized.1]
  decide +kernel

end NetWorth.Valuation
