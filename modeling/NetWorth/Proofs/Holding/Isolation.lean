import Mathlib
import NetWorth.Proofs.Holding.Lookups
import NetWorth.Proofs.Ledger.ClosedForm
import NetWorth.Proofs.Rates.Conversion

/-!
# Holdings do not interfere

A holding depends on the trades of its group, on the answer to the look-up of
its ticker and on the rate of its currency.  Whatever else is in the ledger,
however other prices turn out and whatever other rates there are, it is the same
holding.
-/

namespace NetWorth

/-- Whether a look-up is one of the ticker of a key. -/
def Lookup.Concerns
    (lookup : Lookup)
    (key : GroupKey) :
    Prop :=
  lookup.assetClass = key.assetClass ∧ lookup.symbol = key.ticker

namespace Position

/-- The places of its lots do not show in the value of a position. -/
theorem valued_renumber
    (place : Nat → Nat)
    (position : Position)
    (displayCurrency : String)
    (rates : RateTable)
    (answer : PriceAnswer) :
    (position.renumber place).valued displayCurrency rates answer =
      position.valued displayCurrency rates answer :=
  rfl

/-- Of all rates, that of its own currency shows in the value of a position. -/
theorem valued_congr_rates
    {position : Position}
    {first second : RateTable}
    (sameRate :
      first.rate? position.key.currency =
        second.rate? position.key.currency)
    (displayCurrency : String)
    (answer : PriceAnswer) :
    position.valued displayCurrency first answer =
      position.valued displayCurrency second answer := by
  unfold valued displayValue
  simp only [RateTable.toOption_toBase, sameRate]

end Position

namespace Appraisal

section Holdings

variable
  {World : Type}
  {appraisal : Appraisal World}
  {holdings : Table GroupKey Holding}

/-- Only an accepted ledger has holdings. -/
theorem exists_positions_of_valued
    (valued : appraisal.run.1 = .ok holdings) :
    ∃ found, Ledger.positions appraisal.trades = .ok found := by
  cases replayed : Ledger.positions appraisal.trades with
  | error error =>
      rw [(appraisal.run_of_refused replayed).1] at valued
      cases valued
  | ok found =>
      exact ⟨found, rfl⟩

/-- A holding is the value of a position, in the display currency in its normal
form. -/
theorem exists_position_of_held
    (valued : appraisal.run.1 = .ok holdings)
    {holding : Holding}
    (isHeld : holding ∈ holdings.values) :
    ∃ (position : Position) (answer : PriceAnswer),
      normalCode position.key.currency = position.key.currency ∧
        position.valued (normalCode appraisal.displayCurrency)
            appraisal.rates answer =
          holding := by
  obtain ⟨found, accepted⟩ := exists_positions_of_valued valued
  obtain ⟨answers, answered, result, -⟩ :=
    appraisal.exists_answers_of_accepted accepted
  rw [result, Except.ok.injEq] at valued
  rw [← valued, Table.values, entries_holdingTable accepted answered,
    List.map_map] at isHeld
  obtain ⟨⟨position, answer⟩, asked, isValued⟩ := List.mem_map.mp isHeld
  obtain ⟨trade, -, sameKey⟩ := Ledger.mem_keys.mp
    (Ledger.key_mem_keys accepted (List.of_mem_zip asked).1)
  refine ⟨position, answer, ?_, isValued⟩
  rw [← sameKey]
  exact normalCode_normalCode trade.currency

/-- Every holding is listed under its own key. -/
theorem map_key_of_valued
    (valued : appraisal.run.1 = .ok holdings) :
    holdings.values.map Holding.key = holdings.keys := by
  obtain ⟨found, accepted⟩ := exists_positions_of_valued valued
  obtain ⟨answers, answered, result, -⟩ :=
    appraisal.exists_answers_of_accepted accepted
  rw [result, Except.ok.injEq] at valued
  rw [← valued, Table.values, Table.keys,
    entries_holdingTable accepted answered]
  simp only [List.map_map]
  apply List.map_congr_left
  rintro ⟨position, answer⟩ asked
  exact Position.key_valued accepted (List.of_mem_zip asked).1 _ _ _

/--
What is found under a key: the position of its group at the price that one of
the look-ups has given, or nothing if that position is closed.
-/
theorem get?_of_valued
    (valued : appraisal.run.1 = .ok holdings)
    (key : GroupKey) :
    ∃ position,
      Ledger.replayed appraisal.trades key = .ok position ∧
        position.key = key ∧
        (position.quantity.IsPositive →
          ∃ lookup ∈ appraisal.lookups,
            lookup.Concerns key ∧
              holdings.get? key =
                some (position.valued (normalCode appraisal.displayCurrency)
                  appraisal.rates lookup.answer)) ∧
        (¬ position.quantity.IsPositive → holdings.get? key = none) := by
  obtain ⟨found, accepted⟩ := exists_positions_of_valued valued
  obtain ⟨answers, answered, result, lookedUp⟩ :=
    appraisal.exists_answers_of_accepted accepted
  obtain ⟨position, replays⟩ := Ledger.exists_replayed accepted key
  have positionKey := Ledger.replayed_key replays
  rw [result, Except.ok.injEq] at valued
  subst valued
  refine ⟨position, replays, positionKey, fun isPositive => ?_,
    fun notPositive => ?_⟩
  · have isOpen : position ∈ found := by
      rw [Ledger.mem_positions accepted, positionKey]
      exact ⟨replays, isPositive⟩
    rw [← List.map_fst_zip answered.ge] at isOpen
    obtain ⟨⟨opened, answer⟩, asked, isSame⟩ := List.mem_map.mp isOpen
    obtain rfl : opened = position := isSame
    refine ⟨PriceSource.lookupFor (opened, answer), ?_, ?_, ?_⟩
    · rw [lookedUp]
      exact List.mem_map_of_mem asked
    · rw [← positionKey]
      exact ⟨rfl, rfl⟩
    · rw [← positionKey]
      exact get?_holdingTable accepted answered _ _ asked
  · rw [Table.get?_eq_none_iff, keys_holdingTable accepted answered]
    intro isKey
    obtain ⟨other, isOpen, otherKey⟩ := List.mem_map.mp isKey
    obtain ⟨otherReplays, otherPositive⟩ :=
      (Ledger.mem_positions accepted).mp isOpen
    rw [otherKey, replays, Except.ok.injEq] at otherReplays
    rw [← otherReplays] at otherPositive
    exact notPositive otherPositive

end Holdings

variable {World Other : Type}

/--
Two appraisals in one display currency that agree on what concerns a key: on
the trades of its group and their order, on every answer to a look-up of its
ticker, and on the usable rate of its currency.
-/
structure AgreeOn
    (key : GroupKey)
    (first : Appraisal World)
    (second : Appraisal Other) :
    Prop where
  displayCurrency : first.displayCurrency = second.displayCurrency
  trades :
    (first.trades.filter fun trade => GroupKey.ofTrade trade == key) =
      second.trades.filter fun trade => GroupKey.ofTrade trade == key
  answers :
    ∀ lookup ∈ first.lookups,
      ∀ other ∈ second.lookups,
        lookup.Concerns key →
          other.Concerns key →
            lookup.answer = other.answer
  rate :
    first.rates.rate? key.currency = second.rates.rate? key.currency

/--
A holding depends on its own inputs only: two appraisals that agree on what
concerns a key, and that both succeed, have the same holding under the key, or
both have none.
-/
theorem holding_depends_on_own_inputs
    {first : Appraisal World}
    {second : Appraisal Other}
    {key : GroupKey}
    {firstHoldings secondHoldings : Table GroupKey Holding}
    (firstValued : first.run.1 = .ok firstHoldings)
    (secondValued : second.run.1 = .ok secondHoldings)
    (agree : AgreeOn key first second) :
    firstHoldings.get? key = secondHoldings.get? key := by
  obtain ⟨position, firstReplays, positionKey, firstOpen, firstClosed⟩ :=
    get?_of_valued firstValued key
  obtain ⟨other, secondReplays, -, secondOpen, secondClosed⟩ :=
    get?_of_valued secondValued key
  -- the two positions differ in the places of their lots at most
  have samePosition :
      position.renumber (fun _ => 0) = other.renumber fun _ => 0 := by
    have firstUnplaced := Ledger.replayed_unplaced first.trades key
    have secondUnplaced := Ledger.replayed_unplaced second.trades key
    have sameTrades :
        Ledger.tradesByDate first.trades key =
          Ledger.tradesByDate second.trades key := by
      rw [Ledger.tradesByDate, agree.trades]
      rfl
    rw [sameTrades, ← secondUnplaced, firstReplays, secondReplays]
      at firstUnplaced
    exact Except.ok.inj firstUnplaced
  have sameQuantity : position.quantity = other.quantity := by
    simpa using congrArg Position.quantity samePosition
  by_cases isPositive : position.quantity.IsPositive
  case neg =>
    rw [firstClosed isPositive, secondClosed (sameQuantity ▸ isPositive)]
  obtain ⟨firstLookup, firstMade, firstConcerns, firstFound⟩ :=
    firstOpen isPositive
  obtain ⟨secondLookup, secondMade, secondConcerns, secondFound⟩ :=
    secondOpen (sameQuantity ▸ isPositive)
  have sameRate :
      first.rates.rate? position.key.currency =
        second.rates.rate? position.key.currency := by
    rw [positionKey]
    exact agree.rate
  rw [firstFound, secondFound, Option.some.injEq,
    agree.answers _ firstMade _ secondMade firstConcerns secondConcerns,
    agree.displayCurrency, Position.valued_congr_rates sameRate,
    ← Position.valued_renumber (fun _ => 0), samePosition,
    Position.valued_renumber]

/-! ## Among other trades -/

/-- The quote of a share at two hundred dollars. -/
def shareQuote :
    Quote where
  assetClass :=
    .stock
  symbol :=
    "AAPL"
  name :=
    "Apple"
  price :=
    Ledger.sampleDecimal 200 0
  currency :=
    "USD"
  observedAt :=
    .epoch
  source :=
    "sample"

/-- The answer of a source that knows the price of one share, and gives a cause
otherwise. -/
def shareAnswer
    (cause : String)
    (assetClass : AssetClass)
    (symbol : String) :
    PriceAnswer :=
  if assetClass = .stock ∧ symbol = "AAPL" then
    .ok shareQuote
  else
    .error (.unavailable "sample" cause)

/-- A source that always answers so. -/
def knowsOneShare
    (cause : String) :
    PriceSource (StateM Unit) where
  name :=
    "sample"
  price assetClass symbol :=
    return shareAnswer cause assetClass symbol

/-- A share bought in yen. -/
def boughtInYen :
    Trade :=
  { Ledger.sampleTrade .buy .stock "AAPL" .one .hundred 2 with
    currency := "jpy" }

/-- The stock trades of `spanningSale` among others of the same ticker and of
another one. -/
def amongOthers :
    List Trade :=
  [Ledger.sampleTrade .sell .stock "AAPL" (Ledger.sampleDecimal 12 1) .zero 3,
    boughtInYen,
    Ledger.sampleTrade .buy .stock " aapl" (Ledger.sampleDecimal 10 1)
      (Ledger.sampleDecimal 15 1) 1,
    Ledger.sampleTrade .buy .stock "Aapl" (Ledger.sampleDecimal 5 1)
      (Ledger.sampleDecimal 7 0) 1,
    Ledger.sampleTrade .buy .crypto "eth" .one .hundred 1]

/-- A position of one purchase at one hundred. -/
def boughtAtHundred
    (key : GroupKey)
    (place : Nat) :
    Position where
  key :=
    key
  tickerName :=
    ""
  lots :=
    [⟨.one, .hundred, place⟩]
  quantity :=
    .one
  totalCost :=
    .hundred
  averageCost :=
    .hundred

private theorem keys_amongOthers :
    Ledger.keys amongOthers =
      [⟨.stock, "AAPL", "JPY"⟩, ⟨.stock, "AAPL", "USD"⟩,
        ⟨.crypto, "ETH", "USD"⟩] := by
  cbv

private theorem group_amongOthers_yen :
    Ledger.group amongOthers ⟨.stock, "AAPL", "JPY"⟩ =
      [⟨1, amongOthers[1]⟩] := by
  cbv

private theorem group_amongOthers_dollars :
    Ledger.group amongOthers ⟨.stock, "AAPL", "USD"⟩ =
      [⟨2, amongOthers[2]⟩, ⟨3, amongOthers[3]⟩, ⟨0, amongOthers[0]⟩] := by
  cbv

private theorem group_amongOthers_crypto :
    Ledger.group amongOthers ⟨.crypto, "ETH", "USD"⟩ =
      [⟨4, amongOthers[4]⟩] := by
  cbv

theorem positions_amongOthers :
    Ledger.positions amongOthers =
      .ok [boughtAtHundred ⟨.stock, "AAPL", "JPY"⟩ 1,
        Ledger.leftOfSpanningSale.renumber fun _ => 3,
        boughtAtHundred ⟨.crypto, "ETH", "USD"⟩ 4] := by
  have yen :
      Ledger.replay (.empty ⟨.stock, "AAPL", "JPY"⟩) [⟨1, amongOthers[1]⟩] =
        .ok (boughtAtHundred ⟨.stock, "AAPL", "JPY"⟩ 1) := by
    decide +kernel
  have dollars :
      Ledger.replay (.empty ⟨.stock, "AAPL", "USD"⟩)
          [⟨2, amongOthers[2]⟩, ⟨3, amongOthers[3]⟩, ⟨0, amongOthers[0]⟩] =
        .ok (Ledger.leftOfSpanningSale.renumber fun _ => 3) := by
    decide +kernel
  have crypto :
      Ledger.replay (.empty ⟨.crypto, "ETH", "USD"⟩) [⟨4, amongOthers[4]⟩] =
        .ok (boughtAtHundred ⟨.crypto, "ETH", "USD"⟩ 4) := by
    decide +kernel
  rw [Ledger.positions, Ledger.allPositions, keys_amongOthers]
  simp only [List.mapM_cons, group_amongOthers_yen, group_amongOthers_dollars,
    group_amongOthers_crypto, yen, dollars, crypto]
  rfl

/-- The one ledger, with a rate for the dollar. -/
def alone :
    Appraisal Unit where
  prices :=
    knowsOneShare "down"
  world :=
    ()
  trades :=
    Ledger.spanningSale
  displayCurrency :=
    "twd"
  rates :=
    .ofRates "twd" [("usd", Ledger.sampleDecimal 3125 5)] none

/-- The other ledger, with an unusable rate for the yen and one for the base
besides. -/
def among :
    Appraisal Unit where
  prices :=
    knowsOneShare "busy"
  world :=
    ()
  trades :=
    amongOthers
  displayCurrency :=
    "twd"
  rates :=
    .ofRates "TWD"
      [("JPY", .zero), ("twd", .hundred),
        ("USD", Ledger.sampleDecimal 3125 5)]
      (some .epoch)

private theorem alone_run :
    alone.run.1 =
        .ok (holdingTable "twd" alone.rates
          [(Ledger.leftOfSpanningSale, .ok shareQuote)]) ∧
      alone.lookups = [⟨.stock, "AAPL", .ok shareQuote⟩] := by
  have accepted : Ledger.positions alone.trades = _ :=
    Ledger.positions_spanningSale
  unfold lookups recordedRun run
  rw [aggregate_eq, aggregate_eq, accepted]
  exact ⟨rfl, rfl⟩

theorem among_run :
    among.run.1 =
        .ok (holdingTable "twd" among.rates
          [(boughtAtHundred ⟨.stock, "AAPL", "JPY"⟩ 1, .ok shareQuote),
            (Ledger.leftOfSpanningSale.renumber fun _ => 3, .ok shareQuote),
            (boughtAtHundred ⟨.crypto, "ETH", "USD"⟩ 4,
              .error (.unavailable "sample" "busy"))]) ∧
      among.lookups =
        [⟨.stock, "AAPL", .ok shareQuote⟩, ⟨.stock, "AAPL", .ok shareQuote⟩,
          ⟨.crypto, "ETH", .error (.unavailable "sample" "busy")⟩] := by
  have accepted : Ledger.positions among.trades = _ := positions_amongOthers
  unfold lookups recordedRun run
  rw [aggregate_eq, aggregate_eq, accepted]
  exact ⟨rfl, rfl⟩

/-- The stock is held alike in both ledgers. -/
private theorem agreeOn_share :
    AgreeOn ⟨.stock, "AAPL", "USD"⟩ alone among where
  displayCurrency := rfl
  trades := by decide +kernel
  answers := by
    rw [alone_run.2, among_run.2]
    simp [Lookup.Concerns]
  rate := by decide +kernel

/-- The 0.3 shares that are left are worth 1920 Taiwan dollars beside a share
in yen that has no rate and a coin that has no price. -/
theorem holding_depends_on_own_inputs_among :
    AgreeOn ⟨.stock, "AAPL", "USD"⟩ alone among ∧
      ∃ first second,
        alone.run.1 = .ok first ∧
          among.run.1 = .ok second ∧
          first.get? ⟨.stock, "AAPL", "USD"⟩ =
            second.get? ⟨.stock, "AAPL", "USD"⟩ ∧
          ((first.get? ⟨.stock, "AAPL", "USD"⟩).bind (·.displayValue)).map
            Decimal.toText = some "1920" :=
  ⟨agreeOn_share, _, _, alone_run.1, among_run.1,
    holding_depends_on_own_inputs alone_run.1 among_run.1 agreeOn_share,
    by decide +kernel⟩

end Appraisal

end NetWorth
