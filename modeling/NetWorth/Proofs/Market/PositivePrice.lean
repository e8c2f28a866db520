import Mathlib
import NetWorth.Proofs.Decimal.Value
import NetWorth.Proofs.Holding.Figures
import NetWorth.Proofs.Market.Quotes
import NetWorth.Proofs.Quote.Run

/-!
# Prices above zero

The Taiwan market and the model let no price through that is not positive.  The
American market and the crypto market quote what they are sent.  Where they are
sent positive prices only, no other price is quoted by a chain of the markets and
the model, none is kept by a cache of that chain, and a holding that is valued
through the cache has a positive price, or zero in place of a price.

What is preserved is stated of a source and a kind of worlds: from a world of the
kind, the source quotes positive prices only and leaves a world of the kind.  For
a cache these are the worlds in which all its entries are positive.
-/

namespace NetWorth

/-! ## What a provider lets through -/

namespace Market

section Answers

variable
  {symbol : String}
  {now : Instant}
  {sent : Except String Web.Reply}
  {quote : Quote}

theorem TaiwanFeed.isPositive_of_answer
    (quoted : TaiwanFeed.answer symbol now sent = .ok quote) :
    quote.price.IsPositive := by
  obtain ⟨_, listing, _, price, -, -, -, priced, rfl⟩ :=
    TaiwanFeed.answer_eq_ok_iff.mp quoted
  have isPositive : price.IsPositive := by
    unfold TaiwanFeed.Listing.positivePrice? at priced
    obtain ⟨_, -, priced⟩ := Option.bind_eq_some_iff.mp priced
    obtain ⟨_, -, priced⟩ := Option.bind_eq_some_iff.mp priced
    split at priced
    · next isPositive => exact Option.some.inj priced ▸ isPositive
    · cases priced
  rw [Decimal.isPositive_iff] at isPositive ⊢
  rwa [Decimal.value_trimZeros]

/-- The first line of a reply of the American market has a price above zero, if
there is one. -/
def AmericanFeed.PricedAboveZero
    (reply : Web.Reply) :
    Prop :=
  ∀ listing ∈
      ((reply.decode? (Json.list? AmericanFeed.Listing.ofJson?)).getD []).head?,
    listing.price.IsPositive

instance (reply : Web.Reply) : Decidable (AmericanFeed.PricedAboveZero reply) :=
  inferInstanceAs (Decidable (∀ listing ∈ Option.getD _ [] |>.head?, _))

/-- A reply of the crypto market has a price above zero, if it has one. -/
def CryptoFeed.PricedAboveZero
    (reply : Web.Reply) :
    Prop :=
  ∀ written ∈ reply.decode? CryptoFeed.price?,
    ∀ price ∈ Decimal.ofChars? (Text.trimChars written.toList), price.IsPositive

instance (reply : Web.Reply) : Decidable (CryptoFeed.PricedAboveZero reply) :=
  inferInstanceAs (Decidable (∀ written ∈ Web.Reply.decode? _ _, _))

theorem AmericanFeed.isPositive_of_answer
    (aboveZero : ∀ reply, sent = .ok reply → AmericanFeed.PricedAboveZero reply)
    (quoted : AmericanFeed.answer symbol now sent = .ok quote) :
    quote.price.IsPositive := by
  obtain ⟨reply, listing, rest, isReply, -, decoded, rfl⟩ :=
    AmericanFeed.answer_eq_ok_iff.mp quoted
  exact aboveZero reply isReply listing (by rw [decoded]; rfl)

theorem CryptoFeed.isPositive_of_answer
    (aboveZero : ∀ reply, sent = .ok reply → CryptoFeed.PricedAboveZero reply)
    (quoted : CryptoFeed.answer symbol now sent = .ok quote) :
    quote.price.IsPositive := by
  obtain ⟨reply, written, price, isReply, -, -, decoded, isPrice, rfl⟩ :=
    CryptoFeed.answer_eq_ok_iff.mp quoted
  exact aboveZero reply isReply written decoded price isPrice

end Answers

end Market

theorem LanguageModel.isPositive_of_answer
    {assetClass : AssetClass}
    {symbol : String}
    {expected : Option String}
    {now : Instant}
    {sent : Except String Web.Reply}
    {quote : Quote}
    (quoted :
      LanguageModel.answer assetClass symbol expected now sent = .ok quote) :
    quote.price.IsPositive := by
  obtain ⟨_, _, -, -, -, -, quoted⟩ := LanguageModel.answer_eq_ok_iff.mp quoted
  obtain ⟨_, ticker, -, -, -, -, isPositive, rfl⟩ :=
    LanguageModel.answerText_eq_ok_iff.mp quoted
  exact isPositive

/-! ## Sources of positive prices -/

/-- From worlds of a kind, a source quotes positive prices only, and leaves worlds
of the kind. -/
def PriceSource.PositiveAmong
    {World : Type}
    (source : PriceSource (StateM World))
    (among : World → Prop) :
    Prop :=
  ∀ assetClass symbol world,
    among world →
      among ((source.price assetClass symbol).run world).2 ∧
        ∀ quote,
          ((source.price assetClass symbol).run world).1 = .ok quote →
            quote.price.IsPositive

section Chain

variable
  {World : Type}
  {exchange : Market.Exchange}
  {model : LanguageModel}
  {web : Web.Connection (StateM World)}
  {assetClass : AssetClass}
  {symbol : String}
  {quote : Quote}

/-- The two markets that quote what they are sent are sent prices above zero. -/
structure Market.Exchange.PricedAboveZero
    (exchange : Market.Exchange)
    (web : Web.Connection (StateM World)) :
    Prop where
  america :
    ∀ key code world reply,
      ((web.send (exchange.america.request key code)).run world).1 = .ok reply →
        Market.AmericanFeed.PricedAboveZero reply
  crypto :
    ∀ code world reply,
      ((web.send (exchange.crypto.request code)).run world).1 = .ok reply →
        Market.CryptoFeed.PricedAboveZero reply

/-- The markets quote a price above zero if they are sent one. -/
theorem Market.Exchange.isPositive_of_mayQuote
    (aboveZero : exchange.PricedAboveZero web)
    (quotes : (exchange.source web).MayQuote assetClass symbol quote) :
    quote.price.IsPositive := by
  obtain ⟨request, world, now, isRequest, quoted⟩ :=
    Market.Exchange.exists_reply_of_mayQuote quotes
  cases isRequest with
  | crypto =>
      exact Market.CryptoFeed.isPositive_of_answer
        (aboveZero.crypto _ world) quoted
  | america isAmerican isKey =>
      simp only [Market.Exchange.answerTo, isAmerican] at quoted
      exact Market.AmericanFeed.isPositive_of_answer
        (aboveZero.america _ _ world) quoted
  | taiwan isTaiwanese =>
      simp only [Market.Exchange.answerTo, isTaiwanese, if_true] at quoted
      exact Market.TaiwanFeed.isPositive_of_answer quoted

/-- A price that is not above zero is quoted by the American market or by the
crypto market. -/
theorem Market.Exchange.isPositive_or_unchecked
    (quotes : (exchange.source web).MayQuote assetClass symbol quote) :
    quote.price.IsPositive ∨
      quote.source = Market.AmericanFeed.provider ∨
        quote.source = Market.CryptoFeed.provider := by
  obtain ⟨request, world, now, isRequest, quoted⟩ :=
    Market.Exchange.exists_reply_of_mayQuote quotes
  cases isRequest with
  | crypto =>
      obtain ⟨_, _, _, -, -, -, -, -, rfl⟩ :=
        Market.CryptoFeed.answer_eq_ok_iff.mp quoted
      exact .inr (.inr rfl)
  | america isAmerican isKey =>
      simp only [Market.Exchange.answerTo, isAmerican] at quoted
      obtain ⟨_, _, _, -, -, -, rfl⟩ :=
        Market.AmericanFeed.answer_eq_ok_iff.mp quoted
      exact .inr (.inl rfl)
  | taiwan isTaiwanese =>
      simp only [Market.Exchange.answerTo, isTaiwanese, if_true] at quoted
      exact .inl (Market.TaiwanFeed.isPositive_of_answer quoted)

theorem LanguageModel.isPositive_of_mayQuote
    (quotes : (model.source web).MayQuote assetClass symbol quote) :
    quote.price.IsPositive := by
  obtain ⟨_, _, _, quoted⟩ := LanguageModel.exists_reply_of_mayQuote quotes
  exact LanguageModel.isPositive_of_answer quoted

end Chain

/-! ## Caches of positive prices -/

/-- Every entry of a table has a price above zero. -/
def QuoteTable.PricedAboveZero
    (t : QuoteTable) :
    Prop :=
  ∀ key entry, t.get? key = some entry → entry.quote.price.IsPositive

namespace QuoteTable.PricedAboveZero

variable {t : QuoteTable}

theorem insert
    (aboveZero : t.PricedAboveZero)
    {entry : CachedQuote}
    (isPositive : entry.quote.price.IsPositive)
    (key : String) :
    QuoteTable.PricedAboveZero (Table.insert t key entry) := by
  intro other found isFound
  rw [Table.get?_insert] at isFound
  split at isFound
  · cases isFound
    exact isPositive
  · exact aboveZero other found isFound

theorem filter
    (aboveZero : t.PricedAboveZero)
    (keep : String → CachedQuote → Bool) :
    QuoteTable.PricedAboveZero (Table.filter t keep) := by
  intro other found isFound
  rw [Table.get?_filter, Option.filter_eq_some_iff] at isFound
  exact aboveZero other found isFound.1

end QuoteTable.PricedAboveZero

namespace CachingSource

variable
  {World : Type}
  {env : Environment World}
  {lifetime : Span}

/-- The entries of the cache have prices above zero. -/
def RunState.PricedAboveZero
    (state : RunState World) :
    Prop :=
  QuoteTable.PricedAboveZero state.table

/-- What is found fresh is positive, and taking out what is not leaves the rest. -/
private theorem Environment.lookup_positive
    {state : RunState World}
    (aboveZero : state.PricedAboveZero)
    (lifetime : Span)
    (key : String) :
    (((env.caching lifetime).lookup key).run state).2.PricedAboveZero ∧
      ∀ quote,
        (((env.caching lifetime).lookup key).run state).1 = some quote →
          quote.price.IsPositive := by
  rw [env.lookup_run]
  cases found : state.table.get? key with
  | none => exact ⟨aboveZero, fun _ isQuote => by cases isQuote⟩
  | some entry =>
      dsimp only
      split
      · refine ⟨aboveZero, fun quote isQuote => ?_⟩
        cases isQuote
        exact aboveZero key entry found
      · exact ⟨QuoteTable.PricedAboveZero.filter aboveZero _,
          fun _ isQuote => by cases isQuote⟩

/-- A quote that is fetched and kept is positive, if the source is. -/
private theorem Environment.refetch_positive
    (inner : env.inner.PositiveAmong fun _ => True)
    {state : RunState World}
    (aboveZero : state.PricedAboveZero)
    (lifetime : Span)
    (assetClass : AssetClass)
    (symbol : String) :
    (env.refetch lifetime state assetClass symbol).2.PricedAboveZero ∧
      ∀ quote,
        (env.refetch lifetime state assetClass symbol).1 = .ok quote →
          quote.price.IsPositive := by
  have isPositive := (inner assetClass symbol state.world trivial).2
  unfold refetch ask
  rcases ran : (env.inner.price assetClass symbol).run state.world with
    ⟨answer, world⟩
  rw [ran] at isPositive
  cases answer with
  | error error => exact ⟨aboveZero, fun _ isQuote => by cases isQuote⟩
  | ok quote =>
      refine ⟨QuoteTable.PricedAboveZero.insert aboveZero (isPositive quote rfl) _,
        fun other isOther => ?_⟩
      cases isOther
      exact isPositive quote rfl

/-- A cache of positive prices answers with positive prices, if its source does,
and remains one. -/
theorem Environment.positiveAmong_caching
    (inner : env.inner.PositiveAmong fun _ => True)
    (lifetime : Span) :
    (env.caching lifetime).source.PositiveAmong RunState.PricedAboveZero := by
  intro assetClass symbol state aboveZero
  change RunState.PricedAboveZero
      (((env.caching lifetime).fetch assetClass symbol).run state).2 ∧
    ∀ quote,
      (((env.caching lifetime).fetch assetClass symbol).run state).1 = .ok quote →
        quote.price.IsPositive
  rw [env.fetch_run]
  dsimp only
  obtain ⟨staysAboveZero, isPositive⟩ :=
    env.lookup_positive aboveZero lifetime
      (priceKey assetClass (normalCode symbol))
  rcases ran : ((env.caching lifetime).lookup
    (priceKey assetClass (normalCode symbol))).run state with ⟨found, after⟩
  rw [ran] at staysAboveZero isPositive
  cases found with
  | some quote =>
      refine ⟨staysAboveZero, fun other isOther => ?_⟩
      cases isOther
      exact isPositive quote rfl
  | none => exact refetch_positive inner staysAboveZero lifetime _ _

/-- A step of a run leaves a cache of positive prices, and its answer is positive
if it is a quote. -/
private theorem Environment.perform_positive
    (inner : env.inner.PositiveAmong fun _ => True)
    (lifetime : Span)
    (step : RunStep env)
    {state : RunState World}
    (aboveZero : state.PricedAboveZero) :
    ((env.perform lifetime step).run state).2.PricedAboveZero ∧
      ∀ quote,
        ((env.perform lifetime step).run state).1 = some (.ok quote) →
          quote.price.IsPositive := by
  cases step with
  | request assetClass symbol =>
      obtain ⟨staysAboveZero, isPositive⟩ :=
        env.positiveAmong_caching inner lifetime assetClass symbol state aboveZero
      refine ⟨staysAboveZero, fun quote isQuote => isPositive quote ?_⟩
      exact Option.some.inj isQuote
  | sweep =>
      rw [env.sweep_run]
      exact ⟨QuoteTable.PricedAboveZero.filter aboveZero _,
        fun _ isQuote => by cases isQuote⟩
  | pass next forward => exact ⟨aboveZero, fun _ isQuote => by cases isQuote⟩

/-- A run leaves a cache of positive prices, and the quotes that it answers with
are positive. -/
theorem Environment.play_positive
    (inner : env.inner.PositiveAmong fun _ => True)
    (lifetime : Span)
    (steps : List (RunStep env))
    {state : RunState World}
    (aboveZero : state.PricedAboveZero) :
    ((play (env.perform lifetime) steps).run state).2.PricedAboveZero ∧
      ∀ quote,
        .ok quote ∈ ((play (env.perform lifetime) steps).run state).1 →
          quote.price.IsPositive := by
  induction steps generalizing state with
  | nil => exact ⟨aboveZero, fun _ isQuote => by cases isQuote⟩
  | cons step rest inductionHypothesis =>
      obtain ⟨afterStep, isPositive⟩ :=
        env.perform_positive inner lifetime step aboveZero
      obtain ⟨afterRest, restPositive⟩ := inductionHypothesis afterStep
      rw [play_cons_run]
      refine ⟨afterRest, fun quote isQuote => ?_⟩
      rcases List.mem_append.mp isQuote with isFirst | isLater
      · exact isPositive quote (Option.mem_toList.mp isFirst)
      · exact restPositive quote isLater

end CachingSource

/-! ## Holdings at positive prices -/

section Holdings

variable
  {World : Type}
  {prices : PriceSource (StateM World)}
  {among : World → Prop}

/-- The quotes for positions are positive. -/
private theorem PriceSource.PositiveAmong.answers
    (positive : prices.PositiveAmong among)
    (positions : List Position)
    {world : World}
    (isAmong : among world) :
    ∀ quote,
      .ok quote ∈ ((prices.answers positions).run world).1 →
        quote.price.IsPositive := by
  induction positions generalizing world with
  | nil => exact fun _ isQuote => by cases isQuote
  | cons position rest inductionHypothesis =>
      obtain ⟨staysAmong, isPositive⟩ :=
        positive position.key.assetClass position.key.ticker world isAmong
      rw [PriceSource.answers_cons_run]
      intro quote isQuote
      rcases List.mem_cons.mp isQuote with isFirst | isLater
      · exact isPositive quote isFirst.symm
      · exact inductionHypothesis staysAmong quote isLater

/-- A position is valued at its quote, or at zero. -/
private theorem Position.currentPrice_valued
    (position : Position)
    (displayCurrency : String)
    (rates : RateTable)
    (answer : PriceAnswer) :
    (∃ quote,
        answer = .ok quote ∧
          (position.valued displayCurrency rates answer).currentPrice =
            quote.price) ∨
      (position.valued displayCurrency rates answer).currentPrice = .zero := by
  by_cases hasFigures :
      ∃ quote figures,
        answer = .ok quote ∧
          Figures.ComputedAt position.quantity position.totalCost quote.price figures
  · obtain ⟨quote, figures, rfl, computed⟩ := hasFigures
    exact .inl ⟨quote, rfl, (position.valued_of_computedAt _ _ computed).1⟩
  · exact .inr (position.valued_of_not_computedAt _ _ _ hasFigures).1

/-- A holding has a positive price, or zero in place of a price. -/
theorem aggregate_positive
    (positive : prices.PositiveAmong among)
    (trades : List Trade)
    (displayCurrency : String)
    (rates : RateTable)
    {world : World}
    (isAmong : among world)
    {holdings : Table GroupKey Holding}
    (valued :
      ((aggregate prices trades displayCurrency rates).run world).1 =
        .ok holdings)
    {key : GroupKey}
    {holding : Holding}
    (isHolding : holdings.get? key = some holding) :
    holding.currentPrice.IsPositive ∨ holding.currentPrice = .zero := by
  cases replayed : Ledger.positions trades with
  | error error =>
      rw [aggregate_run_of_refused _ _ _ _ replayed] at valued
      cases valued
  | ok found =>
      rw [aggregate_run_of_accepted _ _ _ _ replayed] at valued
      cases valued
      rw [Table.get?_eq_some_iff,
        entries_holdingTable replayed (prices.length_answers found world)]
        at isHolding
      obtain ⟨⟨position, answer⟩, asked, same⟩ := List.mem_map.mp isHolding
      cases same
      rcases position.currentPrice_valued (normalCode displayCurrency) rates answer
        with ⟨quote, rfl, isPrice⟩ | isZero
      · rw [isPrice]
        exact .inl (positive.answers found isAmong quote (List.of_mem_zip asked).2)
      · exact .inr isZero

end Holdings

/-! ## The whole way of a price -/

/-- The Taiwan market and the model quote positive prices only.  If the two other
markets are sent positive prices only, so do the markets and the model together;
and after any run of a cache in front of them its entries, its answers and the
prices of holdings that are valued through it are positive, but for the zero of a
holding without a price. -/
theorem positive_prices_throughout
    {World : Type}
    (exchange : Market.Exchange)
    (model : LanguageModel)
    (web : Web.Connection (StateM World))
    (env : CachingSource.Environment World)
    (inFront :
      env.inner = (exchange.source web).fallback (some (model.source web)))
    (lifetime : Span) :
    (∀ assetClass symbol quote,
        env.inner.MayQuote assetClass symbol quote →
          quote.price.IsPositive ∨
            quote.source = Market.AmericanFeed.provider ∨
              quote.source = Market.CryptoFeed.provider) ∧
      (exchange.PricedAboveZero web →
        (∀ assetClass symbol quote,
            env.inner.MayQuote assetClass symbol quote →
              quote.price.IsPositive) ∧
          ∀ world steps,
            let ran :=
              (CachingSource.play (env.perform lifetime) steps).run
                ⟨world, [], .empty⟩
            (∀ quote, .ok quote ∈ ran.1 → quote.price.IsPositive) ∧
              (∀ key entry,
                ran.2.table.get? key = some entry →
                  entry.quote.price.IsPositive) ∧
                ∀ trades displayCurrency rates holdings key holding,
                  ((aggregate (env.caching lifetime).source trades displayCurrency
                      rates).run ran.2).1 = .ok holdings →
                    holdings.get? key = some holding →
                      holding.currentPrice.IsPositive ∨
                        holding.currentPrice = .zero) := by
  have unchecked (assetClass : AssetClass) (symbol : String) (quote : Quote)
      (quotes : env.inner.MayQuote assetClass symbol quote) :
      quote.price.IsPositive ∨
        (exchange.source web).MayQuote assetClass symbol quote := by
    rw [inFront] at quotes
    exact (PriceSource.mayQuote_fallback quotes).symm.imp_left
      LanguageModel.isPositive_of_mayQuote
  refine ⟨fun assetClass symbol quote quotes => ?_, fun aboveZero => ?_⟩
  · exact (unchecked assetClass symbol quote quotes).elim .inl
      Market.Exchange.isPositive_or_unchecked
  · have isPositive (assetClass : AssetClass) (symbol : String) (quote : Quote)
        (quotes : env.inner.MayQuote assetClass symbol quote) :
        quote.price.IsPositive :=
      (unchecked assetClass symbol quote quotes).elim id
        (Market.Exchange.isPositive_of_mayQuote aboveZero)
    have inner : env.inner.PositiveAmong fun _ => True :=
      fun assetClass symbol world _ =>
        ⟨trivial, fun quote quoted => isPositive _ _ quote ⟨world, quoted⟩⟩
    refine ⟨isPositive, fun world steps => ?_⟩
    have emptyAboveZero :
        CachingSource.RunState.PricedAboveZero
          (⟨world, [], .empty⟩ : CachingSource.RunState World) :=
      fun key entry isFound => by cases isFound
    obtain ⟨stays, answers⟩ := env.play_positive inner lifetime steps emptyAboveZero
    exact ⟨answers, stays, fun trades displayCurrency rates holdings key holding
      valued isHolding => aggregate_positive (env.positiveAmong_caching inner lifetime)
        trades displayCurrency rates stays valued isHolding⟩

/-- A chain in front of which a cache is put, in a web with one reply. -/
def oneReply
    (body : String) :
    CachingSource.Environment Unit where
  time _ :=
    .epoch
  inner :=
    ((Market.Exchange.standard (some "key")).source
      (Market.Exchange.sampleWeb ⟨200, body.toUTF8⟩)).fallback
        (some ((⟨"", "", ""⟩ : LanguageModel).source
          (Market.Exchange.sampleWeb ⟨200, body.toUTF8⟩)))
  inner_forward _ _ _ := by
    decide

/-- A line of the American market at a price. -/
def americanLine
    (price : String) :
    String :=
  "[\x7b\"symbol\":\"AAPL\",\"price\":" ++ price ++ "\x7d]"

/-- A price of one dollar is quoted, and is above zero as it was sent. -/
theorem positive_prices_throughout_oneDollar :
    (Market.Exchange.standard (some "key")).PricedAboveZero
        (Market.Exchange.sampleWeb ⟨200, (americanLine "1").toUTF8⟩) ∧
      ∃ quote,
        ((CachingSource.play ((oneReply (americanLine "1")).perform .twentyMinutes)
            [.request .stock "AAPL"]).run ⟨(), [], .empty⟩).1 = [.ok quote] ∧
          quote.price.IsPositive := by
  have aboveZero :
      (Market.Exchange.standard (some "key")).PricedAboveZero
        (Market.Exchange.sampleWeb ⟨200, (americanLine "1").toUTF8⟩) := by
    constructor
    · intro key code world reply isReply
      cases isReply
      decide +kernel
    · intro code world reply isReply
      cases isReply
      decide +kernel
  have ran :
      ((CachingSource.play ((oneReply (americanLine "1")).perform .twentyMinutes)
          [.request .stock "AAPL"]).run ⟨(), [], .empty⟩).1 =
        [.ok ⟨.stock, "AAPL", "AAPL", .one, "USD", .epoch, "fmp"⟩] := by
    decide +kernel
  have positive :=
    (positive_prices_throughout _ _ _ (oneReply (americanLine "1")) rfl
      .twentyMinutes).2 aboveZero
  exact ⟨aboveZero, _, ran, (positive.2 () [.request .stock "AAPL"]).1 _ (by
    rw [ran]
    exact List.mem_singleton_self _)⟩

/-- The American market quotes a price below zero, and the crypto market one of
zero; either is kept by the cache. -/
theorem prices_not_above_zero :
    let kept (body : String) (assetClass : AssetClass) (symbol : String) :=
      (((CachingSource.play ((oneReply body).perform .twentyMinutes)
          [.request assetClass symbol]).run ⟨(), [], .empty⟩).2.table.get?
            (priceKey assetClass symbol)).map fun entry => entry.quote.price
    (∃ price, kept (americanLine "-1") .stock "AAPL" = some price ∧ ¬ price.IsPositive) ∧
      ∃ price,
        kept "\x7b\"symbol\":\"BTCUSDT\",\"price\":\"0\"\x7d" .crypto "BTC" =
            some price ∧
          ¬ price.IsPositive := by
  refine ⟨⟨(Decimal.ofText? "-1").getD .one, ?_, ?_⟩, ⟨.zero, ?_, ?_⟩⟩
  all_goals decide +kernel

end NetWorth
