import Mathlib
import NetWorth.LanguageModel.Source
import NetWorth.Proofs.Market.Refusals

/-!
# What a quote is made of

A quote of a market or of the model is made of one successful reply, and the
parts of the reply that have become its price and its currency are named here.
A chain of two sources has no other quotes than they have.
-/

namespace NetWorth

/-- Steps in turn succeed if the first of them does, and then the next one. -/
private theorem bind_eq_ok_iff
    {Error First Second : Type}
    {first : Except Error First}
    {next : First → Except Error Second}
    {result : Second} :
    first >>= next = .ok result ↔
      ∃ value, first = .ok value ∧ next value = .ok result := by
  cases first with
  | error error => simp [bind, Except.bind]
  | ok value => simp [bind, Except.bind]

namespace Market

section Answers

variable
  {symbol : String}
  {now : Instant}
  {sent : Except String Web.Reply}
  {quote : Quote}

/-- The American market quotes the first line of its reply, whatever its price. -/
theorem AmericanFeed.answer_eq_ok_iff :
    AmericanFeed.answer symbol now sent = .ok quote ↔
      ∃ reply listing rest,
        sent = .ok reply ∧
          Web.Status.IsSuccess reply.status ∧
          reply.decode? (Json.list? AmericanFeed.Listing.ofJson?) =
            some (listing :: rest) ∧
          quote =
            { assetClass := .stock
              symbol := listing.symbol
              name := listing.name.getD listing.symbol
              price := listing.price
              currency := "USD"
              observedAt := now
              source := AmericanFeed.provider } := by
  unfold AmericanFeed.answer
  rw [bind_eq_ok_iff]
  constructor
  · rintro ⟨listings, isRead, quoted⟩
    obtain ⟨reply, isReply, -, success, decoded⟩ := Web.read_eq_ok_iff.mp isRead
    cases listings with
    | nil => cases quoted
    | cons listing rest =>
        cases quoted
        exact ⟨reply, listing, rest, isReply, success, decoded, rfl⟩
  · rintro ⟨reply, listing, rest, isReply, success, decoded, rfl⟩
    exact ⟨_, Web.read_eq_ok_iff.mpr ⟨reply, isReply, rfl, success, decoded⟩, rfl⟩

/-- The crypto market quotes the price of its reply, whatever its sign. -/
theorem CryptoFeed.answer_eq_ok_iff :
    CryptoFeed.answer symbol now sent = .ok quote ↔
      ∃ reply written price,
        sent = .ok reply ∧
          reply.status ≠ 400 ∧
          Web.Status.IsSuccess reply.status ∧
          reply.decode? CryptoFeed.price? = some written ∧
          Decimal.ofChars? (Text.trimChars written.toList) = some price ∧
          quote =
            { assetClass := .crypto
              symbol
              name := symbol
              price
              currency := CryptoFeed.coin
              observedAt := now
              source := CryptoFeed.provider } := by
  have notRefused (status : Nat) :
      CryptoFeed.refusal? symbol status = none ↔ status ≠ 400 := by
    simp [CryptoFeed.refusal?]
  unfold CryptoFeed.answer
  rw [bind_eq_ok_iff]
  constructor
  · rintro ⟨written, isRead, quoted⟩
    obtain ⟨reply, isReply, accepted, success, decoded⟩ :=
      Web.read_eq_ok_iff.mp isRead
    cases isPrice : Decimal.ofChars? (Text.trimChars written.toList) with
    | none =>
        rw [isPrice] at quoted
        cases quoted
    | some price =>
        rw [isPrice] at quoted
        cases quoted
        exact ⟨reply, written, price, isReply, (notRefused _).mp accepted,
          success, decoded, isPrice, rfl⟩
  · rintro ⟨reply, written, price, isReply, accepted, success, decoded, isPrice,
      rfl⟩
    refine ⟨written, Web.read_eq_ok_iff.mpr ⟨reply, isReply,
      (notRefused _).mpr accepted, success, decoded⟩, ?_⟩
    rw [isPrice]

/-- The Taiwan market quotes the first line of its reply, if its price is a
positive number. -/
theorem TaiwanFeed.answer_eq_ok_iff :
    TaiwanFeed.answer symbol now sent = .ok quote ↔
      ∃ reply listing rest price,
        sent = .ok reply ∧
          Web.Status.IsSuccess reply.status ∧
          reply.decode? TaiwanFeed.listings? = some (listing :: rest) ∧
          listing.positivePrice? = some price ∧
          quote =
            { assetClass := .stock
              symbol
              name := listing.name.getD symbol
              price := price.trimZeros
              currency := "TWD"
              observedAt := now
              source := TaiwanFeed.provider } := by
  unfold TaiwanFeed.answer
  rw [bind_eq_ok_iff]
  constructor
  · rintro ⟨listings, isRead, quoted⟩
    obtain ⟨reply, isReply, -, success, decoded⟩ := Web.read_eq_ok_iff.mp isRead
    cases listings with
    | nil => cases quoted
    | cons listing rest =>
        cases priced : listing.positivePrice? with
        | none =>
            simp only [List.head?_cons, Option.bind_some, priced,
              Option.map_none] at quoted
            cases quoted
        | some price =>
            simp only [List.head?_cons, Option.bind_some, priced,
              Option.map_some] at quoted
            cases quoted
            exact ⟨reply, listing, rest, price, isReply, success, decoded, priced,
              rfl⟩
  · rintro ⟨reply, listing, rest, price, isReply, success, decoded, priced, rfl⟩
    refine ⟨_, Web.read_eq_ok_iff.mpr ⟨reply, isReply, rfl, success, decoded⟩, ?_⟩
    simp only [List.head?_cons, Option.bind_some, priced, Option.map_some]

end Answers

end Market

namespace LanguageModel

variable
  {assetClass : AssetClass}
  {symbol text : String}
  {expected : Option String}
  {now : Instant}
  {sent : Except String Web.Reply}
  {quote : Quote}

/-- A quote in prose has the currency of its market, if there is one, and a
positive price. -/
theorem answerText_eq_ok_iff :
    answerText assetClass symbol expected now text = .ok quote ↔
      ∃ record ticker,
        Json.parse? (stripFence text) = some record ∧
          record.get? "error" = none ∧
          Ticker.ofJson? record = some ticker ∧
          (∀ currency ∈ expected, normalCode ticker.currency = currency) ∧
          ticker.price.IsPositive ∧
          quote =
            { assetClass
              symbol := ticker.symbolOr symbol
              name := ticker.name.getD (ticker.symbolOr symbol)
              price := ticker.price
              currency := normalCode ticker.currency
              observedAt := now
              source := provider } := by
  constructor
  · intro quoted
    unfold answerText at quoted
    split at quoted
    case h_1 => cases quoted
    case h_2 record parsed =>
      split at quoted
      case isTrue => cases quoted
      case isFalse noError =>
        split at quoted
        case h_1 => cases quoted
        case h_2 ticker read =>
          dsimp only at quoted
          split at quoted
          case isTrue => cases quoted
          case isFalse matching =>
            split at quoted
            case isTrue => cases quoted
            case isFalse isPositive =>
              cases quoted
              exact ⟨record, ticker, parsed, by simpa using noError, read,
                fun currency isExpected => by_contra fun apart =>
                  matching ⟨currency, isExpected, apart⟩,
                not_not.mp isPositive, rfl⟩
  · rintro ⟨record, ticker, parsed, noError, read, matching, isPositive, rfl⟩
    have noneApart : ¬ ∃ c ∈ expected, normalCode ticker.currency ≠ c :=
      fun ⟨currency, isExpected, apart⟩ => apart (matching currency isExpected)
    unfold answerText
    simp only [parsed, noError, read, if_neg noneApart, isPositive]
    rfl

/-- The model quotes the prose of its reply, if there is any. -/
theorem answer_eq_ok_iff :
    answer assetClass symbol expected now sent = .ok quote ↔
      ∃ reply text,
        sent = .ok reply ∧
          Web.Status.IsSuccess reply.status ∧
          reply.decode? text? = some text ∧
          Text.isBlankText text = false ∧
          answerText assetClass symbol expected now text = .ok quote := by
  unfold answer
  rw [bind_eq_ok_iff]
  constructor
  · rintro ⟨text, isRead, quoted⟩
    obtain ⟨reply, isReply, -, success, decoded⟩ := Web.read_eq_ok_iff.mp isRead
    cases blank : Text.isBlankText text with
    | true =>
        rw [blank] at quoted
        cases quoted
    | false =>
        rw [blank] at quoted
        exact ⟨reply, text, isReply, success, decoded, blank, quoted⟩
  · rintro ⟨reply, text, isReply, success, decoded, written, quoted⟩
    refine ⟨text, Web.read_eq_ok_iff.mpr ⟨reply, isReply, rfl, success, decoded⟩, ?_⟩
    rw [written]
    exact quoted

end LanguageModel

/-! ## Sources -/

section Sources

variable
  {World : Type}
  {assetClass : AssetClass}
  {symbol : String}
  {quote : Quote}

/-- In some world the source answers with a quote. -/
def PriceSource.MayQuote
    (source : PriceSource (StateM World))
    (assetClass : AssetClass)
    (symbol : String)
    (quote : Quote) :
    Prop :=
  ∃ world, ((source.price assetClass symbol).run world).1 = .ok quote

/-- A chain quotes what its first source quotes, or its second one. -/
theorem PriceSource.mayQuote_fallback
    {primary secondary : PriceSource (StateM World)}
    (quotes :
      (primary.fallback (some secondary)).MayQuote assetClass symbol quote) :
    primary.MayQuote assetClass symbol quote ∨
      secondary.MayQuote assetClass symbol quote := by
  obtain ⟨world, quoted⟩ := quotes
  rcases ran : (primary.price assetClass symbol).run world with ⟨answer, after⟩
  by_cases isUnavailable : answer.isUnavailable = true
  · rw [SourceTree.fallback_run_of_unavailable ran isUnavailable] at quoted
    exact .inr ⟨after, quoted⟩
  · rw [SourceTree.fallback_run_of_final ran isUnavailable] at quoted
    exact .inl ⟨world, by rw [ran]; exact quoted⟩

variable {web : Web.Connection (StateM World)}

/-- The markets quote no price for an empty symbol. -/
private theorem Market.Exchange.price_source_empty
    {m : Type → Type}
    [Monad m]
    (exchange : Market.Exchange)
    (web : Web.Connection m)
    (assetClass : AssetClass)
    {symbol : String}
    (empty : normalCode symbol = "") :
    (exchange.source web).price assetClass symbol =
      return .error (.invalidSymbol assetClass "") := by
  have isEmpty : "".isEmpty = true := rfl
  cases assetClass with
  | crypto => simp only [source, CryptoFeed.quote, empty, isEmpty, if_true]
  | stock =>
      simp only [source, TaiwanFeed.quote, AmericanFeed.quote, empty, isEmpty,
        if_true, ite_self]

/-- A quote of the markets is what one reply means, to a request to the market of
the asset. -/
theorem Market.Exchange.exists_reply_of_mayQuote
    {exchange : Market.Exchange}
    (quotes : (exchange.source web).MayQuote assetClass symbol quote) :
    ∃ request world now,
      exchange.Requests assetClass symbol request ∧
        Market.Exchange.answerTo assetClass symbol now
          ((web.send request).run world).1 = .ok quote := by
  obtain ⟨world, quoted⟩ := quotes
  by_cases empty : normalCode symbol = ""
  · rw [Market.Exchange.price_source_empty exchange web assetClass empty] at quoted
    cases quoted
  · rw [Market.Exchange.price_source exchange web assetClass empty,
      StateT.run_bind] at quoted
    obtain ⟨made, next, ran, -, isMade⟩ :=
      Market.Exchange.request?_run exchange web assetClass symbol world []
    rw [ran] at quoted
    cases made with
    | none => cases quoted
    | some request => exact ⟨request, next, _, isMade.2, quoted⟩

/-- A quote of the model is what one reply means. -/
theorem LanguageModel.exists_reply_of_mayQuote
    {model : LanguageModel}
    (quotes : (model.source web).MayQuote assetClass symbol quote) :
    ∃ request world now,
      LanguageModel.answer assetClass (normalCode symbol)
        (LanguageModel.question now assetClass (normalCode symbol)).2 now
          ((web.send request).run world).1 = .ok quote := by
  obtain ⟨world, quoted⟩ := quotes
  change ((model.quote web assetClass symbol).run world).1 = _ at quoted
  unfold LanguageModel.quote at quoted
  dsimp only at quoted
  split at quoted
  · cases quoted
  · exact ⟨_, _, _, quoted⟩

end Sources

end NetWorth
