import Mathlib
import NetWorth.Market.Exchange
import NetWorth.Proofs.Quote.FallbackChain

/-!
# Refusals and outages

A market refuses a symbol by one answer of its own: a status, an empty list, or
a listing without a price.  Whatever else goes wrong between the request and the
quote is an outage of the provider, for which a second source may make up; a
refusal is final.
-/

namespace NetWorth

/-! ## What a reply is read as -/

namespace Web

variable
  {Value : Type}
  {provider subject : String}
  {refusal? : Nat → Option PriceError}
  {decode : Json → Option Value}
  {sent : Except String Reply}

/-- A value is read from a successful reply that is not refused. -/
theorem read_eq_ok_iff
    {value : Value} :
    read provider subject refusal? decode sent = .ok value ↔
      ∃ reply,
        sent = .ok reply ∧
          refusal? reply.status = none ∧
          Status.IsSuccess reply.status ∧
          reply.decode? decode = some value := by
  cases sent with
  | error cause => simp [read]
  | ok reply =>
      unfold read
      cases refused : refusal? reply.status with
      | some refusal => simp [refused]
      | none =>
          by_cases success : Status.IsSuccess reply.status
          · cases decoded : reply.decode? decode <;>
              simp [refused, success, decoded]
          · simp [refused, success]

/-- A symbol is only found invalid by a status that says so. -/
theorem read_eq_invalidSymbol_iff
    {assetClass : AssetClass}
    {symbol : String} :
    read provider subject refusal? decode sent =
        .error (.invalidSymbol assetClass symbol) ↔
      ∃ reply,
        sent = .ok reply ∧
          refusal? reply.status = some (.invalidSymbol assetClass symbol) := by
  cases sent with
  | error cause => simp [read]
  | ok reply =>
      unfold read
      cases refused : refusal? reply.status with
      | some refusal => simp [refused]
      | none =>
          by_cases success : Status.IsSuccess reply.status
          · cases decoded : reply.decode? decode <;>
              simp [refused, success, decoded]
          · simp [refused, success]

end Web

/-- Steps in turn fail where the first of them fails, or where the next one
does. -/
private theorem bind_eq_error_iff
    {Error First Second : Type}
    {first : Except Error First}
    {next : First → Except Error Second}
    {error : Error} :
    first >>= next = .error error ↔
      first = .error error ∨
        ∃ value, first = .ok value ∧ next value = .error error := by
  cases first with
  | error other => simp [bind, Except.bind]
  | ok value => simp [bind, Except.bind]

namespace Market

/-! ## What the replies of the markets mean -/

/-- Lines of the Taiwan market of which the first one has no price: there is no
line, or its price is missing, no decimal, or not above zero. -/
inductive TaiwanFeed.Unpriced :
    List TaiwanFeed.Listing → Prop where
  | noListing :
      Unpriced []
  | noPrice
      {first : TaiwanFeed.Listing}
      {rest : List TaiwanFeed.Listing}
      (missing : first.price = none) :
      Unpriced (first :: rest)
  | notDecimal
      {first : TaiwanFeed.Listing}
      {rest : List TaiwanFeed.Listing}
      {written : String}
      (given : first.price = some written)
      (unread : Decimal.ofChars? (Text.trimChars written.toList) = none) :
      Unpriced (first :: rest)
  | notPositive
      {first : TaiwanFeed.Listing}
      {rest : List TaiwanFeed.Listing}
      {written : String}
      {price : Decimal}
      (given : first.price = some written)
      (isPrice :
        Decimal.ofChars? (Text.trimChars written.toList) = some price)
      (notPositive : ¬ price.IsPositive) :
      Unpriced (first :: rest)

/-- A line without a positive price has none of any kind. -/
theorem TaiwanFeed.unpriced_cons_iff
    {first : TaiwanFeed.Listing}
    {rest : List TaiwanFeed.Listing} :
    TaiwanFeed.Unpriced (first :: rest) ↔ first.positivePrice? = none := by
  unfold TaiwanFeed.Listing.positivePrice?
  constructor
  · rintro (_ | missing | ⟨given, unread⟩ | ⟨given, isPrice, notPositive⟩)
    · simp [missing]
    · simp [given, unread]
    · simp [given, isPrice, notPositive]
  · intro none
    cases given : first.price with
    | none => exact .noPrice given
    | some written =>
        cases isPrice : Decimal.ofChars? (Text.trimChars written.toList) with
        | none => exact .notDecimal given isPrice
        | some price =>
            refine .notPositive given isPrice fun isPositive => ?_
            simp [given, isPrice, isPositive] at none

section Answers

variable
  {symbol refused : String}
  {assetClass : AssetClass}
  {now : Instant}
  {sent : Except String Web.Reply}

/-- The crypto market refuses a symbol by the status of a bad request. -/
theorem CryptoFeed.answer_eq_invalidSymbol_iff :
    CryptoFeed.answer symbol now sent =
        .error (.invalidSymbol assetClass refused) ↔
      (assetClass = .crypto ∧ refused = symbol) ∧
        ∃ reply, sent = .ok reply ∧ reply.status = 400 := by
  unfold CryptoFeed.answer
  rw [bind_eq_error_iff, Web.read_eq_invalidSymbol_iff]
  constructor
  · rintro (⟨reply, isReply, isRefusal⟩ | ⟨written, -, isInvalid⟩)
    · unfold CryptoFeed.refusal? at isRefusal
      split at isRefusal
      case isTrue isBadRequest =>
        cases isRefusal
        exact ⟨⟨rfl, rfl⟩, reply, isReply, isBadRequest⟩
      case isFalse => cases isRefusal
    · split at isInvalid <;> cases isInvalid
  · rintro ⟨⟨rfl, rfl⟩, reply, isReply, isBadRequest⟩
    exact .inl ⟨reply, isReply, if_pos isBadRequest⟩

/-- The American market refuses a symbol by an empty list. -/
theorem AmericanFeed.answer_eq_invalidSymbol_iff :
    AmericanFeed.answer symbol now sent =
        .error (.invalidSymbol assetClass refused) ↔
      (assetClass = .stock ∧ refused = symbol) ∧
        ∃ reply,
          sent = .ok reply ∧
            Web.Status.IsSuccess reply.status ∧
            reply.decode? (Json.list? AmericanFeed.Listing.ofJson?) =
              some [] := by
  unfold AmericanFeed.answer
  rw [bind_eq_error_iff, Web.read_eq_invalidSymbol_iff]
  constructor
  · rintro (⟨_, _, isRefusal⟩ | ⟨listings, isRead, isInvalid⟩)
    · cases isRefusal
    · obtain ⟨reply, isReply, -, success, decoded⟩ :=
        Web.read_eq_ok_iff.mp isRead
      cases listings with
      | nil =>
          cases isInvalid
          exact ⟨⟨rfl, rfl⟩, reply, isReply, success, decoded⟩
      | cons listing rest => cases isInvalid
  · rintro ⟨⟨rfl, rfl⟩, reply, isReply, success, decoded⟩
    exact .inr ⟨[],
      Web.read_eq_ok_iff.mpr ⟨reply, isReply, rfl, success, decoded⟩, rfl⟩

/-- The Taiwan market refuses a symbol by lines without a price. -/
theorem TaiwanFeed.answer_eq_invalidSymbol_iff :
    TaiwanFeed.answer symbol now sent =
        .error (.invalidSymbol assetClass refused) ↔
      (assetClass = .stock ∧ refused = symbol) ∧
        ∃ reply listings,
          sent = .ok reply ∧
            Web.Status.IsSuccess reply.status ∧
            reply.decode? TaiwanFeed.listings? = some listings ∧
            TaiwanFeed.Unpriced listings := by
  unfold TaiwanFeed.answer
  rw [bind_eq_error_iff, Web.read_eq_invalidSymbol_iff]
  constructor
  · rintro (⟨_, _, isRefusal⟩ | ⟨listings, isRead, isInvalid⟩)
    · cases isRefusal
    · obtain ⟨reply, isReply, -, success, decoded⟩ :=
        Web.read_eq_ok_iff.mp isRead
      cases listings with
      | nil =>
          cases isInvalid
          exact ⟨⟨rfl, rfl⟩, reply, [], isReply, success, decoded, .noListing⟩
      | cons listing rest =>
          cases priced : listing.positivePrice? with
          | none =>
              simp only [List.head?_cons, Option.bind_some, priced,
                Option.map_none] at isInvalid
              cases isInvalid
              exact ⟨⟨rfl, rfl⟩, reply, _, isReply, success, decoded,
                TaiwanFeed.unpriced_cons_iff.mpr priced⟩
          | some price =>
              simp only [List.head?_cons, Option.bind_some, priced,
                Option.map_some] at isInvalid
              cases isInvalid
  · rintro ⟨⟨rfl, rfl⟩, reply, listings, isReply, success, decoded, unpriced⟩
    refine .inr ⟨listings,
      Web.read_eq_ok_iff.mpr ⟨reply, isReply, rfl, success, decoded⟩, ?_⟩
    cases listings with
    | nil => rfl
    | cons listing rest =>
        simp [TaiwanFeed.unpriced_cons_iff.mp unpriced]

end Answers

/-! ## The markets together -/

namespace Exchange

/-- What the reply of the market of an asset means. -/
def answerTo
    (assetClass : AssetClass)
    (symbol : String)
    (now : Instant)
    (sent : Except String Web.Reply) :
    PriceAnswer :=
  match assetClass with
  | .crypto => CryptoFeed.answer (normalCode symbol) now sent
  | .stock =>
      if isTaiwanListed symbol then
        TaiwanFeed.answer (normalCode symbol) now sent
      else
        AmericanFeed.answer (normalCode symbol) now sent

/-- How the market of an asset refuses its symbol. -/
inductive Refuses :
    AssetClass → String → Web.Reply → Prop where
  | crypto
      {symbol : String}
      {reply : Web.Reply}
      (isBadRequest : reply.status = 400) :
      Refuses .crypto symbol reply
  | america
      {symbol : String}
      {reply : Web.Reply}
      (isAmerican : isTaiwanListed symbol = false)
      (success : Web.Status.IsSuccess reply.status)
      (decoded :
        reply.decode? (Json.list? AmericanFeed.Listing.ofJson?) = some []) :
      Refuses .stock symbol reply
  | taiwan
      {symbol : String}
      {reply : Web.Reply}
      {listings : List TaiwanFeed.Listing}
      (isTaiwanese : isTaiwanListed symbol = true)
      (success : Web.Status.IsSuccess reply.status)
      (decoded : reply.decode? TaiwanFeed.listings? = some listings)
      (unpriced : TaiwanFeed.Unpriced listings) :
      Refuses .stock symbol reply

/-- A symbol is found invalid if its market refuses it. -/
theorem answerTo_eq_invalidSymbol_iff
    {assetClass refusedClass : AssetClass}
    {symbol refused : String}
    {now : Instant}
    {sent : Except String Web.Reply} :
    answerTo assetClass symbol now sent =
        .error (.invalidSymbol refusedClass refused) ↔
      (refusedClass = assetClass ∧ refused = normalCode symbol) ∧
        ∃ reply, sent = .ok reply ∧ Refuses assetClass symbol reply := by
  cases assetClass with
  | crypto =>
      rw [answerTo, CryptoFeed.answer_eq_invalidSymbol_iff]
      refine and_congr_right fun _ => exists_congr fun reply =>
        and_congr_right fun _ => ⟨.crypto, ?_⟩
      rintro ⟨isBadRequest⟩
      exact isBadRequest
  | stock =>
      rw [answerTo]
      by_cases isTaiwanese : isTaiwanListed symbol = true
      · rw [if_pos isTaiwanese, TaiwanFeed.answer_eq_invalidSymbol_iff]
        refine and_congr_right fun _ => exists_congr fun reply => ⟨?_, ?_⟩
        · rintro ⟨listings, isReply, success, decoded, unpriced⟩
          exact ⟨isReply, .taiwan isTaiwanese success decoded unpriced⟩
        · rintro ⟨isReply, _ | ⟨isAmerican, -, -⟩ |
            ⟨-, success, decoded, unpriced⟩⟩
          · rw [isTaiwanese] at isAmerican
            cases isAmerican
          · exact ⟨_, isReply, success, decoded, unpriced⟩
      · rw [if_neg isTaiwanese, AmericanFeed.answer_eq_invalidSymbol_iff]
        refine and_congr_right fun _ => exists_congr fun reply =>
          and_congr_right fun _ => ⟨?_, ?_⟩
        · rintro ⟨success, decoded⟩
          exact .america (eq_false_of_ne_true isTaiwanese) success decoded
        · rintro (_ | ⟨-, success, decoded⟩ | ⟨isTaiwanListed, -, -, -⟩)
          · exact ⟨success, decoded⟩
          · exact absurd isTaiwanListed isTaiwanese

/-! ## The request for a price -/

section Monad

variable {m : Type → Type} [Monad m]

/-- The request for the price of an asset; there is none without a key for the
market that wants one. -/
def request?
    (exchange : Exchange)
    (web : Web.Connection m)
    (assetClass : AssetClass)
    (symbol : String) :
    m (Option Web.Request) :=
  match assetClass with
  | .crypto => return some (exchange.crypto.request (normalCode symbol))
  | .stock =>
      if isTaiwanListed symbol then
        web.clock.now >>= fun now =>
          return some (exchange.taiwan.request (normalCode symbol) now)
      else
        return exchange.america.key.map
          (exchange.america.request · (normalCode symbol))

/-- The answer without a request. -/
def withoutKey :
    PriceAnswer :=
  .error (.unavailable AmericanFeed.provider "no API key configured")

/-- The markets differ in the request that they are sent and in what they mean
by their reply. -/
theorem price_source
    [LawfulMonad m]
    (exchange : Exchange)
    (web : Web.Connection m)
    (assetClass : AssetClass)
    {symbol : String}
    (notEmpty : normalCode symbol ≠ "") :
    (exchange.source web).price assetClass symbol =
      exchange.request? web assetClass symbol >>= fun
        | none => return withoutKey
        | some request =>
            web.send request >>= fun sent =>
              web.clock.now >>= fun now =>
                return answerTo assetClass symbol now sent := by
  have isCode : ¬ (normalCode symbol).isEmpty = true := by
    rwa [String.isEmpty_iff]
  cases assetClass with
  | crypto =>
      simp only [source, request?, answerTo, CryptoFeed.quote, if_neg isCode,
        pure_bind]
  | stock =>
      by_cases isTaiwanese : isTaiwanListed symbol = true
      · simp only [source, request?, answerTo, if_pos isTaiwanese,
          TaiwanFeed.quote, if_neg isCode, bind_assoc, pure_bind]
      · simp only [source, request?, answerTo, if_neg isTaiwanese,
          AmericanFeed.quote, if_neg isCode, pure_bind]
        cases exchange.america.key <;> rfl

end Monad

/-- A market cannot be asked for want of a key. -/
structure IsKeyless
    (exchange : Exchange)
    (assetClass : AssetClass)
    (symbol : String) :
    Prop where
  isStock : assetClass = .stock
  isAmerican : isTaiwanListed symbol = false
  noKey : exchange.america.key = none

/-- A request for the price of an asset, to the market that it is traded on. -/
inductive Requests
    (exchange : Exchange) :
    AssetClass → String → Web.Request → Prop where
  | crypto
      {symbol : String} :
      Requests exchange .crypto symbol
        (exchange.crypto.request (normalCode symbol))
  | america
      {symbol key : String}
      (isAmerican : isTaiwanListed symbol = false)
      (isKey : exchange.america.key = some key) :
      Requests exchange .stock symbol
        (exchange.america.request key (normalCode symbol))
  | taiwan
      {symbol : String}
      (isTaiwanese : isTaiwanListed symbol = true)
      (now : Instant) :
      Requests exchange .stock symbol
        (exchange.taiwan.request (normalCode symbol) now)

/-! ## A record of requests and calls -/

/-- What can be seen from outside while a price is looked up: a request with
what came of it, and a call of the second source. -/
inductive Note where
  | sent (request : Web.Request) (outcome : Except String Web.Reply)
  | asked (lookup : Lookup)

section Noted

variable {World : Type}

/-- A web whose requests are noted. -/
def notedWeb
    (web : Web.Connection (StateM World)) :
    Web.Connection (StateM (World × List Note)) where
  send request := do
    let (world, notes) ← get
    let (outcome, next) := (web.send request).run world
    set (next, notes ++ [.sent request outcome])
    return outcome
  clock :=
    { now := do
        let (world, notes) ← get
        let (now, next) := web.clock.now.run world
        set (next, notes)
        return now }

/--
How the answer of the markets comes about.  The market of the asset is sent one
request, or none at all for want of a key.  The symbol is found invalid if, and
only if, that market has refused it; there is no other failure than an
unavailable provider.
-/
structure Classified
    (exchange : Exchange)
    (assetClass : AssetClass)
    (symbol : String)
    (notes : List Note)
    (answer : PriceAnswer) :
    Prop where
  withoutRequest :
    exchange.IsKeyless assetClass symbol →
      notes = [] ∧ answer = withoutKey
  requestedOnce :
    ¬ exchange.IsKeyless assetClass symbol →
      ∃ request outcome,
        notes = [.sent request outcome] ∧
          exchange.Requests assetClass symbol request
  refused_iff :
    answer = .error (.invalidSymbol assetClass (normalCode symbol)) ↔
      ∃ request reply,
        notes = [.sent request (.ok reply)] ∧
          Refuses assetClass symbol reply
  otherwiseUnavailable :
    ∀ error,
      answer = .error error →
        error = .invalidSymbol assetClass (normalCode symbol) ∨
          ∃ provider message, error = .unavailable provider message

namespace Classified

variable
  {exchange : Exchange}
  {assetClass : AssetClass}
  {symbol : String}

/-- Without a key there is no request and no price. -/
theorem of_keyless
    (keyless : exchange.IsKeyless assetClass symbol) :
    Classified exchange assetClass symbol [] withoutKey where
  withoutRequest _ := ⟨rfl, rfl⟩
  requestedOnce hasKey := absurd keyless hasKey
  refused_iff := by
    constructor
    · intro isInvalid
      cases isInvalid
    · rintro ⟨request, reply, isSent, -⟩
      cases isSent
  otherwiseUnavailable error isError := by
    cases isError
    exact .inr ⟨_, _, rfl⟩

/-- With a request the reply decides. -/
theorem of_request
    {request : Web.Request}
    (hasKey : ¬ exchange.IsKeyless assetClass symbol)
    (isRequest : exchange.Requests assetClass symbol request)
    (now : Instant)
    (outcome : Except String Web.Reply) :
    Classified exchange assetClass symbol [.sent request outcome]
      (answerTo assetClass symbol now outcome) where
  withoutRequest keyless := absurd keyless hasKey
  requestedOnce _ := ⟨request, outcome, rfl, isRequest⟩
  refused_iff := by
    rw [answerTo_eq_invalidSymbol_iff]
    constructor
    · rintro ⟨-, reply, rfl, refuses⟩
      exact ⟨request, reply, rfl, refuses⟩
    · rintro ⟨_, reply, isSent, refuses⟩
      cases isSent
      exact ⟨⟨rfl, rfl⟩, reply, rfl, refuses⟩
  otherwiseUnavailable error isError := by
    cases error with
    | invalidSymbol refusedClass refused =>
        obtain ⟨⟨rfl, rfl⟩, -⟩ := answerTo_eq_invalidSymbol_iff.mp isError
        exact .inl rfl
    | unavailable provider message => exact .inr ⟨provider, message, rfl⟩

end Classified

variable
  (exchange : Exchange)
  (web : Web.Connection (StateM World))
  (second : PriceSource (StateM World))
  (assetClass : AssetClass)
  (symbol : String)

/-- The request is made up without a note, and there is none only for want of a
key. -/
theorem request?_run
    (world : World)
    (notes : List Note) :
    ∃ made next,
      (exchange.request? web assetClass symbol).run world = (made, next) ∧
      (exchange.request? (notedWeb web) assetClass symbol).run (world, notes) =
        (made, next, notes) ∧
      match made with
      | none => exchange.IsKeyless assetClass symbol
      | some request =>
          ¬ exchange.IsKeyless assetClass symbol ∧
            exchange.Requests assetClass symbol request := by
  cases assetClass with
  | crypto =>
      refine ⟨_, _, rfl, rfl, ?_, .crypto⟩
      rintro ⟨isStock, -, -⟩
      cases isStock
  | stock =>
      unfold request?
      by_cases isTaiwanese : isTaiwanListed symbol = true
      · rw [if_pos isTaiwanese, if_pos isTaiwanese]
        refine ⟨_, _, rfl, rfl, ?_, .taiwan isTaiwanese _⟩
        rintro ⟨-, isAmerican, -⟩
        rw [isTaiwanese] at isAmerican
        cases isAmerican
      · have isAmerican := eq_false_of_ne_true isTaiwanese
        rw [if_neg isTaiwanese, if_neg isTaiwanese]
        refine ⟨_, _, rfl, rfl, ?_⟩
        cases isKey : exchange.america.key with
        | none => exact ⟨rfl, isAmerican, isKey⟩
        | some key =>
            refine ⟨?_, .america isAmerican isKey⟩
            rintro ⟨-, -, noKey⟩
            rw [isKey] at noKey
            cases noKey

/-- The markets are asked for a price, with and without notes. -/
theorem price_run
    {symbol : String}
    (notEmpty : normalCode symbol ≠ "")
    (world : World) :
    ∃ answer after notes,
      ((exchange.source web).price assetClass symbol).run world =
        (answer, after) ∧
      ((exchange.source (notedWeb web)).price assetClass symbol).run
          (world, []) =
        (answer, after, notes) ∧
      Classified exchange assetClass symbol notes answer := by
  rw [price_source exchange web assetClass notEmpty,
    price_source exchange (notedWeb web) assetClass notEmpty, StateT.run_bind,
    StateT.run_bind]
  obtain ⟨made, next, ran, notedRan, isMade⟩ :=
    request?_run exchange web assetClass symbol world []
  rw [ran, notedRan]
  cases made with
  | none => exact ⟨_, _, _, rfl, rfl, .of_keyless isMade⟩
  | some request =>
      exact ⟨_, _, _, rfl, rfl, .of_request isMade.1 isMade.2 _ _⟩

/--
Whatever comes of the request, the symbol is found invalid if, and only if, the
market that it is traded on has refused it.  Then, and after a quote, the second
source is never asked; after any other failure it is asked exactly once.  The
notes change nothing.
-/
theorem second_asked_for_outages
    {symbol : String}
    (notEmpty : normalCode symbol ≠ "")
    (world : World) :
    let chain :=
      (exchange.source web).fallback (some second)
    let notedChain :=
      (exchange.source (notedWeb web)).fallback (some (second.noted .asked))
    ∃ answer after notes,
      ((exchange.source web).price assetClass symbol).run world =
          (answer, after) ∧
        ((exchange.source (notedWeb web)).price assetClass symbol).run
            (world, []) =
          (answer, after, notes) ∧
        Classified exchange assetClass symbol notes answer ∧
        if answer.isUnavailable then
          ∃ secondAnswer afterSecond,
            (second.price assetClass symbol).run after =
                (secondAnswer, afterSecond) ∧
              (chain.price assetClass symbol).run world =
                (secondAnswer, afterSecond) ∧
              (notedChain.price assetClass symbol).run (world, []) =
                (secondAnswer, afterSecond,
                  notes ++ [.asked ⟨assetClass, symbol, secondAnswer⟩])
        else
          (chain.price assetClass symbol).run world = (answer, after) ∧
            (notedChain.price assetClass symbol).run (world, []) =
              (answer, after, notes) := by
  obtain ⟨answer, after, notes, ran, notedRan, classified⟩ :=
    price_run exchange web assetClass notEmpty world
  refine ⟨answer, after, notes, ran, notedRan, classified, ?_⟩
  by_cases isUnavailable : answer.isUnavailable = true
  · rw [if_pos isUnavailable,
      SourceTree.fallback_run_of_unavailable ran isUnavailable,
      SourceTree.fallback_run_of_unavailable notedRan isUnavailable]
    exact ⟨_, _, rfl, rfl, rfl⟩
  · rw [if_neg isUnavailable]
    exact ⟨SourceTree.fallback_run_of_final ran isUnavailable,
      SourceTree.fallback_run_of_final notedRan isUnavailable⟩

end Noted

/-! ## A refusal and an outage -/

/-- A web that answers every request alike. -/
def sampleWeb
    (reply : Web.Reply) :
    Web.Connection (StateM Unit) where
  send _ :=
    return .ok reply
  clock :=
    ⟨return .epoch⟩

/-- A source that has a price for everything. -/
def sampleSecond :
    PriceSource (StateM Unit) where
  name :=
    "sample"
  price assetClass symbol :=
    return .ok ⟨assetClass, symbol, symbol, .one, "USD", .epoch, "sample"⟩

/-- The second source has no say when the request is bad, and has when the
server is down. -/
theorem second_asked_for_outages_sample :
    normalCode " nope " ≠ "" ∧
      let chain (status : Nat) :=
        ((standard none).source (notedWeb (sampleWeb ⟨status, .empty⟩))).fallback
          (some (sampleSecond.noted .asked))
      ((chain 400).price .crypto " nope ").run ((), []) =
          (.error (.invalidSymbol .crypto "NOPE"), (),
            [.sent (CryptoFeed.standard.request "NOPE")
              (.ok ⟨400, .empty⟩)]) ∧
        (((chain 503).price .crypto " nope ").run ((), [])).2.2.length = 2 := by
  have notEmpty : normalCode " nope " ≠ "" := by
    decide
  refine ⟨notEmpty, ?_, ?_⟩
  · obtain ⟨answer, after, notes, -, notedRan, -, chained⟩ :=
      second_asked_for_outages (standard none) (sampleWeb ⟨400, .empty⟩)
        sampleSecond .crypto notEmpty ()
    cases notedRan
    exact chained.2
  · obtain ⟨answer, after, notes, -, notedRan, -, chained⟩ :=
      second_asked_for_outages (standard none) (sampleWeb ⟨503, .empty⟩)
        sampleSecond .crypto notEmpty ()
    cases notedRan
    obtain ⟨_, _, -, -, noted⟩ := chained
    rw [noted]
    rfl

end Exchange

end Market

end NetWorth
