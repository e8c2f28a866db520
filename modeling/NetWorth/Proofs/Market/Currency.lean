import Mathlib
import NetWorth.Proofs.Market.Quotes
import NetWorth.Proofs.Text.NormalCode

/-!
# The market and its currency

A stock is listed in Taiwan if its symbol begins with a digit.  It makes no
difference whether the symbol is looked at as it was given or in its normal form:
no digit has another upper case, and nothing else becomes one.  So the markets
and the model agree on the currency of a stock, and on the way of a symbol
through them.
-/

namespace NetWorth

namespace Text

open Uppercase

/-- The numbers of the digits. -/
private def digits :
    List Nat :=
  List.range' 0x30 10

private theorem images_apart_digits :
    mask images &&& mask digits = 0 := by
  decide +kernel

private theorem digits_apart_sources :
    mask digits &&& mask sources = 0 := by
  decide +kernel

private theorem isDigit_iff
    {c : Char} :
    c.isDigit = true ↔ c.toNat ∈ digits := by
  simp only [Char.isDigit, digits, List.mem_range'_1, Bool.and_eq_true,
    decide_eq_true_eq, ge_iff_le, UInt32.le_iff_toNat_le, Char.toNat]
  have zero : '0'.val.toNat = 0x30 := rfl
  have nine : '9'.val.toNat = 0x39 := rfl
  omega

/-- The upper case of a character begins with a digit if the character is one. -/
private theorem isDigit_head_upperChar
    (c : Char) :
    (upperChar c).head?.any Char.isDigit = c.isDigit := by
  rcases codes_cases c.toNat with alone | ⟨isSource, -, -⟩
  · rw [upperChar, alone, List.map_singleton, Char.ofNat_toNat]
    rfl
  · -- A character that has a capital is no digit, and neither is the capital.
    have notDigit : c.isDigit = false := by
      rw [Bool.eq_false_iff, Ne, isDigit_iff]
      exact fun isDigit => not_mem_of_mask digits_apart_sources isDigit isSource
    rw [notDigit, Bool.eq_false_iff, Ne, Option.any_eq_true]
    rintro ⟨capital, isHead, isDigit⟩
    have isCapital := List.mem_of_head? isHead
    rcases upperChar_cases c with alone | ⟨-, mapped⟩
    · rw [alone, List.mem_singleton] at isCapital
      rw [isCapital, notDigit] at isDigit
      cases isDigit
    · exact not_mem_of_mask images_apart_digits (mapped capital isCapital)
        (isDigit_iff.mp isDigit)

/-- White space is removed at the end without changing the front. -/
private theorem head_trimChars
    (cs : List Char) :
    (trimChars cs).head? = (dropBlanks cs).head? := by
  cases front : dropBlanks cs with
  | nil => rw [trimChars, front]; rfl
  | cons c rest =>
      have notBlank := List.head?_dropWhile_not isBlank cs
      rw [show cs.dropWhile isBlank = c :: rest from front] at notBlank
      have kept : List.rdropWhile isBlank (c :: rest) ≠ [] := fun dropped =>
        by simp_all [List.rdropWhile_eq_nil_iff]
      obtain ⟨after, sameText⟩ :
          List.rdropWhile isBlank (c :: rest) <+: c :: rest :=
        List.rdropWhile_prefix isBlank _
      rw [trimChars, front]
      change (List.rdropWhile isBlank (c :: rest)).head? = _
      rw [← List.head?_append_of_ne_nil _ kept, sameText]

/-- A text begins with the same digit before and after white space is removed
and it is put in upper case. -/
private theorem isDigit_head_upperChars
    (cs : List Char) :
    (upperChars (trimChars cs)).head?.any Char.isDigit =
      (dropBlanks cs).head?.any Char.isDigit := by
  rw [← head_trimChars]
  cases trimChars cs with
  | nil => rfl
  | cons c rest =>
      have sameHead : (upperChars (c :: rest)).head? = (upperChar c).head? := by
        rw [upperChars, List.flatMap_cons,
          List.head?_append_of_ne_nil _ (upperChar_ne_nil c)]
      rw [sameHead, isDigit_head_upperChar]
      rfl

end Text

/-- The symbol of a stock begins with a digit. -/
theorem isTaiwanListed_eq
    (symbol : String) :
    isTaiwanListed symbol =
      (normalCode symbol).toList.head?.any Char.isDigit := by
  rw [normalCode, String.toList_ofList, Text.isDigit_head_upperChars,
    isTaiwanListed]
  cases Text.dropBlanks symbol.toList <;> rfl

/-- A symbol is listed where its normal form is. -/
@[simp] theorem isTaiwanListed_normalCode
    (symbol : String) :
    isTaiwanListed (normalCode symbol) = isTaiwanListed symbol := by
  rw [isTaiwanListed_eq, isTaiwanListed_eq, normalCode_normalCode]

/-! ## The currency of a quote -/

open LanguageModel (StockMarket)

section Answers

variable
  {symbol : String}
  {now : Instant}
  {sent : Except String Web.Reply}
  {quote : Quote}

/-- The markets quote a stock in the currency of its market. -/
private theorem Market.Exchange.currency_of_answerTo
    (quoted : Market.Exchange.answerTo .stock symbol now sent = .ok quote) :
    quote.currency = (StockMarket.ofSymbol symbol).currency := by
  unfold Market.Exchange.answerTo at quoted
  by_cases isTaiwanese : isTaiwanListed symbol = true
  · simp only [if_pos isTaiwanese] at quoted
    obtain ⟨_, _, _, _, -, -, -, -, rfl⟩ :=
      Market.TaiwanFeed.answer_eq_ok_iff.mp quoted
    rw [StockMarket.ofSymbol, if_pos isTaiwanese]
    rfl
  · simp only [if_neg isTaiwanese] at quoted
    obtain ⟨_, _, _, -, -, -, rfl⟩ := Market.AmericanFeed.answer_eq_ok_iff.mp quoted
    rw [StockMarket.ofSymbol, if_neg isTaiwanese]
    rfl

/-- The model quotes a stock in the currency that it is held to. -/
private theorem LanguageModel.currency_of_answer
    (quoted :
      LanguageModel.answer .stock symbol
        (LanguageModel.question now .stock symbol).2 now sent = .ok quote) :
    quote.currency = (StockMarket.ofSymbol symbol).currency := by
  obtain ⟨_, _, -, -, -, -, quoted⟩ := LanguageModel.answer_eq_ok_iff.mp quoted
  obtain ⟨_, ticker, -, -, -, matching, -, rfl⟩ :=
    LanguageModel.answerText_eq_ok_iff.mp quoted
  exact matching _ rfl

end Answers

/-! ## The way of a symbol -/

section Monad

variable
  {m : Type → Type}
  [Monad m]
  (web : Web.Connection m)
  (assetClass : AssetClass)
  (symbol : String)

/-- The markets are asked alike for a symbol and for its normal form. -/
private theorem Market.Exchange.price_normalCode
    (exchange : Market.Exchange) :
    (exchange.source web).price assetClass (normalCode symbol) =
      (exchange.source web).price assetClass symbol := by
  cases assetClass with
  | crypto => simp only [source, CryptoFeed.quote, normalCode_normalCode]
  | stock =>
      simp only [source, TaiwanFeed.quote, AmericanFeed.quote,
        normalCode_normalCode, isTaiwanListed_normalCode]

/-- The model is asked alike for a symbol and for its normal form. -/
private theorem LanguageModel.price_normalCode
    (model : LanguageModel) :
    (model.source web).price assetClass (normalCode symbol) =
      (model.source web).price assetClass symbol := by
  simp only [source, LanguageModel.quote, normalCode_normalCode]

end Monad

/-- Whoever quotes a stock, the markets or the model in their place, quotes it in
the currency of Taiwan if the normal form of its symbol begins with a digit, and
in dollars if not.  A symbol in any spelling goes the way of its normal form. -/
theorem currency_of_stock
    {World : Type}
    (exchange : Market.Exchange)
    (model : LanguageModel)
    (web : Web.Connection (StateM World))
    (symbol : String) :
    let markets := exchange.source web
    let chain := markets.fallback (some (model.source web))
    (∀ world quote,
        ((chain.price .stock symbol).run world).1 = .ok quote →
          quote.currency =
            if (normalCode symbol).toList.head?.any Char.isDigit then "TWD"
            else "USD") ∧
      isTaiwanListed (normalCode symbol) = isTaiwanListed symbol ∧
        markets.price .stock (normalCode symbol) = markets.price .stock symbol ∧
          chain.price .stock (normalCode symbol) = chain.price .stock symbol := by
  intro markets chain
  have currency_eq :
      (StockMarket.ofSymbol symbol).currency =
        if (normalCode symbol).toList.head?.any Char.isDigit then "TWD"
        else "USD" := by
    rw [StockMarket.ofSymbol, ← isTaiwanListed_eq]
    split <;> rfl
  have marketsAlike : markets.price .stock (normalCode symbol) = _ :=
    Market.Exchange.price_normalCode web .stock symbol exchange
  refine ⟨fun world quote quoted => ?_, isTaiwanListed_normalCode symbol,
    marketsAlike, ?_⟩
  · rw [← currency_eq]
    rcases PriceSource.mayQuote_fallback ⟨world, quoted⟩ with quotes | quotes
    · obtain ⟨_, _, _, -, quoted⟩ :=
        Market.Exchange.exists_reply_of_mayQuote quotes
      exact Market.Exchange.currency_of_answerTo quoted
    · obtain ⟨_, _, _, quoted⟩ := LanguageModel.exists_reply_of_mayQuote quotes
      rw [LanguageModel.currency_of_answer quoted, StockMarket.ofSymbol,
        isTaiwanListed_normalCode]
      rfl
  · rw [SourceTree.price_fallback_some, SourceTree.price_fallback_some,
      marketsAlike, LanguageModel.price_normalCode]

/-- A web in which the markets are down and the model replies. -/
def marketsDown
    (text : String) :
    Web.Connection (StateM Unit) where
  send request :=
    return .ok (match request.method with
      | .get => ⟨503, .empty⟩
      | .post => ⟨200, text.toUTF8⟩)
  clock :=
    ⟨return .epoch⟩

/-- The reply of a model that gives a currency in small letters. -/
def replyInProse :
    String :=
  "\x7b\"candidates\":[\x7b\"content\":\x7b\"parts\":[\x7b\"text\":\"" ++
    "\x7b\\\"price\\\":612.5,\\\"currency\\\":\\\" twd\\\"\x7d" ++
    "\"\x7d]\x7d\x7d]\x7d"

/-- The quote that the model gives. -/
def quoteInProse :
    Quote where
  assetClass := .stock
  symbol := "00631L"
  name := "00631L"
  price := (Decimal.ofText? "612.5").getD .zero
  currency := "TWD"
  observedAt := .epoch
  source := "gemini"

/-- A symbol in small letters behind white space, quoted by the model. -/
theorem currency_of_stock_inProse :
    let web := marketsDown replyInProse
    let markets := (Market.Exchange.standard (some "key")).source web
    let chain := markets.fallback (some ((⟨"", "", ""⟩ : LanguageModel).source web))
    ((chain.price .stock "\u00A000631l").run ()).1 = .ok quoteInProse ∧
      quoteInProse.currency =
        if (normalCode "\u00A000631l").toList.head?.any Char.isDigit then "TWD"
        else "USD" := by
  intro web markets chain
  have quoted :
      ((chain.price .stock "\u00A000631l").run ()).1 = .ok quoteInProse := by
    decide +kernel
  exact ⟨quoted,
    (currency_of_stock (.standard (some "key")) ⟨"", "", ""⟩ web _).1 () _ quoted⟩

end NetWorth
