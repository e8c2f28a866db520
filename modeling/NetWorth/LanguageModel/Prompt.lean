import NetWorth.Asset
import NetWorth.Time.Instant
/-!
# Prompts

What a language model is asked when it is to find a price.  The prompt names the time, the form of
the reply and the rules that the reply has to keep; for a stock it names the market as well.
-/

namespace NetWorth.LanguageModel

/-- The stock markets that a prompt tells apart. -/
inductive StockMarket where
  | america
  | taiwan
deriving DecidableEq

namespace StockMarket

/-- The market that a symbol is listed on. -/
def ofSymbol (symbol : String) : StockMarket :=
  if isTaiwanListed symbol then taiwan else america

/-- The code of a market. -/
def code : StockMarket → String
  | america => "US"
  | taiwan => "TW"

/-- The currency that a market quotes in. -/
def currency : StockMarket → String
  | america => "USD"
  | taiwan => "TWD"

end StockMarket

/-- The form of the reply. -/
def replyForm : String :=
  "\x7b\n" ++
    "  \"price\": <current price, number>,\n" ++
    "  \"symbol\": \"<standardized symbol, uppercase>\",\n" ++
    "  \"name\": \"<official full name>\",\n" ++
    "  \"currency\": \"<currency of the price, e.g. USD>\"\n" ++
    "\x7d"

/-- An instant with its distance from universal time, which is none. -/
def withDistance (t : Instant) : String :=
  String.ofList t.toChars.dropLast ++ "+00:00"

/-- A prompt: what is asked for, the rules in order, and the question. -/
def prompt (now : Instant) (asset : String) (rules : List String) (question : String) : String :=
  "Today is " ++ withDistance now ++ ". Look up the current real-time price of the " ++ asset ++
    " below and reply with ONLY this JSON object and no other text:\n\n" ++ replyForm ++
    "\n\nRequirements:\n" ++
    "\n".intercalate (rules.mapIdx fun i rule => toString (i + 1) ++ ". " ++ rule) ++
    "\n\n" ++ question

/-- The prompt for a stock. -/
def stockPrompt (now : Instant) (market : StockMarket) (symbol : String) : String :=
  prompt now "stock"
    ["price is a number with up to four decimal places and no trailing zeros; " ++
        "use more precision for assets priced below 0.01.",
      "symbol is the listed ticker in uppercase.",
      "name is the official company name.",
      "currency is the currency the price is quoted in on that market.",
      "If the code is not listed on the given market or no price can be found, " ++
        "reply with exactly \x7b\"error\": \"Invalid stock or asset code for the specified " ++
        "market, or data unavailable\"\x7d."]
    ("Market: " ++ market.code ++ ", Input code: " ++ symbol)

/-- The prompt for a crypto asset. -/
def cryptoPrompt (now : Instant) (symbol : String) : String :=
  prompt now "crypto asset"
    ["price is a number with up to four decimal places and no trailing zeros; " ++
        "use up to eight decimal places for low-priced tokens.",
      "symbol is the input symbol in uppercase.",
      "name is the official name of the asset (e.g. BTC is Bitcoin).",
      "currency is the quote currency of the price (e.g. USDT).",
      "If the symbol is unknown or no price can be found, reply with exactly " ++
        "\x7b\"error\": \"Invalid crypto or asset code, or data unavailable\"\x7d."]
    ("Input symbol: " ++ symbol)

end NetWorth.LanguageModel
