import NetWorth.LanguageModel.Prompt
import NetWorth.LanguageModel.Reply
import NetWorth.Web.Basic
import NetWorth.Web.Encoding
/-!
# A language model as a source

The last resort for a price: a model with access to a search engine is asked in words.
-/

namespace NetWorth

/-- A model at an address, with the key for it. -/
structure LanguageModel where
  address : String
  key : String
  model : String

namespace LanguageModel

/-- The address of the public service. -/
def standardAddress : String := "https://generativelanguage.googleapis.com"

/-- The model that is asked where none is set. -/
def standardModel : String := "gemini-3-flash"

/-- The body of a request: one turn of a conversation, and leave to search. -/
def body (prompt : String) : Json :=
  .obj [("contents", .arr [.obj [("parts", .arr [.obj [("text", .str prompt)]]),
      ("role", .str "user")]]),
    ("tools", .arr [.obj [("google_search", .obj [])]])]

/-- The request that asks a prompt. -/
def request (source : LanguageModel) (prompt : String) : Web.Request where
  method := .post
  address := Web.Encoding.dropSlashes source.address ++ "/v1beta/models/" ++ source.model ++
    ":generateContent"
  headers := [("x-goog-api-key", source.key), ("content-type", "application/json")]
  body := some (body prompt)

/-- What the reply to a question means. -/
def answer (assetClass : AssetClass) (symbol : String) (expected : Option String) (now : Instant)
    (sent : Except String Web.Reply) : PriceAnswer := do
  let text ← Web.read provider "response" (fun _ => none) text? sent
  if Text.isBlankText text then .error (.unavailable provider "empty model reply")
  else answerText assetClass symbol expected now text

/-- The prompt for an asset, and the currency of its market. -/
def question (now : Instant) (assetClass : AssetClass) (symbol : String) : String × Option String :=
  match assetClass with
  | .stock =>
    let market := StockMarket.ofSymbol symbol
    (stockPrompt now market symbol, some market.currency)
  | .crypto => (cryptoPrompt now symbol, none)

/-- Asks for the price of a symbol in any spelling. -/
def quote {m : Type → Type} [Monad m] (source : LanguageModel) (web : Web.Connection m)
    (assetClass : AssetClass) (symbol : String) : m PriceAnswer := do
  let symbol := normalCode symbol
  if symbol.isEmpty then return .error (.invalidSymbol assetClass symbol)
  else
    let now ← web.clock.now
    let (prompt, expected) := question now assetClass symbol
    return answer assetClass symbol expected now (← web.send (source.request prompt))

/-- The model as a source. -/
def source {m : Type → Type} [Monad m] (source : LanguageModel) (web : Web.Connection m) :
    PriceSource m where
  name := provider
  price := source.quote web

end LanguageModel

end NetWorth
