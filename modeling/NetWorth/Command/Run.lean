import NetWorth.Command.Invocation
import NetWorth.Holding.Aggregate
import NetWorth.Holding.Records
import NetWorth.Json.Printing
import NetWorth.Ledger.Records
import NetWorth.Rates.Records
import NetWorth.Settings.Loading
import NetWorth.Settings.Pricing
import NetWorth.Settings.Printing
/-!
# Running a task

A task is run in surroundings that give it files, the web, a clock and variables.  It ends with an
exit code and the texts for the two streams of output.
-/

namespace NetWorth

/-- What a task can reach. -/
structure Surroundings (m : Type → Type) where
  files : Files m
  /-- The store for quotes when no file is configured. -/
  memory : QuoteStore m
  web : Web.Connection m
  clock : Clock m
  environment : String → Option String

/-- How a run ends. -/
structure Outcome where
  code : Nat
  output : String
  errors : String
deriving DecidableEq

/-- Why a task fails. -/
inductive TaskError where
  | settings (error : SettingsError)
  | unreadable (path : String)
  | malformed (path : String)
  | otherBase (base currency : String)
  | ledger (error : LedgerError)
  | price (error : PriceError)

/-- The message of a failed task. -/
def TaskError.message : TaskError → String
  | settings error => error.message
  | unreadable path => "Failed to read " ++ path
  | malformed path => "Failed to parse " ++ path
  | otherBase base currency =>
    "Exchange rates are based on " ++ base ++ " but the display currency is " ++ currency
  | ledger error => error.message
  | price error => error.message

namespace Surroundings

variable {m : Type → Type} [Monad m]

/-- The settings at a path, with the variables put in. -/
def settings (s : Surroundings m) (path : String) : ExceptT TaskError m Settings := do
  match ← (Settings.loadOrStandard s.files path : m _) with
  | .ok settings => return settings.override s.environment
  | .error e => throw (.settings e)

/-- The chain of price sources; a quote file is looked for beside the settings. -/
def prices (s : Surroundings m) (path : String) (settings : Settings) : PriceSource m :=
  let store := match settings.resolvedCachePath ((Path.parent? path).getD "") with
    | some file => QuoteFile.store ⟨s.files, file⟩
    | none => s.memory
  (settings.prices s.web store s.clock).source

/-- Reads a JSON file. -/
def readJson (s : Surroundings m) (path : String) (decode : Json → Option α) :
    ExceptT TaskError m α := do
  match ← (s.files.read path : m _) with
  | .error _ => throw (.unreadable path)
  | .ok text =>
    match Json.decode? decode text with
    | some value => return value
    | none => throw (.malformed path)

/-- What a trade gets that names no identifiers: holdings do not show them. -/
def anonymous : Trade.Origin := ⟨"", "", "", .epoch⟩

/-- The rates in a file, or none besides the display currency itself. -/
def rates (s : Surroundings m) (path : Option String) (currency : String) :
    ExceptT TaskError m RateTable := do
  let table ← match path with
    | some path => s.readJson path RateTable.ofJson?
    | none => pure (.empty currency)
  if table.base ≠ currency then throw (.otherBase table.base currency)
  return table

/-- Values the holdings of a ledger. -/
def holdings (s : Surroundings m) (path : String) (settings : Settings) (trades : String)
    (currency rates : Option String) : ExceptT TaskError m Json := do
  let trades ← s.readJson trades (Json.list? (Trade.ofJson? anonymous))
  let currency := normalCode (currency.getD settings.displayCurrency)
  let table ← s.rates rates currency
  match ← (aggregate (s.prices path settings) trades currency table : m _) with
  | .ok holdings => return .arr (holdings.values.map Holding.toJson)
  | .error e => throw (.ledger e)

/-- Asks for one price. -/
def quote (s : Surroundings m) (path : String) (settings : Settings) (assetClass : AssetClass)
    (symbol : String) : ExceptT TaskError m Json := do
  match ← ((s.prices path settings).price assetClass symbol : m _) with
  | .ok quote => return quote.toJson
  | .error e => throw (.price e)

/-- The output of a task. -/
def output (s : Surroundings m) (invocation : Invocation) : ExceptT TaskError m String := do
  let path := invocation.settingsPath
  let settings ← s.settings path
  match invocation.task with
  | .settings => return "Config file: " ++ path ++ "\n" ++ settings.toText
  | .quote assetClass symbol => return (← s.quote path settings assetClass symbol).pretty ++ "\n"
  | .holdings trades currency rates =>
    return (← s.holdings path settings trades currency rates).pretty ++ "\n"

/-- A reminder of the arguments. -/
def usage : String :=
  "Usage: [--config PATH] <holdings|quote|config>\n" ++
    "  holdings --trades PATH [--currency CODE] [--rates PATH]\n" ++
    "  quote <stock|crypto> SYMBOL\n" ++
    "  config\n"

/-- Runs the program with its arguments. -/
def run (s : Surroundings m) (arguments : List String) : m Outcome := do
  match Invocation.ofArguments arguments with
  | .error .help => return ⟨0, usage, ""⟩
  | .error .wrong => return ⟨2, "", usage⟩
  | .ok invocation =>
    match ← (s.output invocation).run with
    | .ok output => return ⟨0, output, ""⟩
    | .error e => return ⟨1, "", "Error: " ++ e.message ++ "\n"⟩

end Surroundings

end NetWorth
