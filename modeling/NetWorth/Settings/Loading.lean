import NetWorth.Files.Basic
import NetWorth.Settings.Reading
/-!
# Loading settings

Settings are loaded from a file, which may be missing, and then overridden by variables of the
environment.  A variable whose value makes no sense is ignored.
-/

namespace NetWorth

/-- Why settings cannot be loaded. -/
inductive SettingsError where
  | unreadable (path : String)
  | malformed (path : String)
deriving DecidableEq

/-- The message of a failed loading. -/
def SettingsError.message : SettingsError → String
  | unreadable path => "Failed to read config file: " ++ path
  | malformed path => "Failed to parse config file: " ++ path

namespace Settings

variable {m : Type → Type} [Monad m]

/-- Loads settings from a file. -/
def load (files : Files m) (path : String) : m (Except SettingsError Settings) := do
  match ← files.read path with
  | .error _ => return .error (.unreadable path)
  | .ok text =>
    match ofText? text with
    | some settings => return .ok settings
    | none => return .error (.malformed path)

/-- Loads settings from a file if it exists. -/
def loadOrStandard (files : Files m) (path : String) : m (Except SettingsError Settings) := do
  if ← files.exist path then load files path else return .ok standard

/-- The name of the variable for the time that quotes are kept, in minutes. -/
def lifetimeVariable : String := "PRICE_CACHE_TTL_MINUTES"

/-- The name of the variable for the key of the American market. -/
def americanKeyVariable : String := "FMP_API_KEY"

/-- The name of the variable for the key of the language model. -/
def modelKeyVariable : String := "GEMINI_API_KEY"

/-- A positive number of minutes. -/
def minutes? (s : String) : Option Span := do
  let minutes ← Text.Numeral.readBelow? UInt64.size (Text.trimChars s.toList)
  if 0 < minutes then Span.ofSeconds? (60 * minutes) else none

/-- Settings with the variables of the environment put in. -/
def override (s : Settings) (lookup : String → Option String) : Settings :=
  let lifetime := (lookup lifetimeVariable).bind minutes?
  let americanKey := (lookup americanKeyVariable).bind nonBlank?
  let modelKey := (lookup modelKeyVariable).bind nonBlank?
  { s with
    pricing := { s.pricing with lifetime := lifetime.getD s.pricing.lifetime }
    providers := { s.providers with
      americanKey := americanKey.or s.providers.americanKey
      modelKey := modelKey.or s.providers.modelKey } }

end Settings

end NetWorth
