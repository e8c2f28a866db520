import NetWorth.Settings.Basic
import NetWorth.Toml.Document
/-!
# Reading settings

Settings are read from the tables of a TOML document.  A field that is missing keeps its standard
value, and a field that is not known is ignored.
-/

namespace NetWorth

namespace Toml

/-- The known fields of a record, which is written as a table or as an array in order.  A time
counts as a record of which no field is known. -/
def fields? (names : List String) : Toml → Option Entries
  | .table _ entries => some (entries.filter fun entry => names.contains entry.1)
  | .time _ => some []
  | value => value.items?.map fun items => names.zip items

/-- The value of a field, or its standard value. -/
def field (fields : Entries) (name : String) (standard : α) (decode : Toml → Option α) : Option α :=
  match find? name fields with
  | none => some standard
  | some value => decode value

/-- Reads a length of time from its text. -/
def span? (value : Toml) : Option Span :=
  value.text?.bind fun s => (Span.ofText s).toOption

/-- Reads a key; a blank one is none. -/
def key? (value : Toml) : Option (Option String) :=
  value.text?.map Settings.nonBlank?

/-- Reads a text that may be missing. -/
def someText? (value : Toml) : Option (Option String) :=
  value.text?.map some

end Toml

/-- Reads how quotes are kept. -/
def PricingSettings.ofToml? (value : Toml) : Option PricingSettings := do
  let fields ← value.fields? ["cache_ttl", "sweep_interval", "cache_path"]
  return {
    lifetime := ← Toml.field fields "cache_ttl" standard.lifetime Toml.span?
    sweepInterval := ← Toml.field fields "sweep_interval" standard.sweepInterval Toml.span?
    cachePath := ← Toml.field fields "cache_path" standard.cachePath Toml.someText? }

/-- Reads the keys and addresses of the providers. -/
def ProviderSettings.ofToml? (value : Toml) : Option ProviderSettings := do
  let fields ← value.fields? ["fmp_api_key", "gemini_api_key", "gemini_model", "fmp_base_url",
    "twse_proxy_url", "binance_base_url", "gemini_base_url"]
  return {
    americanKey := ← Toml.field fields "fmp_api_key" standard.americanKey Toml.key?
    modelKey := ← Toml.field fields "gemini_api_key" standard.modelKey Toml.key?
    model := ← Toml.field fields "gemini_model" standard.model Toml.text?
    americanAddress := ← Toml.field fields "fmp_base_url" standard.americanAddress Toml.someText?
    taiwanAddress := ← Toml.field fields "twse_proxy_url" standard.taiwanAddress Toml.someText?
    cryptoAddress := ← Toml.field fields "binance_base_url" standard.cryptoAddress Toml.someText?
    modelAddress := ← Toml.field fields "gemini_base_url" standard.modelAddress Toml.someText? }

namespace Settings

/-- Reads all settings from the entries of a document. -/
def ofEntries? (entries : Toml.Entries) : Option Settings := do
  return {
    displayCurrency := ← Toml.field entries "display_currency" standard.displayCurrency Toml.text?
    pricing := ← Toml.field entries "pricing" standard.pricing PricingSettings.ofToml?
    providers := ← Toml.field entries "providers" standard.providers ProviderSettings.ofToml? }

/-- Reads settings from a text. -/
def ofText? (text : String) : Option Settings := do
  ofEntries? (← Toml.parse? text)

end Settings

end NetWorth
