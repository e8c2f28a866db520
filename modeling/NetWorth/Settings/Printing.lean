import NetWorth.Settings.Basic
import NetWorth.Toml.Printing
/-!
# Writing settings

Settings are written as a TOML document with all values that are set.  Keys are never shown.
-/

namespace NetWorth

/-- What stands in place of a key. -/
def Settings.redacted : String := "[REDACTED]"

/-- The lines of a field that may be missing. -/
def Toml.optionalLine (key : String) (value : Option String) : String :=
  (value.map (Toml.pairLine key)).getD ""

/-- How quotes are kept, as a table. -/
def PricingSettings.toText (s : PricingSettings) : String :=
  "[pricing]\n" ++ Toml.pairLine "cache_ttl" s.lifetime.toText ++
    Toml.pairLine "sweep_interval" s.sweepInterval.toText ++
    Toml.optionalLine "cache_path" s.cachePath

/-- Keys and addresses of the providers, as a table. -/
def ProviderSettings.toText (s : ProviderSettings) : String :=
  "[providers]\n" ++
    Toml.optionalLine "fmp_api_key" (s.americanKey.map fun _ => Settings.redacted) ++
    Toml.optionalLine "gemini_api_key" (s.modelKey.map fun _ => Settings.redacted) ++
    Toml.pairLine "gemini_model" s.model ++
    Toml.optionalLine "fmp_base_url" s.americanAddress ++
    Toml.optionalLine "twse_proxy_url" s.taiwanAddress ++
    Toml.optionalLine "binance_base_url" s.cryptoAddress ++
    Toml.optionalLine "gemini_base_url" s.modelAddress

/-- All settings as a document. -/
def Settings.toText (s : Settings) : String :=
  Toml.pairLine "display_currency" s.displayCurrency ++ "\n" ++ s.pricing.toText ++ "\n" ++
    s.providers.toText

end NetWorth
