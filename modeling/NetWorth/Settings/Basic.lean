import NetWorth.Files.Path
import NetWorth.LanguageModel.Source
import NetWorth.Time.Span
/-!
# Settings

What can be configured, with the values that hold where nothing is said.  Settings come from a file
and then from the environment, which has the last word on the keys and on the time that quotes are
kept.
-/

namespace NetWorth

/-- How quotes are kept. -/
structure PricingSettings where
  /-- How long a quote is served after it was fetched. -/
  lifetime : Span
  /-- How often expired quotes are removed. -/
  sweepInterval : Span
  /-- The file that quotes are kept in; without one they are kept in memory. -/
  cachePath : Option String

/-- Keys and addresses of the providers. -/
structure ProviderSettings where
  americanKey : Option String
  modelKey : Option String
  model : String
  americanAddress : Option String
  taiwanAddress : Option String
  cryptoAddress : Option String
  modelAddress : Option String

/-- All settings. -/
structure Settings where
  displayCurrency : String
  pricing : PricingSettings
  providers : ProviderSettings

/-- Quotes are kept in memory for twenty minutes and swept once an hour. -/
def PricingSettings.standard : PricingSettings :=
  ⟨.twentyMinutes, .oneHour, none⟩

/-- The public services without keys. -/
def ProviderSettings.standard : ProviderSettings :=
  ⟨none, none, LanguageModel.standardModel, none, none, none, none⟩

namespace Settings

/-- The settings where nothing is said. -/
def standard : Settings :=
  ⟨"USD", .standard, .standard⟩

/-- A text without the blanks around it, if anything is left. -/
def nonBlank? (s : String) : Option String :=
  let trimmed := Text.trim s
  if trimmed.isEmpty then none else some trimmed

/-- The path of the quote file, seen from the directory of the settings. -/
def resolvedCachePath (s : Settings) (directory : String) : Option String :=
  s.pricing.cachePath.map (Path.join directory)

end Settings

end NetWorth
