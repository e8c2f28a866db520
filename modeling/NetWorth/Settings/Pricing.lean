import NetWorth.LanguageModel.Source
import NetWorth.Market.Exchange
import NetWorth.Quote.Caching
import NetWorth.Quote.FileStore
import NetWorth.Quote.Fallback
import NetWorth.Quote.Sweeper
import NetWorth.Settings.Basic
/-!
# Prices as configured

The chain of sources that settings describe: the markets first, a language model behind them if
there is a key for it, and a store in front of both.
-/

namespace NetWorth

namespace ProviderSettings

/-- The markets at their configured addresses. -/
def exchange (s : ProviderSettings) : Market.Exchange where
  america := ⟨s.americanAddress.getD Market.AmericanFeed.standardAddress, s.americanKey⟩
  taiwan := (s.taiwanAddress.map .mk).getD .standard
  crypto := (s.cryptoAddress.map .mk).getD .standard

/-- The configured language model, if there is a key for it. -/
def languageModel? (s : ProviderSettings) : Option LanguageModel :=
  s.modelKey.map fun key =>
    ⟨s.modelAddress.getD LanguageModel.standardAddress, key, s.model⟩

end ProviderSettings

namespace Settings

variable {m : Type → Type} [Monad m]

/-- The sources without the store. -/
def uncached (s : Settings) (web : Web.Connection m) : PriceSource m :=
  .fallback (s.providers.exchange.source web) (s.providers.languageModel?.map (·.source web))

/-- A source behind a store that keeps quotes as long as is configured. -/
def cached (s : Settings) (inner : PriceSource m) (store : QuoteStore m) (clock : Clock m) :
    CachingSource m :=
  ⟨inner, store, clock, s.pricing.lifetime⟩

/-- The whole chain. -/
def prices (s : Settings) (web : Web.Connection m) (store : QuoteStore m) (clock : Clock m) :
    CachingSource m :=
  s.cached (s.uncached web) store clock

/-- The schedule of the sweeps that go with the chain. -/
def sweeps (s : Settings) : SweepSchedule :=
  .start s.pricing.sweepInterval

end Settings

end NetWorth
