import NetWorth.Book.Memory
import NetWorth.Main
import NetWorth.Proofs.Book.History
import NetWorth.Proofs.Codes
import NetWorth.Proofs.Holding.Denomination
import NetWorth.Proofs.Ledger.Acceptance
import NetWorth.Proofs.Ledger.CostDrift
import NetWorth.Proofs.Ledger.InPlace
import NetWorth.Proofs.Ledger.Reopening
import NetWorth.Proofs.Ledger.Reordering
import NetWorth.Proofs.LanguageModel.Fence
import NetWorth.Proofs.Market.Currency
import NetWorth.Proofs.Market.PositivePrice
import NetWorth.Proofs.Market.Refusals
import NetWorth.Proofs.Market.Requests
import NetWorth.Proofs.Quote.Eviction
import NetWorth.Proofs.Quote.FallbackChain
import NetWorth.Proofs.Quote.FileStore
import NetWorth.Proofs.Quote.Interruption
import NetWorth.Proofs.Quote.ServedQuote
import NetWorth.Proofs.Quote.StoreFailure
import NetWorth.Proofs.Rates.History
import NetWorth.Proofs.Records
import NetWorth.Proofs.Time.Expiry
import NetWorth.Proofs.Time.Span
import NetWorth.Proofs.Valuation.Accounting
import NetWorth.Proofs.Valuation.Conversions
import NetWorth.Proofs.Valuation.DailyRun
import NetWorth.Proofs.Valuation.Readings
import NetWorth.Quote.Sweeper
import NetWorth.Valuation.Records
import NetWorth.Valuation.Service
