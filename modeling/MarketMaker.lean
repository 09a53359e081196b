import MarketMaker.Log.Journal
import MarketMaker.Main
import MarketMaker.Reading
import MarketMaker.Proofs.Pricing.Formulas
import MarketMaker.Proofs.Pricing.Width
import MarketMaker.Proofs.Numbers
import MarketMaker.Proofs.Guards
import MarketMaker.Proofs.Refresh.Asides
import MarketMaker.Proofs.Refresh.Requests
import MarketMaker.Proofs.Refresh.Waiting
import MarketMaker.Proofs.Refresh.Conclusion
import MarketMaker.Proofs.Refresh.Runs
import MarketMaker.Proofs.Refresh.InFlight
import MarketMaker.Proofs.Refresh.Endings
import MarketMaker.Proofs.Refresh.Stopping
import MarketMaker.Proofs.Refresh.Unseen
import MarketMaker.Proofs.Refresh.SingleFlight
import MarketMaker.Proofs.Refresh.Words
import MarketMaker.Proofs.Refresh.Learning
import MarketMaker.Proofs.Refresh.Switches
import MarketMaker.Proofs.Refresh.History
import MarketMaker.Proofs.Refresh.Gate
import MarketMaker.Proofs.Refresh.Lulls
import MarketMaker.Proofs.Refresh.Computing
import MarketMaker.Proofs.Refresh.Publishing
import MarketMaker.Proofs.Refresh.Failing
import MarketMaker.Proofs.Refresh.Interruption
import MarketMaker.Proofs.Refresh.Provenance
import MarketMaker.Proofs.Refresh.Serving
import MarketMaker.Proofs.Refresh.RiskAversion
import MarketMaker.Proofs.Refresh.Deviation
import MarketMaker.Proofs.Refresh.Announcements
import MarketMaker.Proofs.Refresh.Settlement
import MarketMaker.Proofs.Refresh.Modes
import MarketMaker.Proofs.Laws
import MarketMaker.Proofs.Binary64
import MarketMaker.Proofs.Exact
import MarketMaker.Proofs.Parameters
import MarketMaker.Proofs.Settings
import MarketMaker.Proofs.Gamma.Learner
import MarketMaker.Proofs.Gamma.Profit
import MarketMaker.Proofs.Gamma.Rules
import MarketMaker.Proofs.Gamma.Efficiency
import MarketMaker.Proofs.Gamma.Sources
import MarketMaker.Proofs.Analysis
import MarketMaker.Proofs.Quantiles
import MarketMaker.Proofs.Pricing.Finiteness
import MarketMaker.Proofs.Volatility
import MarketMaker.Proofs.Candles
import MarketMaker.Proofs.Refresh.Figures
import MarketMaker.Proofs.Refresh.Startup
import MarketMaker.Proofs.Refresh.Stages
import MarketMaker.Proofs.Refresh.Creation
import MarketMaker.Proofs.Quantiles.Order
import MarketMaker.Proofs.Gamma.Reference
import MarketMaker.Proofs.Gamma.Conservation
import MarketMaker.Proofs.Grammar
import MarketMaker.Proofs.Refresh.Cancelling
import MarketMaker.Proofs.Refresh.Progress
import MarketMaker.Proofs.Quantiles.Reflection
import MarketMaker.Proofs.Pricing.Inventory
import MarketMaker.Proofs.Pricing.Mirror
import MarketMaker.Proofs.Pricing.Regime
import MarketMaker.Proofs.Refresh.Width
import MarketMaker.Proofs.Gamma.Units
import MarketMaker.Proofs.Gamma.Checkpoint
import MarketMaker.Proofs.Pairs
import MarketMaker.Proofs.Symbols
import MarketMaker.Proofs.Cells
import MarketMaker.Proofs.Flags
import MarketMaker.Proofs.Precedence
import MarketMaker.Proofs.Quantiles.Signs
import MarketMaker.Proofs.Refresh.Sending
