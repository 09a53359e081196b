import MarketMaker.Command.Arguments

/-!
# The commands

The program has three commands: `volatility` and `optimize` answer one question each, and `run`
recalibrates until it is stopped. Everything that is said about them is said here.
-/

namespace MarketMaker.Command

/-- A command of the program. -/
structure Subcommand where
  /-- The word that it is called by. -/
  name : String
  /-- What its line in the help says. -/
  description : String
  /-- What it can be given by name. -/
  switches : List Switch
  /-- What its help ends with. -/
  notes : String

/-- The name of the program. -/
def programName : String := "mm-params"

/-- What the program is for. -/
def programDescription : String := "Adaptive pricing and risk parameters for market making"

/-- The version of the program. -/
def programVersion : String := "0.1.0"

/-- Asks for the version. -/
def versionSwitch : Switch := ⟨some 'V', "version", none, "output the version number", none, false⟩

/-- Asks for help. -/
def helpSwitch : Switch := ⟨some 'h', "help", none, "display help for command", none, false⟩

namespace Switch

/-- The trading pair. -/
def symbol : Switch :=
  ⟨some 's', "symbol", some "symbol", "Trading pair (BTC/USDT, BTC_USDT, BTCUSDT)", none, true⟩

/-- The interval of one estimate. -/
def estimateInterval : Switch :=
  ⟨some 'i', "interval", some "interval", "Candlestick interval (1m, 5m, 15m, 30m, 1h, 4h, 1d)",
    some "1m", false⟩

/-- The number of bars of one estimate. -/
def estimateLookback : Switch :=
  ⟨some 'l', "lookback", some "number", "Number of candlesticks to use", some "720", false⟩

/-- The interval, where the configuration has another. -/
def configuredInterval : Switch :=
  ⟨some 'i', "interval", some "interval",
    "Candlestick interval (default: MM_VOLATILITY_INTERVAL or 1m)", none, false⟩

/-- The number of bars, where the configuration has another. -/
def lookback : Switch :=
  ⟨some 'l', "lookback", some "number", "Number of candlesticks to use", none, false⟩

/-- The fill probability. -/
def fillProbability : Switch :=
  ⟨none, "fill-prob", some "decimal", "Target order fill probability (0.75 = 75%)", none, false⟩

/-- The stop-loss risk probability. -/
def stopLossProbability : Switch :=
  ⟨none, "stop-loss-prob", some "decimal", "Stop-loss risk probability (0.01 = 1%)", none, false⟩

/-- The profit factor. -/
def profitFactor : Switch :=
  ⟨none, "profit-factor", some "number", "Profit-taking spread as a multiple of the base spread",
    none, false⟩

/-- The longest holding time. -/
def maxHoldingDays : Switch :=
  ⟨none, "max-holding-days", some "number", "Maximum position holding time in days", none, false⟩

/-- The lifetime of an order. -/
def refreshSeconds : Switch :=
  ⟨none, "refresh-seconds", some "number", "Order lifetime in seconds", none, false⟩

/-- The mode. -/
def mode : Switch :=
  ⟨some 'm', "mode", some "mode", "fixed, rule_adaptive or auto_optimize", none, false⟩

/-- The interval of a run. -/
def runInterval : Switch :=
  ⟨some 'i', "interval", some "interval", "Candlestick interval used for volatility", none, false⟩

/-- The time between two refreshes. -/
def updateInterval : Switch :=
  ⟨some 'u', "update-interval", some "seconds", "Seconds between parameter refreshes", none, false⟩

/-- The risk aversion. -/
def riskFactor : Switch :=
  ⟨none, "risk-factor", some "number", "Risk aversion γ (starting γ in adaptive modes)",
    none, false⟩

/-- The least spread. -/
def minSpread : Switch :=
  ⟨none, "min-spread", some "decimal", "Minimum total spread as a fraction of mid (0.0005 = 0.05%)",
    none, false⟩

/-- The inventory. -/
def inventory : Switch :=
  ⟨none, "inventory", some "number", "Signed inventory deviation from target", some "0", false⟩

/-- How strongly orders arrive. -/
def alpha : Switch := ⟨none, "alpha", some "number", "Order arrival intensity α", some "1", false⟩

/-- How deep the order book is. -/
def kappa : Switch := ⟨none, "kappa", some "number", "Order book depth κ", some "1", false⟩

/-- The trend of the market. -/
def trend : Switch :=
  ⟨none, "trend", some "trend", "Market trend signal for rule_adaptive mode", none, false⟩

/-- The time between two ticks. -/
def tickPeriod : Switch :=
  ⟨none, "tick-ms", some "ms", "Control cycle period in milliseconds", some "1000", false⟩

end Switch

/-- Estimates volatility. -/
def volatilityCommand : Subcommand :=
  { name := "volatility"
    description := "Estimate volatility of a trading pair from Gate.io candlesticks"
    switches := [.symbol, .estimateInterval, .estimateLookback]
    notes := "\nExamples:
  $ mm-params volatility --symbol BTC/USDT                  # 720 one-minute bars
  $ mm-params volatility --symbol ETHUSDT -i 1h -l 168      # one week of hourly bars\n" }

/-- Sizes spreads from volatility. -/
def optimizeCommand : Subcommand :=
  { name := "optimize"
    description :=
      "Compute auto-optimize spreads, profit-taking and stop-loss from recent volatility"
    switches := [.symbol, .configuredInterval, .lookback, .fillProbability, .stopLossProbability,
      .profitFactor, .maxHoldingDays, .refreshSeconds]
    notes := "\nExamples:
  $ mm-params optimize --symbol BTC/USDT
  $ mm-params optimize --symbol ETH_USDT --fill-prob 0.6 --profit-factor 3 --refresh-seconds 30\n" }

/-- Recalibrates until it is stopped. -/
def runCommand : Subcommand :=
  { name := "run"
    description := "Continuously recalibrate quoting parameters and print every published change"
    switches := [.symbol, .mode, .runInterval, .updateInterval, .riskFactor, .minSpread, .inventory,
      .alpha, .kappa, .trend, .tickPeriod]
    notes := "\nExamples:
  $ mm-params run --symbol BTC/USDT                                  # fixed γ from MM_RISK_FACTOR
  $ mm-params run --symbol BTC/USDT --mode rule_adaptive --trend bullish
  $ mm-params run --symbol ETHUSDT --mode auto_optimize -u 300

Configuration defaults come from MM_* environment variables (see .env.example).
online_adaptive is not available here: it learns from realized PnL and fill ratio,
which only an execution loop embedding the library can supply.\n" }

/-- Every command, in the order in which help lists them. -/
def subcommands : List Subcommand := [volatilityCommand, optimizeCommand, runCommand]

/-- The command of that name. -/
def subcommand? (name : String) : Option Subcommand := subcommands.find? (·.name == name)

end MarketMaker.Command
