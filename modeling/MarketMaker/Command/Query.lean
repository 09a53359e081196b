import MarketMaker.Command.Arguments
import MarketMaker.Command.Catalogue
import MarketMaker.Command.Flags
import MarketMaker.Config.Environment
import MarketMaker.Market.Venue
import MarketMaker.Terminal.Table

/-!
# Questions

The commands `volatility` and `optimize` ask the venue for bars once and print what follows from
them. A `Query` says which bars, and how the bars are answered for.
-/

namespace MarketMaker.Command

variable {α : Type} [Scalar α] [NumberText α]

/-- A question that bars answer. -/
structure Query (α : Type) where
  /-- The pair that it is about. -/
  symbol : Value α
  /-- The length of a bar. -/
  interval : Choice Interval α
  /-- How many bars are asked for. -/
  lookback : α
  /-- The output for some bars. -/
  answer : List (Bar α) → Except (Failure α) (Terminal.Output → Terminal.Output)

/-- The value of a switch, empty when it has none. -/
def textOf (a : Arguments) (s : Switch) : String := (a.value? s).getD ""

/-- The value of a switch, unless it has none or an empty one. -/
def givenText? (a : Arguments) (s : Switch) : Option String := (a.value? s).filter (!·.isEmpty)

/-- The interval of a switch, if one was given. -/
def readGivenInterval (a : Arguments) (s : Switch) : Except FlagError (Option Interval) :=
  match givenText? a s with
  | none => .ok none
  | some name => (readInterval name).map some

/-- The mode of a switch, if one was given. -/
def readGivenMode (a : Arguments) (s : Switch) : Except FlagError (Option Mode) :=
  match givenText? a s with
  | none => .ok none
  | some name => (readMode name).map some

/-- A number as an override of a setting. -/
def overrideNumber (s : Config.Setting) (x : Option α) : String × Value α :=
  (s.name, (x.map Value.number).getD .undefined)

/-- A text as an override of a setting. -/
def overrideText (s : Config.Setting) (x : Option String) : String × Value α :=
  (s.name, (x.map Value.string).getD .undefined)

/-- The close price of the latest bar. -/
def lastClose (bars : List (Bar α)) : α := (bars.getLast?.map (·.close)).getD Scalar.nan

omit [Scalar α] [NumberText α] in
/-- Output of some lines. -/
def printLines (lines : List String) (o : Terminal.Output) : Terminal.Output :=
  lines.foldl Terminal.Output.print o

/-- The lines of a volatility estimate. -/
def volatilityLines (symbol : String) (e : Volatility.Estimate α) (close : α) : List String :=
  ["\n📊 Volatility for " ++ symbol,
    "  Interval:            " ++ e.interval.text,
    "  Log returns:         " ++ toString e.sampleCount,
    "  Daily volatility:    " ++ Terminal.percent e.value 3,
    "  Annual volatility:   " ++ Terminal.percent (Volatility.annualize e.value) 3,
    "  Last close:          " ++ NumberText.text close]

/-- The question of the command `volatility`. -/
def volatilityQuery (a : Arguments) : Except FlagError (Query α) := do
  let symbol ← readSymbol (textOf a .symbol)
  let interval ← readInterval (textOf a .estimateInterval)
  let lookback : α ← readPositive (textOf a .estimateLookback) "Lookback"
  return {
    symbol
    interval := .known interval
    lookback := Scalar.floor lookback
    answer := fun bars => do
      let e ← Volatility.estimate bars (.known interval) 0
      return printLines (volatilityLines symbol e (lastClose bars)) }

/-- The rows of sized spreads. -/
def spreadRows (s : Sizing.Spreads α) : List (Value α) :=
  [("bid_spread", Terminal.percent s.bidSpread),
    ("ask_spread", Terminal.percent s.askSpread),
    ("long_profit_taking_spread", Terminal.percent s.profitTakingLong),
    ("short_profit_taking_spread", Terminal.percent s.profitTakingShort),
    ("stop_loss_spread", Terminal.percent s.stopLoss),
    ("z_order", NumberText.fixed 4 s.fillZScore),
    ("z_stop_loss", NumberText.fixed 4 s.stopLossZScore)].map fun (name, value) =>
      .object [("Parameter", .string name), ("Value", .string value)]

/-- The overrides of the command `optimize`. -/
def optimizeOverrides (a : Arguments) : Except FlagError (List (String × Value α)) := do
  let symbol ← readSymbol (textOf a .symbol)
  let interval ← readGivenInterval a .configuredInterval
  let lookback ← readOptional (a.value? .lookback) "Lookback"
  let fill ← readOptional (a.value? .fillProbability) "Fill probability"
  let risk ← readOptional (a.value? .stopLossProbability) "Stop-loss probability"
  let profit ← readOptional (a.value? .profitFactor) "Profit factor"
  let holding ← readOptional (a.value? .maxHoldingDays) "Max holding days"
  let lifetime ← readOptional (a.value? .refreshSeconds) "Refresh seconds"
  return [overrideText .symbol (some symbol), overrideText .mode (some Mode.autoOptimize.name),
    overrideText .volatilityInterval (interval.map (·.name)), overrideNumber .lookback lookback,
    overrideNumber .targetFillProbability fill, overrideNumber .stopLossRiskProbability risk,
    overrideNumber .profitFactor profit, overrideNumber .maxHoldingTimeDays holding,
    overrideNumber .orderRefreshTimeSeconds lifetime]

/-- What spreads are sized from, for a yearly volatility. -/
def sizingInput (c : Config α) (volatility : α) : Sizing.Input α :=
  { volatility
    timeToRefresh := Sizing.secondsToYears c.orderRefreshTimeSeconds
    fillProbability := c.targetFillProbability
    stopLossRiskProbability := c.stopLossRiskProbability
    profitFactor := c.profitFactor
    maxHoldingTime := Sizing.daysToYears c.maxHoldingTimeDays }

/-- The question of the command `optimize`, for a configuration. -/
def optimizeQuery (c : Config α) : Query α :=
  { symbol := c.symbol
    interval := c.volatilityInterval
    lookback := c.lookback
    answer := fun bars => do
      let e ← Volatility.estimate bars c.volatilityInterval 0
      let s ← (Sizing.compute (sizingInput c (Volatility.annualize e.value))).mapError (·.failure)
      return fun o =>
        Terminal.printTable (printLines
          ["\n🔬 Optimal parameters for " ++ c.symbol.text,
            "Mid price: " ++ NumberText.text (lastClose bars),
            "Daily volatility: " ++ Terminal.percent e.value 3 ++ " (" ++ c.volatilityInterval.text
              ++ " candlesticks)\n"] o) (spreadRows s) }

end MarketMaker.Command
