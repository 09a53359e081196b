import MarketMaker.Config
import MarketMaker.Figure
import MarketMaker.Gamma.Source
import MarketMaker.Parameters
import MarketMaker.Pricing

/-!
# Records from values

What callers hand over are values of any shape. Here they are read as the records that the engine
works on, figure by figure: a figure that is missing or wrong stays what it was given as, so that
the engine can say so. A record that has defaults keeps them for the fields that the value does not
have.
-/

namespace MarketMaker

variable {α : Type}

/-- The fields of a value that have none of some names. -/
def Value.fieldsBesides (v : Value α) (names : List String) : List (String × Value α) :=
  v.fields.filter fun f => !names.contains f.1

/-- The trend in a field, if it holds one. -/
def Trend.ofField? (v : Value α) (name : String) : Option Trend := (v.text? name).bind Trend.ofName?

/-- The bar that is not there, with something in its place: it has no figures to compute with. -/
def Bar.absent (absence : String) : Bar (Figure α) :=
  ⟨.absent, .absent, .absent, .absent, .absent, some absence⟩

/-- The bar with the fields of a value. -/
def Bar.ofValue : Value (Figure α) → Bar (Figure α)
  | .undefined => .absent "undefined"
  | .null => .absent "null"
  | v =>
    { openTime := v.figure "openTime"
      opening := v.figure "open"
      high := v.figure "high"
      low := v.figure "low"
      close := v.figure "close" }

/-- The market with the fields of a value. -/
def Market.ofValue (v : Value (Figure α)) : Market (Figure α) :=
  { midPrice := v.figure "midPrice"
    inventory := v.figure "inventory"
    alpha := v.figure "orderBookIntensityAlpha"
    kappa := v.figure "orderBookDepthKappa"
    timestamp := v.figure "timestamp"
    trend := Trend.ofField? v "trend" }

/-- The performance with the fields of a value. -/
def Performance.ofValue (v : Value (Figure α)) : Performance (Figure α) :=
  ⟨v.figure "realizedPnl", v.figure "fillRatio"⟩

namespace Gamma

/-- The signals with the fields of a value. -/
def Signals.ofValue (v : Value (Figure α)) : Signals (Figure α) :=
  ⟨v.figure "volatility", v.figure "inventoryDeviation", Trend.ofField? v "trend"⟩

/-- The sample with the fields of a value. -/
def Sample.ofValue (v : Value (Figure α)) : Sample (Figure α) :=
  { realizedPnl := v.figure "realizedPnl"
    inventoryDeviation := v.figure "inventoryDeviation"
    volatility := v.figure "volatility"
    spreadEfficiency := v.figure "spreadEfficiency"
    timestamp := v.figure "timestamp"
    told := some v.fields }

variable [Scalar α] [NumberText α]

/-- The rules with the fields of a value. -/
def Rules.ofValue (v : Value (Figure α)) : Rules (Figure α) :=
  let d : Rules (Figure α) := .default
  { baseGamma := v.figureOr "baseGamma" d.baseGamma
    gammaMin := v.figureOr "gammaMin" d.gammaMin
    gammaMax := v.figureOr "gammaMax" d.gammaMax
    highVolatility := v.figureOr "highVolatility" d.highVolatility
    lowVolatility := v.figureOr "lowVolatility" d.lowVolatility
    highInventoryDeviation := v.figureOr "highInventoryDeviation" d.highInventoryDeviation
    lowInventoryDeviation := v.figureOr "lowInventoryDeviation" d.lowInventoryDeviation }

/-- The learner's configuration with the fields of a value. -/
def LearnerConfig.ofValue (v : Value (Figure α)) : LearnerConfig (Figure α) :=
  let d : LearnerConfig (Figure α) := .default
  { initialGamma := v.figureOr "initialGamma" d.initialGamma
    learningRate := v.figureOr "learningRate" d.learningRate
    gammaMin := v.figureOr "gammaMin" d.gammaMin
    gammaMax := v.figureOr "gammaMax" d.gammaMax
    rewardWindow := v.figureOr "rewardWindow" d.rewardWindow
    inventoryPenalty := v.figureOr "inventoryPenalty" d.inventoryPenalty
    spreadEfficiencyWeight := v.figureOr "spreadEfficiencyWeight" d.spreadEfficiencyWeight }

/-- The learner's memory with the fields of a value. -/
def Memory.ofValue (v : Value (Figure α)) : Memory (Figure α) :=
  let d : Memory (Figure α) := .empty
  { lastPnl := ((v.find? "lastPnl").map Figure.ofValue).bind Scalar.filled?
    lastInventoryDeviation := v.figureOr "lastInventoryDeviation" d.lastInventoryDeviation
    rewards := v.figures "rewardHistory"
    updateCount := v.figureOr "updateCount" d.updateCount
    direction := v.figureOr "lastDirection" d.direction
    lastUpdateAt := ((v.find? "lastUpdateAt").map Figure.ofValue).bind Scalar.filled?
    extra := v.fieldsBesides (d.fields.map (·.1)) }

/-- What a source is built from, with the fields of a value. -/
def SourceSettings.ofValue (v : Value (Figure α)) : SourceSettings (Figure α) :=
  { riskFactor := v.figure "riskFactor"
    gammaMin := v.figure "gammaMin"
    gammaMax := v.figure "gammaMax"
    learner := .ofValue (v.get "learner")
    rules := .ofValue (v.get "rules") }

/-- What a source is told about a cycle, with the fields of a value. -/
def Context.ofValue (v : Value (Figure α)) : Context (Figure α) :=
  let performance := v.get "performance"
  { market := .ofValue (v.get "market")
    volatility := v.figure "volatility"
    timestamp := v.figure "timestamp"
    currentSpread :=
      if (v.get "currentSpread").isMissing then none else some (v.figure "currentSpread")
    performance := if performance.isTruthy then some (.ofValue performance) else none }

end Gamma

/-- What spreads are sized from, with the fields of a value. -/
def Sizing.Input.ofValue (v : Value (Figure α)) : Sizing.Input (Figure α) :=
  { volatility := v.figure "volatility"
    timeToRefresh := v.figure "timeToRefresh"
    fillProbability := v.figure "fillProbability"
    stopLossRiskProbability := v.figure "stopLossRiskProbability"
    profitFactor := v.figure "profitFactor"
    maxHoldingTime := v.figure "maxHoldingTime" }

/-- What a quote is computed from, with the fields of a value. -/
def Pricing.Input.ofValue (v : Value (Figure α)) : Pricing.Input (Figure α) :=
  { market := .ofValue (v.get "market")
    gamma := v.figure "gamma"
    volatility := v.figure "volatility"
    horizonSeconds := v.figure "timeHorizonSeconds" }

/-- The labels in the fields of a value. -/
def Labels.ofValue (v : Value (Figure α)) : Labels (Figure α) :=
  { name := v.given? "name", code := v.given? "code", trace := v.given? "stack" }

section

variable [Scalar α] [NumberText α]

/-- The engine error of a named class that some values are told about. -/
def EngineError.ofName? (name : String) (values : List (Value (Figure α))) :
    Option (EngineError (Figure α)) :=
  let first := values[0]?.getD .undefined
  let second := values[1]?.getD .undefined
  match name with
  | "EngineError" => some (.general first second.words)
  | "InsufficientDataError" => some (.insufficientData (.ofValue first) (.ofValue second))
  | "InvalidRiskFactorError" => some (.invalidRiskFactor (.ofValue first))
  | "InvalidProbabilityError" => some (.invalidProbability first.text (.ofValue second))
  | "InvalidParameterError" => some (.invalidParameter (.described first.words))
  | "DataProviderTimeoutError" => some (.providerTimeout (.ofValue first))
  | "DataProviderError" => some (.provider (.described first.words))
  | "ConfigurationError" => some (.configuration (.described first.words))
  | _ => none

/-- The cause among the values that an engine error is told about: behind its words, and where it
has a code, in the options behind them. -/
def EngineError.causeAmong? (values : List (Value (Figure α))) :
    EngineError (Figure α) → Option (Value (Figure α))
  | provider _ => some (values[1]?.getD .undefined)
  | general .. => values[2]?.bind (·.find? "cause")
  | _ => none

/-- The failure of a named class that some values are told about, unless it would need the text of
one that has none: its words come first among the values, or after the code where it has one. An
error of another origin finds its cause in the options behind its words. -/
def Failure.ofName (name : String) (values : List (Value (Figure α))) (labels : Labels (Figure α)) :
    Except (Failure (Figure α)) (Failure (Figure α)) :=
  if name == "RequestCancelledError" then .ok (.cancelled labels)
  else if !values[if name == "EngineError" then 1 else 0]?.all (·.hasText) then .error .textless
  else
    match EngineError.ofName? name values with
    | some e =>
      if e.hasWords then .ok (.engine e { labels with cause := e.causeAmong? values })
      else .error .textless
    | none =>
      .ok (.foreign name (values.head?.getD .undefined).words
        { labels with cause := values[1]?.bind (·.find? "cause") })

end

variable [Scalar α] [NumberText α]

/-- The configuration with the fields of a value in place of its own. -/
def Config.overridden (c : Config (Figure α)) (v : Value (Figure α)) : Config (Figure α) :=
  { symbol := (v.find? "symbol").getD c.symbol
    mode := ((v.find? "mode").map Choice.ofValue).getD c.mode
    riskFactor := v.figureOr "riskFactor" c.riskFactor
    volatilityInterval :=
      ((v.find? "volatilityInterval").map Choice.ofValue).getD c.volatilityInterval
    lookback := v.figureOr "lookback" c.lookback
    updateIntervalSeconds := v.figureOr "updateIntervalSeconds" c.updateIntervalSeconds
    retryBackoffSeconds := v.figureOr "retryBackoffSeconds" c.retryBackoffSeconds
    fetchTimeoutMs := v.figureOr "fetchTimeoutMs" c.fetchTimeoutMs
    learningRate := v.figureOr "learningRate" c.learningRate
    rewardWindow := v.figureOr "rewardWindow" c.rewardWindow
    gammaMin := v.figureOr "gammaMin" c.gammaMin
    gammaMax := v.figureOr "gammaMax" c.gammaMax
    targetFillProbability := v.figureOr "targetFillProbability" c.targetFillProbability
    stopLossRiskProbability := v.figureOr "stopLossRiskProbability" c.stopLossRiskProbability
    profitFactor := v.figureOr "profitFactor" c.profitFactor
    maxHoldingTimeDays := v.figureOr "maxHoldingTimeDays" c.maxHoldingTimeDays
    orderRefreshTimeSeconds := v.figureOr "orderRefreshTimeSeconds" c.orderRefreshTimeSeconds
    timeHorizonSeconds := v.figureOr "timeHorizonSeconds" c.timeHorizonSeconds
    minSpread := v.figureOr "minSpread" c.minSpread
    orderAmountShapeFactor := v.figureOr "orderAmountShapeFactor" c.orderAmountShapeFactor
    significantChangeThreshold :=
      v.figureOr "significantChangeThreshold" c.significantChangeThreshold }

/-- The tuning of the pricing model with the fields of a value. -/
def Pricing.Config.ofValue (v : Value (Figure α)) : Pricing.Config (Figure α) :=
  let d : Pricing.Config (Figure α) := .default
  ⟨v.figureOr "minSpread" d.minSpread, v.figureOr "orderAmountShapeFactor" d.shapeFactor⟩

/-- The set of parameters with the fields of a value. -/
def Parameters.ofValue (v : Value (Figure α)) : Parameters (Figure α) :=
  { bidSpread := v.figure "bidSpread"
    askSpread := v.figure "askSpread"
    reservationPrice := v.figure "reservationPrice"
    optimalSpread := v.figure "optimalSpread"
    profitTakingLong := v.figure "profitTakingSpreadLong"
    profitTakingShort := v.figure "profitTakingSpreadShort"
    stopLoss := v.figure "stopLossSpread"
    gammaUsed := Scalar.filled? (v.figure "gammaUsed")
    source := .ofValue (v.get "gammaSource")
    volatilityUsed := v.figure "volatilityUsed"
    volatilityInterval := .ofValue (v.get "volatilityInterval")
    generatedAt := v.figure "generatedAt" }

end MarketMaker
