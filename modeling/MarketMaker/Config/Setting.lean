import MarketMaker.Interval
import MarketMaker.Mode
import MarketMaker.Scalar

/-!
# The settings

The engine is configured by twenty-one settings. One table says everything about each: its name, the
environment variable that sets it, and for the numeric ones the checks a value has to pass and the
value that holds where none is given. Reading, the environment and the order of complaints all
follow this table.
-/

namespace MarketMaker.Config

/-- A setting of the engine. -/
inductive Setting where
  | symbol
  | mode
  | riskFactor
  | volatilityInterval
  | lookback
  | updateIntervalSeconds
  | retryBackoffSeconds
  | fetchTimeoutMs
  | learningRate
  | rewardWindow
  | gammaMin
  | gammaMax
  | targetFillProbability
  | stopLossRiskProbability
  | profitFactor
  | maxHoldingTimeDays
  | orderRefreshTimeSeconds
  | timeHorizonSeconds
  | minSpread
  | orderAmountShapeFactor
  | significantChangeThreshold
  deriving DecidableEq, Repr

/-- A check on a number. -/
inductive Check where
  /-- The number is whole. -/
  | whole
  /-- The number is at least this. -/
  | atLeast (bound : Nat)
  /-- The number is above zero. -/
  | positive
  deriving DecidableEq, Repr

namespace Setting

/-- Every setting, in the order in which complaints are listed. -/
def all : List Setting :=
  [symbol, mode, riskFactor, volatilityInterval, lookback, updateIntervalSeconds,
    retryBackoffSeconds, fetchTimeoutMs, learningRate, rewardWindow, gammaMin, gammaMax,
    targetFillProbability, stopLossRiskProbability, profitFactor, maxHoldingTimeDays,
    orderRefreshTimeSeconds, timeHorizonSeconds, minSpread, orderAmountShapeFactor,
    significantChangeThreshold]

/-- The name of the setting. -/
def name : Setting → String
  | symbol => "symbol"
  | mode => "mode"
  | riskFactor => "riskFactor"
  | volatilityInterval => "volatilityInterval"
  | lookback => "lookback"
  | updateIntervalSeconds => "updateIntervalSeconds"
  | retryBackoffSeconds => "retryBackoffSeconds"
  | fetchTimeoutMs => "fetchTimeoutMs"
  | learningRate => "learningRate"
  | rewardWindow => "rewardWindow"
  | gammaMin => "gammaMin"
  | gammaMax => "gammaMax"
  | targetFillProbability => "targetFillProbability"
  | stopLossRiskProbability => "stopLossRiskProbability"
  | profitFactor => "profitFactor"
  | maxHoldingTimeDays => "maxHoldingTimeDays"
  | orderRefreshTimeSeconds => "orderRefreshTimeSeconds"
  | timeHorizonSeconds => "timeHorizonSeconds"
  | minSpread => "minSpread"
  | orderAmountShapeFactor => "orderAmountShapeFactor"
  | significantChangeThreshold => "significantChangeThreshold"

/-- The environment variable that sets it. -/
def variableName : Setting → String
  | symbol => "MM_SYMBOL"
  | mode => "MM_MODE"
  | riskFactor => "MM_RISK_FACTOR"
  | volatilityInterval => "MM_VOLATILITY_INTERVAL"
  | lookback => "MM_LOOKBACK"
  | updateIntervalSeconds => "MM_UPDATE_INTERVAL_SECONDS"
  | retryBackoffSeconds => "MM_RETRY_BACKOFF_SECONDS"
  | fetchTimeoutMs => "MM_FETCH_TIMEOUT_MS"
  | learningRate => "MM_LEARNING_RATE"
  | rewardWindow => "MM_REWARD_WINDOW"
  | gammaMin => "MM_GAMMA_MIN"
  | gammaMax => "MM_GAMMA_MAX"
  | targetFillProbability => "MM_TARGET_FILL_PROBABILITY"
  | stopLossRiskProbability => "MM_STOP_LOSS_RISK_PROBABILITY"
  | profitFactor => "MM_PROFIT_FACTOR"
  | maxHoldingTimeDays => "MM_MAX_HOLDING_TIME_DAYS"
  | orderRefreshTimeSeconds => "MM_ORDER_REFRESH_TIME_SECONDS"
  | timeHorizonSeconds => "MM_TIME_HORIZON_SECONDS"
  | minSpread => "MM_MIN_SPREAD"
  | orderAmountShapeFactor => "MM_ORDER_AMOUNT_SHAPE_FACTOR"
  | significantChangeThreshold => "MM_SIGNIFICANT_CHANGE_THRESHOLD"

/-- The checks on a numeric setting, in the order in which they complain. -/
def checks : Setting → List Check
  | lookback => [.whole, .atLeast 2]
  | updateIntervalSeconds => [.positive]
  | retryBackoffSeconds => [.atLeast 0]
  | fetchTimeoutMs => [.whole, .positive]
  | learningRate => [.atLeast 0]
  | rewardWindow => [.whole, .positive]
  | profitFactor => [.positive]
  | maxHoldingTimeDays => [.atLeast 0]
  | orderRefreshTimeSeconds => [.positive]
  | timeHorizonSeconds => [.atLeast 0]
  | minSpread => [.atLeast 0]
  | orderAmountShapeFactor => [.positive]
  | significantChangeThreshold => [.atLeast 0]
  | _ => []

/-- Whether the setting is a number. -/
def isNumeric : Setting → Bool
  | symbol | mode | volatilityInterval => false
  | _ => true

variable {α : Type} [Scalar α]

/-- The number that holds where none is given. -/
def defaultNumber : Setting → α
  | riskFactor => 1
  | lookback => 720
  | updateIntervalSeconds => 60
  | retryBackoffSeconds => 5
  | fetchTimeoutMs => 10000
  | learningRate => 0.01
  | rewardWindow => 100
  | gammaMin => 0.001
  | gammaMax => 10
  | targetFillProbability => 0.75
  | stopLossRiskProbability => 0.01
  | profitFactor => 2.5
  | maxHoldingTimeDays => 1
  | orderRefreshTimeSeconds => 15
  | timeHorizonSeconds => 86400
  | minSpread => 0.00005
  | orderAmountShapeFactor => 1
  | significantChangeThreshold => 0.01
  | symbol | mode | volatilityInterval => 0

end Setting

end MarketMaker.Config
