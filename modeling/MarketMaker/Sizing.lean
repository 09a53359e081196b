import MarketMaker.Failure
import MarketMaker.Interval
import MarketMaker.Quantile
import MarketMaker.Volatility

/-!
# Spread sizing

Spreads from volatility alone. With a yearly volatility `σ`, an order lifetime `t` and a holding
time `h` in years,

* the **base spread** is `σ · √t · |z(fill)|`, on either side;
* the **profit-taking spread** is the base spread times the profit factor;
* the **stop-loss spread** is `σ · √h · |z(risk)|`,

where `z` is the standard normal quantile. Spreads are fractions of the mid price.
-/

namespace MarketMaker.Sizing

open Scalar

variable {α : Type} [Scalar α]

/-- What spreads are sized from. -/
structure Input (α : Type) where
  /-- Volatility over one year. -/
  volatility : α
  /-- The lifetime of an order, in years. -/
  timeToRefresh : α
  /-- The probability that an order is to be filled with. -/
  fillProbability : α
  /-- The probability that the stop loss is to be hit with. -/
  stopLossRiskProbability : α
  /-- How many spreads away a profit is taken. -/
  profitFactor : α
  /-- The longest time a position is held, in years. -/
  maxHoldingTime : α

/-- Sized spreads. -/
structure Spreads (α : Type) where
  /-- How far the bid lies below the mid price. -/
  bidSpread : α
  /-- How far the ask lies above the mid price. -/
  askSpread : α
  /-- The profit target of a long position. -/
  profitTakingLong : α
  /-- The profit target of a short position. -/
  profitTakingShort : α
  /-- The stop loss. -/
  stopLoss : α
  /-- The quantile that the spreads are sized by. -/
  fillZScore : α
  /-- The quantile that the stop loss is sized by. -/
  stopLossZScore : α

/-- The fields of sized spreads. -/
def Spreads.fields (s : Spreads α) : List (String × Value α) :=
  [("bidSpread", .number s.bidSpread), ("askSpread", .number s.askSpread),
    ("profitTakingSpreadLong", .number s.profitTakingLong),
    ("profitTakingSpreadShort", .number s.profitTakingShort),
    ("stopLossSpread", .number s.stopLoss), ("fillZScore", .number s.fillZScore),
    ("stopLossZScore", .number s.stopLossZScore)]

/-- Seconds as a fraction of a year. -/
def secondsToYears (seconds : α) : α :=
  seconds / (Volatility.daysPerYear * ((secondsPerDay : Nat) : α))

/-- Days as a fraction of a year. -/
def daysToYears (days : α) : α := days / Volatility.daysPerYear

/-- Whether a number lies strictly between zero and one. -/
def isProbability (p : α) : Bool := decide (0 < p) && decide (p < 1)

/-- Refuses what is no probability. -/
def checkProbability (name : String) (p : α) : Except (EngineError α) Unit :=
  if isProbability p then .ok () else .error (.invalidProbability name p)

/-- The distance at which a position is given up. -/
def stopLossDistance (volatility maxHoldingTime riskProbability : α) : α :=
  volatility * sqrt maxHoldingTime * Quantile.zScore riskProbability

/-- The stop-loss spread for a risk that is a probability. -/
def stopLossSpread (volatility maxHoldingTime riskProbability : α) : Except (EngineError α) α := do
  checkProbability "stopLossRiskProbability" riskProbability
  return stopLossDistance volatility maxHoldingTime riskProbability

/-- The first figure that no spread can be sized from. -/
def fault? (i : Input α) : Option (EngineError α) :=
  if !isProbability i.fillProbability then
    some (.invalidProbability "fillProbability" i.fillProbability)
  else if !isProbability i.stopLossRiskProbability then
    some (.invalidProbability "stopLossRiskProbability" i.stopLossRiskProbability)
  else if !isNonNegative i.volatility then some (.invalidParameter (.volatility i.volatility))
  else if !isNonNegative i.timeToRefresh then
    some (.invalidParameter (.timeToRefresh i.timeToRefresh))
  else if !isNonNegative i.maxHoldingTime then
    some (.invalidParameter (.maxHoldingTime i.maxHoldingTime))
  else if !isPositive i.profitFactor then
    some (.invalidParameter (.profitFactor i.profitFactor))
  else none

/-- The spreads for figures that passed every check. -/
def spreadsOf (i : Input α) : Spreads α :=
  let fillZScore := Quantile.zScore i.fillProbability
  let base := i.volatility * sqrt i.timeToRefresh * fillZScore
  let profit := base * i.profitFactor
  { bidSpread := base
    askSpread := base
    profitTakingLong := profit
    profitTakingShort := profit
    stopLoss := stopLossDistance i.volatility i.maxHoldingTime i.stopLossRiskProbability
    fillZScore
    stopLossZScore := Quantile.zScore i.stopLossRiskProbability }

/-- The spreads, or the first figure that stands in their way. -/
def compute (i : Input α) : Except (EngineError α) (Spreads α) :=
  match fault? i with
  | some e => .error e
  | none => .ok (spreadsOf i)

end MarketMaker.Sizing
