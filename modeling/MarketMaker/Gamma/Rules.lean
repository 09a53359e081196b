import MarketMaker.Bar
import MarketMaker.Failure
import MarketMaker.Gamma.State

/-!
# Risk aversion from the market regime

Three signals each scale a base risk aversion: high volatility by 1.2 and low by 0.8, a large
inventory by 1.3 and a small one by 0.9, a bullish trend by 0.9 and a bearish one by 1.1. The
product is moved into the bounds; one that is not finite gives way to the base.

A `Scheduler` binds the rule to one configuration and remembers its last answer for reports only.
-/

namespace MarketMaker.Gamma

open Scalar

variable {α : Type} [Scalar α]

/-- The thresholds and bounds of the rule. -/
structure Rules (α : Type) where
  /-- The risk aversion without any signal. -/
  baseGamma : α
  /-- The least risk aversion. -/
  gammaMin : α
  /-- The greatest risk aversion. -/
  gammaMax : α
  /-- Volatility above this raises risk aversion. -/
  highVolatility : α
  /-- Volatility below this lowers risk aversion. -/
  lowVolatility : α
  /-- A deviation above this raises risk aversion. -/
  highInventoryDeviation : α
  /-- A deviation below this lowers risk aversion. -/
  lowInventoryDeviation : α

/-- The rules that hold where nothing else is said. -/
def Rules.default : Rules α :=
  { baseGamma := 1
    gammaMin := 0.001
    gammaMax := 10
    highVolatility := 0.02
    lowVolatility := 0.005
    highInventoryDeviation := 0.3
    lowInventoryDeviation := 0.1 }

/-- The fields of rules. -/
def Rules.fields (r : Rules α) : List (String × Value α) :=
  [("baseGamma", .number r.baseGamma), ("gammaMin", .number r.gammaMin),
    ("gammaMax", .number r.gammaMax), ("highVolatility", .number r.highVolatility),
    ("lowVolatility", .number r.lowVolatility),
    ("highInventoryDeviation", .number r.highInventoryDeviation),
    ("lowInventoryDeviation", .number r.lowInventoryDeviation)]

/-- The signals that the rule looks at. -/
structure Signals (α : Type) where
  /-- Volatility over one day. -/
  volatility : α
  /-- How far the inventory is from its target. -/
  inventoryDeviation : α
  /-- Where prices are going. -/
  trend : Option Trend

namespace Rules

/-- The risk aversion scaled by how volatile the market is. -/
def scaledByVolatility (r : Rules α) (volatility gamma : α) : α :=
  if r.highVolatility < volatility then gamma * 1.2
  else if volatility < r.lowVolatility then gamma * 0.8
  else gamma

/-- The risk aversion scaled by how far the inventory is from its target. -/
def scaledByInventory (r : Rules α) (deviation gamma : α) : α :=
  if r.highInventoryDeviation < deviation then gamma * 1.3
  else if deviation < r.lowInventoryDeviation then gamma * 0.9
  else gamma

/-- The risk aversion scaled by the trend. -/
def scaledByTrend (trend : Option Trend) (gamma : α) : α :=
  match trend with
  | some .bullish => gamma * 0.9
  | some .bearish => gamma * 1.1
  | _ => gamma

/-- The base scaled by all three signals. -/
def product (r : Rules α) (s : Signals α) : α :=
  scaledByTrend s.trend
    (r.scaledByInventory (abs s.inventoryDeviation) (r.scaledByVolatility s.volatility r.baseGamma))

/-- The risk aversion for the signals. -/
def gamma (r : Rules α) (s : Signals α) : α :=
  let p := r.product s
  clamp (if isFinite p then p else r.baseGamma) r.gammaMin r.gammaMax

/-- Whether the signals can be computed with: every figure that is looked at has a text. -/
def canUse [NumberText α] (r : Rules α) (s : Signals α) : Bool :=
  [s.volatility, s.inventoryDeviation, r.baseGamma, r.gammaMin, r.gammaMax, r.highVolatility,
    r.highInventoryDeviation].all NumberText.hasText
  && (decide (r.highVolatility < s.volatility) || NumberText.hasText r.lowVolatility)
  && (decide (r.highInventoryDeviation < abs s.inventoryDeviation)
    || NumberText.hasText r.lowInventoryDeviation)

end Rules

/-- Whether bounds enclose only positive, finite numbers. -/
def validBounds (lower upper : α) : Bool :=
  decide (0 < lower) && decide (lower ≤ upper) && isFinite upper

/-- A rule with its last answer. -/
structure Scheduler (α : Type) where
  /-- The rule. -/
  rules : Rules α
  /-- Its last answer. -/
  lastGamma : α

namespace Scheduler

/-- A scheduler for rules with a positive base, valid bounds and volatility thresholds in order. -/
def create (r : Rules α) : Except (EngineError α) (Scheduler α) :=
  if !isPositive r.baseGamma then .error (.invalidRiskFactor r.baseGamma)
  else if !validBounds r.gammaMin r.gammaMax then
    .error (.invalidParameter (.gammaBounds r.gammaMin r.gammaMax))
  else if ¬ r.lowVolatility ≤ r.highVolatility then
    .error (.invalidParameter (.volatilityOrder r.lowVolatility r.highVolatility))
  else .ok ⟨r, clamp r.baseGamma r.gammaMin r.gammaMax⟩

/-- Answers the signals and remembers the answer. -/
def next (s : Scheduler α) (signals : Signals α) : Scheduler α :=
  { s with lastGamma := s.rules.gamma signals }

/-- The last answer and the bounds. -/
def state (s : Scheduler α) : State α :=
  ⟨s.lastGamma, s.rules.gammaMin, s.rules.gammaMax, .ruleAdaptive⟩

end Scheduler

end MarketMaker.Gamma
