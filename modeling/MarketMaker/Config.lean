import MarketMaker.Config.Setting
import MarketMaker.Failure
import MarketMaker.Gamma.Rules
import MarketMaker.Sizing
import MarketMaker.Value.Amount

/-!
# The configuration of the engine

`Config.parse` reads a configuration from a value of any shape. It proceeds in two steps.

* **Reading** looks at the settings one by one. A missing setting takes its default, a numeric
  setting accepts whatever can be read as a number, and every complaint about every setting is
  collected.
* **Validation** looks at the settings together: the risk factor, the two probabilities and the
  bounds of the risk aversion. Values that do not fit are refused, never moved.

A numeric setting is read by its text, so one that is given as something without a text ends the
reading at once.
-/

namespace MarketMaker

open Config

/-- A configuration of the engine. -/
structure Config (α : Type) where
  /-- The trading pair: a text, unless something else was put in its place. -/
  symbol : Value α
  /-- Where the risk aversion comes from. -/
  mode : Choice Mode α
  /-- The risk aversion: constant, or where the learner and the rule start from. -/
  riskFactor : α
  /-- The length of the bars that volatility is measured on. -/
  volatilityInterval : Choice Interval α
  /-- How many bars each cycle asks for. -/
  lookback : α
  /-- How long ticks wait after the start of a cycle that succeeded. -/
  updateIntervalSeconds : α
  /-- How long ticks wait after a failure. -/
  retryBackoffSeconds : α
  /-- How long a call to the source of bars may take. -/
  fetchTimeoutMs : α
  /-- The size of one step of the learner. -/
  learningRate : α
  /-- How many rewards the learner remembers. -/
  rewardWindow : α
  /-- The least risk aversion. -/
  gammaMin : α
  /-- The greatest risk aversion. -/
  gammaMax : α
  /-- The probability that the spreads are sized to be filled with. -/
  targetFillProbability : α
  /-- The probability that the stop loss is sized to be hit with. -/
  stopLossRiskProbability : α
  /-- How many spreads away a profit is taken. -/
  profitFactor : α
  /-- How long a position is held at most. -/
  maxHoldingTimeDays : α
  /-- The lifetime of an order. -/
  orderRefreshTimeSeconds : α
  /-- The horizon of the pricing model. -/
  timeHorizonSeconds : α
  /-- The least total spread, as a fraction of the mid price. -/
  minSpread : α
  /-- The weight of the bid side when the spread is split. -/
  orderAmountShapeFactor : α
  /-- How far a figure has to move, relative to its value, to be worth publishing. -/
  significantChangeThreshold : α

namespace Config

open Scalar

/-- The fields of a configuration. -/
def fields {α : Type} (c : Config α) : List (String × Value α) :=
  [("symbol", c.symbol), ("mode", c.mode.value), ("riskFactor", .number c.riskFactor),
    ("volatilityInterval", c.volatilityInterval.value), ("lookback", .number c.lookback),
    ("updateIntervalSeconds", .number c.updateIntervalSeconds),
    ("retryBackoffSeconds", .number c.retryBackoffSeconds),
    ("fetchTimeoutMs", .number c.fetchTimeoutMs), ("learningRate", .number c.learningRate),
    ("rewardWindow", .number c.rewardWindow), ("gammaMin", .number c.gammaMin),
    ("gammaMax", .number c.gammaMax), ("targetFillProbability", .number c.targetFillProbability),
    ("stopLossRiskProbability", .number c.stopLossRiskProbability),
    ("profitFactor", .number c.profitFactor), ("maxHoldingTimeDays", .number c.maxHoldingTimeDays),
    ("orderRefreshTimeSeconds", .number c.orderRefreshTimeSeconds),
    ("timeHorizonSeconds", .number c.timeHorizonSeconds), ("minSpread", .number c.minSpread),
    ("orderAmountShapeFactor", .number c.orderAmountShapeFactor),
    ("significantChangeThreshold", .number c.significantChangeThreshold)]

/-- Something read, with the issues found on the way. -/
structure Reading (β : Type) where
  /-- What was read. -/
  value : β
  /-- What was found on the way, in order. -/
  issues : List Issue

instance : Monad Reading where
  pure b := ⟨b, []⟩
  bind r f := ⟨(f r.value).value, r.issues ++ (f r.value).issues⟩

/-- A value that stands in for one with complaints. -/
def Reading.complain {β : Type} (s : Setting) (complaints : List Complaint) (value : β) :
    Reading β :=
  ⟨value, complaints.map fun c => ⟨s.name, c⟩⟩

variable {α : Type} [Scalar α]

/-- What a check has against a number. -/
def Check.complaint? (c : Check) (x : α) : Option Complaint :=
  match c with
  | .whole => if isWhole x then none else some .notWhole
  | .atLeast bound => if x < (bound : α) then some (.below bound) else none
  | .positive => if x ≤ 0 then some .notPositive else none

/-- Everything that the checks of a setting have against a number. A value that is no number is not
checked any further. -/
def complaints (s : Setting) (x : α) : List Complaint :=
  if isNaN x then [.wrongKind "number" "nan"] else s.checks.filterMap (·.complaint? x)

/-- One of a few named things. -/
def readChoice {β : Type} [Named β] (s : Setting) (default : β) (v : Value α) :
    Reading (Choice β α) :=
  let names := choices ((Named.all : List β).map Named.name)
  match v with
  | .undefined => pure (.known default)
  | .string name =>
    match Named.ofName? name with
    | some b => pure (.known b)
    | none => .complain s [.unknownChoice names name] (.given v)
  | .unpaired units => .complain s [.unknownChoice names (Text.spell units)] (.given v)
  | other => .complain s [.wrongKind names other.kind] (.given v)

/-- A text that is not empty. -/
def readText (s : Setting) (default : String) : Value α → Reading (Value α)
  | .undefined => pure default
  | .string text => if text.isEmpty then .complain s [.empty] text else pure text
  | .unpaired units => pure (.unpaired units)
  | other => .complain s [.wrongKind "string" other.kind] other

variable [NumberText α]

/-- A numeric setting. -/
def readNumber (s : Setting) : Value α → Reading α
  | .undefined => pure s.defaultNumber
  | given => .complain s (complaints s given.amount) given.amount

/-- A configuration from the fields of an object. -/
def read (input : Value α) : Reading (Config α) := do
  let number (s : Setting) : Reading α := readNumber s (input.get s.name)
  let symbol ← readText .symbol "BTC/USDT" (input.get Setting.symbol.name)
  let mode ← readChoice .mode .fixed (input.get Setting.mode.name)
  let riskFactor ← number .riskFactor
  let volatilityInterval ← readChoice .volatilityInterval .oneMinute
    (input.get Setting.volatilityInterval.name)
  let lookback ← number .lookback
  let updateIntervalSeconds ← number .updateIntervalSeconds
  let retryBackoffSeconds ← number .retryBackoffSeconds
  let fetchTimeoutMs ← number .fetchTimeoutMs
  let learningRate ← number .learningRate
  let rewardWindow ← number .rewardWindow
  let gammaMin ← number .gammaMin
  let gammaMax ← number .gammaMax
  let targetFillProbability ← number .targetFillProbability
  let stopLossRiskProbability ← number .stopLossRiskProbability
  let profitFactor ← number .profitFactor
  let maxHoldingTimeDays ← number .maxHoldingTimeDays
  let orderRefreshTimeSeconds ← number .orderRefreshTimeSeconds
  let timeHorizonSeconds ← number .timeHorizonSeconds
  let minSpread ← number .minSpread
  let orderAmountShapeFactor ← number .orderAmountShapeFactor
  let significantChangeThreshold ← number .significantChangeThreshold
  return {
    symbol, mode, riskFactor, volatilityInterval, lookback, updateIntervalSeconds,
    retryBackoffSeconds, fetchTimeoutMs, learningRate, rewardWindow, gammaMin, gammaMax,
    targetFillProbability, stopLossRiskProbability, profitFactor, maxHoldingTimeDays,
    orderRefreshTimeSeconds, timeHorizonSeconds, minSpread, orderAmountShapeFactor,
    significantChangeThreshold }

omit [NumberText α] in
/-- Whether the bounds of the risk aversion enclose only positive, finite numbers. -/
def hasValidBounds (c : Config α) : Bool := Gamma.validBounds c.gammaMin c.gammaMax

omit [NumberText α] in
/-- Whether the risk factor lies within the bounds. -/
def riskFactorWithin (c : Config α) : Bool :=
  !decide (c.riskFactor < c.gammaMin) && !decide (c.gammaMax < c.riskFactor)

omit [NumberText α] in
/-- Refuses settings that do not fit together. -/
def check (c : Config α) : Except (EngineError α) Unit := do
  if !isPositive c.riskFactor then throw (.invalidRiskFactor c.riskFactor)
  Sizing.checkProbability Setting.targetFillProbability.name c.targetFillProbability
  Sizing.checkProbability Setting.stopLossRiskProbability.name c.stopLossRiskProbability
  if !c.hasValidBounds then throw (.configuration (.gammaBounds c.gammaMin c.gammaMax))
  if !c.mode.is .fixed && !c.riskFactorWithin then
    throw (.configuration (.riskFactorOutside c.riskFactor c.gammaMin c.gammaMax c.mode))

omit [NumberText α] in
/-- The configuration, unless its settings do not fit together. -/
def validate (c : Config α) : Except (EngineError α) (Config α) := do
  c.check
  return c

/-- Whether every numeric setting among the fields of an object has a text to read it by. -/
def isReadable (input : Value α) : Bool :=
  Setting.all.all fun s => !s.isNumeric || (input.get s.name).hasText

/-- The configuration that a value describes. -/
def parse (input : Value α) : Except (Failure α) (Config α) :=
  match input with
  | .object _ =>
    if !isReadable input then .error .textless
    else
      let r := read input
      if r.issues.isEmpty then (validate r.value).mapError (·.failure)
      else .error (EngineError.configuration (.issues r.issues)).failure
  | .undefined => .error (EngineError.configuration (.issues [⟨"", .required⟩])).failure
  | other =>
    .error (EngineError.configuration (.issues [⟨"", .wrongKind "object" other.kind⟩])).failure

end Config

end MarketMaker
