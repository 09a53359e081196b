import MarketMaker.Gamma.Efficiency
import MarketMaker.Gamma.Learner

/-!
# Sources of risk aversion

A **source** is one of the three ways to find a risk aversion, together with what it keeps from
cycle to cycle. `Source.resolve` asks it for the risk aversion of one cycle. The learner learns only
when there is a performance to learn from.
-/

namespace MarketMaker.Gamma

open Scalar

variable {α : Type} [Scalar α]

/-- A way to find a risk aversion. -/
inductive Source (α : Type) where
  /-- It is constant, and has bounds all the same. -/
  | fixed (gamma lowerBound upperBound : α)
  /-- It is learnt from how trading goes. -/
  | online (learner : Learner α)
  /-- It follows from a rule. -/
  | rules (scheduler : Scheduler α)

/-- What a source is built from. -/
structure SourceSettings (α : Type) where
  /-- The risk aversion that is constant or started from. -/
  riskFactor : α
  /-- The least risk aversion. -/
  gammaMin : α
  /-- The greatest risk aversion. -/
  gammaMax : α
  /-- The learner's own settings; risk aversion and bounds come from above. -/
  learner : LearnerConfig α
  /-- The rule's own settings; risk aversion and bounds come from above. -/
  rules : Rules α

/-- What a source is told about a cycle. -/
structure Context (α : Type) where
  /-- The state of the market. -/
  market : Market α
  /-- Volatility over one day. -/
  volatility : α
  /-- The time of the cycle. -/
  timestamp : α
  /-- The relative spread quoted now, if any. -/
  currentSpread : Option α
  /-- How trading went, if anyone keeps track of it. -/
  performance : Option (Performance α)

namespace Source

/-- Refuses a risk factor that is not a positive number. -/
def checkRiskFactor (s : SourceSettings α) : Except (EngineError α) Unit :=
  if isPositive s.riskFactor then .ok () else .error (.invalidRiskFactor s.riskFactor)

/-- The source for a mode; a mode without risk aversion has none, and neither has what is no mode,
but all want a risk factor. -/
def create (mode : Choice Mode α) (s : SourceSettings α) :
    Except (EngineError α) (Option (Source α)) :=
  match mode with
  | .known .autoOptimize | .given _ => do
    checkRiskFactor s
    return none
  | .known .fixed => do
    checkRiskFactor s
    return some (.fixed s.riskFactor s.gammaMin s.gammaMax)
  | .known .onlineAdaptive => do
    checkRiskFactor s
    let learner ← Learner.create { s.learner with
      initialGamma := s.riskFactor
      gammaMin := s.gammaMin
      gammaMax := s.gammaMax }
    return some (.online learner)
  | .known .ruleAdaptive => do
    checkRiskFactor s
    let scheduler ← Scheduler.create { s.rules with
      baseGamma := s.riskFactor
      gammaMin := s.gammaMin
      gammaMax := s.gammaMax }
    return some (.rules scheduler)

/-- The mode that the source serves. -/
def mode : Source α → Mode
  | fixed .. => .fixed
  | online _ => .onlineAdaptive
  | rules _ => .ruleAdaptive

/-- The sample that a cycle gives the learner. -/
def sampleOf (c : Context α) (p : Performance α) : Sample α :=
  { realizedPnl := p.realizedPnl
    inventoryDeviation := c.market.inventory
    volatility := c.volatility
    spreadEfficiency := spreadEfficiency (c.currentSpread.getD 0) c.volatility p.fillRatio
    timestamp := c.timestamp }

/-- The signals that a cycle gives the rule. -/
def signalsOf (c : Context α) : Signals α := ⟨c.volatility, c.market.inventory, c.market.trend⟩

/-- The current risk aversion. -/
def gamma : Source α → α
  | fixed g _ _ => g
  | online l => l.gamma
  | rules s => s.lastGamma

/-- The source after a cycle, and what it logs. -/
def next (s : Source α) (c : Context α) : Source α × List (Log.Entry α) :=
  match s with
  | fixed g lower upper => (.fixed g lower upper, [])
  | online l =>
    match c.performance with
    | none => (.online l, [])
    | some p =>
      let (l, log) := l.update (sampleOf c p)
      (.online l, log)
  | rules r => (.rules (r.next (signalsOf c)), [])

/-- Whether what a cycle tells the source can be computed with. The spread is scored before the
learner looks at anything. -/
def canUse [NumberText α] (s : Source α) (c : Context α) : Bool :=
  match s, c.performance with
  | fixed .., _ => true
  | online _, none => true
  | online l, some p =>
    [c.currentSpread.getD 0, c.volatility].all NumberText.hasText && l.canUse (sampleOf c p)
  | rules r, _ => r.rules.canUse (signalsOf c)

/-- The risk aversion for a cycle, the source after it, and what the source logs. -/
def resolve (s : Source α) (c : Context α) : α × Source α × List (Log.Entry α) :=
  let (after, log) := s.next c
  (after.gamma, after, log)

/-- The risk aversion and its bounds. A constant one stretches the bounds when it lies outside. -/
def state : Source α → State α
  | fixed g lower upper => ⟨g, least lower g, greatest upper g, .fixed⟩
  | online l => l.state
  | rules s => s.state

end Source

end MarketMaker.Gamma
