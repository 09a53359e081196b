import MarketMaker.Failure
import MarketMaker.Gamma.Rules
import MarketMaker.Log.Entry
import MarketMaker.Stats

/-!
# Risk aversion learnt from rewards

Each accepted sample earns a **reward**: the profit since the previous sample, less a penalty on
inventory, plus a bonus for spread efficiency. A reward above the mean of the rewards in the window
keeps the risk aversion moving the way it last moved, one below turns it around. One update moves it
by at most one learning-rate step, and never out of its bounds.

* A sample no newer than the last accepted one is ignored.
* A sample whose reward is not finite is discarded.
* The first reward sets the baseline and moves nothing.
-/

namespace MarketMaker.Gamma

open Scalar

variable {α : Type} [Scalar α]

/-- How the learner learns. -/
structure LearnerConfig (α : Type) where
  /-- The risk aversion that it starts with. -/
  initialGamma : α
  /-- The size of one step. -/
  learningRate : α
  /-- The least risk aversion. -/
  gammaMin : α
  /-- The greatest risk aversion. -/
  gammaMax : α
  /-- How many rewards the baseline remembers. -/
  rewardWindow : α
  /-- The penalty per unit of inventory deviation. -/
  inventoryPenalty : α
  /-- The reward per unit of spread efficiency. -/
  spreadEfficiencyWeight : α

/-- The configuration that holds where nothing else is said. -/
def LearnerConfig.default : LearnerConfig α :=
  { initialGamma := 1
    learningRate := 0.01
    gammaMin := 0.001
    gammaMax := 10
    rewardWindow := 100
    inventoryPenalty := 0.1
    spreadEfficiencyWeight := 0.05 }

/-- What the learner remembers. -/
structure Memory (α : Type) where
  /-- The profit of the last accepted sample. -/
  lastPnl : Option α
  /-- The deviation of the last accepted sample. -/
  lastInventoryDeviation : α
  /-- The rewards in the window, the oldest first. -/
  rewards : List α
  /-- How many samples were accepted. -/
  updateCount : α
  /-- The sign of the last step that moved the risk aversion. -/
  direction : α
  /-- When the last accepted sample was taken. -/
  lastUpdateAt : Option α
  /-- What else was handed over to be kept. -/
  extra : List (String × Value α) := []

/-- A memory of nothing. -/
def Memory.empty : Memory α := ⟨none, 0, [], 0, 1, none, []⟩

/-- The fields of a memory. -/
def Memory.fields (m : Memory α) : List (String × Value α) :=
  [("lastPnl", .ofOption m.lastPnl), ("lastInventoryDeviation", .number m.lastInventoryDeviation),
    ("rewardHistory", .array (m.rewards.map .number)), ("updateCount", .number m.updateCount),
    ("lastDirection", .number m.direction), ("lastUpdateAt", .ofOption m.lastUpdateAt)] ++ m.extra

/-- What happened since the last sample. -/
structure Sample (α : Type) where
  /-- The profit that was realized up to now. -/
  realizedPnl : α
  /-- How far the inventory is from its target. -/
  inventoryDeviation : α
  /-- Volatility over one day. -/
  volatility : α
  /-- The score of the quoted spread. -/
  spreadEfficiency : α
  /-- When the sample was taken. -/
  timestamp : α
  /-- The sample as it was told, where it was not in these words. -/
  told : Option (List (String × Value α)) := none

/-- The fields of a sample. -/
def Sample.fields (s : Sample α) : List (String × Value α) :=
  s.told.getD
    [("realizedPnl", .number s.realizedPnl), ("inventoryDeviation", .number s.inventoryDeviation),
      ("volatility", .number s.volatility), ("spreadEfficiency", .number s.spreadEfficiency),
      ("timestamp", .number s.timestamp)]

/-- A learner between two samples. -/
structure Learner (α : Type) where
  /-- How it learns. -/
  config : LearnerConfig α
  /-- The risk aversion that it has come to. -/
  gamma : α
  /-- What it remembers. -/
  memory : Memory α

/-- Figures about the rewards in the window. -/
structure Statistics (α : Type) where
  /-- The risk aversion that the learner has come to. -/
  currentGamma : α
  /-- The mean of the rewards. -/
  averageReward : α
  /-- Their standard deviation. -/
  rewardDeviation : α
  /-- How many samples were accepted. -/
  updateCount : α
  /-- How many rewards there are. -/
  historySize : Nat

/-- The fields of the figures. -/
def Statistics.fields (s : Statistics α) : List (String × Value α) :=
  [("currentGamma", .number s.currentGamma), ("averageReward", .number s.averageReward),
    ("rewardStdDev", .number s.rewardDeviation), ("updateCount", .number s.updateCount),
    ("historySize", .number (s.historySize : α))]

/-- The last rewards, as many as the window holds. -/
def latest (window : α) : List α → List α
  | [] => []
  | r :: rest => if window < ((rest.length + 1 : Nat) : α) then latest window rest else r :: rest

namespace Learner

/-- The service that the learner logs for. -/
def service : String := "online-gamma-learner"

/-- The first figure that a learner cannot work with. -/
def fault? (c : LearnerConfig α) : Option (EngineError α) :=
  if !validBounds c.gammaMin c.gammaMax then
    some (.invalidParameter (.gammaBounds c.gammaMin c.gammaMax))
  else if !isPositive c.initialGamma then some (.invalidRiskFactor c.initialGamma)
  else if !isNonNegative c.learningRate then
    some (.invalidParameter (.learningRate c.learningRate))
  else if !isWhole c.rewardWindow || decide (c.rewardWindow < 1) then
    some (.invalidParameter (.rewardWindow c.rewardWindow))
  else none

/-- The risk aversion that a learner starts from. -/
def startGamma (c : LearnerConfig α) : α := clamp c.initialGamma c.gammaMin c.gammaMax

/-- A learner with a memory to go on from. -/
def create (c : LearnerConfig α) (memory : Memory α := .empty) :
    Except (EngineError α) (Learner α) :=
  match fault? c with
  | some e => .error e
  | none => .ok ⟨c, startGamma c, memory⟩

/-- Whether the sample is no newer than the last accepted one. -/
def isStale (m : Memory α) (s : Sample α) : Bool :=
  match m.lastUpdateAt with
  | none => false
  | some last => decide (s.timestamp ≤ last)

/-- The reward of a sample. -/
def reward (c : LearnerConfig α) (m : Memory α) (s : Sample α) : α :=
  let profit := match m.lastPnl with
    | none => 0
    | some last => s.realizedPnl - last
  profit + -c.inventoryPenalty * abs s.inventoryDeviation
    + c.spreadEfficiencyWeight * s.spreadEfficiency

/-- The memory after a sample was accepted with a reward. -/
def remember (c : LearnerConfig α) (m : Memory α) (s : Sample α) (reward : α) : Memory α :=
  { m with
    lastPnl := filled? s.realizedPnl
    lastInventoryDeviation := s.inventoryDeviation
    rewards := latest c.rewardWindow (m.rewards ++ [reward])
    updateCount := m.updateCount + 1
    lastUpdateAt := filled? s.timestamp }

/-- The step that a reward asks for, compared with the rewards before it. -/
def step (c : LearnerConfig α) (m : Memory α) (reward : α) : α :=
  c.learningRate * sign (reward - Stats.mean m.rewards) * m.direction

/-- Moves the risk aversion by a step. -/
def move (l : Learner α) (step : α) : Learner α :=
  { l with
    gamma := clamp (l.gamma + step) l.config.gammaMin l.config.gammaMax
    memory := { l.memory with direction := if 0 < step then 1 else -1 } }

/-- The line about a discarded sample. -/
def discarded (s : Sample α) : Log.Entry α :=
  ⟨service, .warn, "Discarding learner sample with non-finite reward",
    some s.fields⟩

/-- The line about a moved risk aversion. -/
def moved (before after : Learner α) (reward baseline : α) : Log.Entry α :=
  ⟨service, .debug, "Gamma updated",
    some [("previous", .number before.gamma), ("gamma", .number after.gamma),
      ("reward", .number reward), ("baseline", .number baseline),
      ("direction", .number after.memory.direction)]⟩

/-- The learner after a sample, and what it logs. -/
def update (l : Learner α) (s : Sample α) : Learner α × List (Log.Entry α) :=
  if isStale l.memory s then (l, [])
  else
    let r := reward l.config l.memory s
    if !isFinite r then (l, [discarded s])
    else
      let next := { l with memory := remember l.config l.memory s r }
      let d := step l.config l.memory r
      if l.memory.rewards.isEmpty || same d 0 then (next, [])
      else
        let after := next.move d
        (after, [moved l after r (Stats.mean l.memory.rewards)])

/-- Whether a memory can be gone on with: the mean of its rewards, its count and, where there are
rewards, its direction have a text. -/
def canContinue [NumberText α] (m : Memory α) : Bool :=
  NumberText.hasText (Stats.mean m.rewards) && NumberText.hasText m.updateCount
    && (m.rewards.isEmpty || NumberText.hasText m.direction)

/-- Whether a sample can be computed with: nothing that decides what becomes of it is lost to a
figure without a text. -/
def canUse [NumberText α] (l : Learner α) (s : Sample α) : Bool :=
  let r := reward l.config l.memory s
  (l.memory.lastUpdateAt.all fun last => NumberText.hasText s.timestamp && NumberText.hasText last)
    && (isStale l.memory s || NumberText.hasText r && (!isFinite r || canContinue l.memory))

/-- Forgets all rewards and starts over. -/
def reset (l : Learner α) : Learner α := { l with gamma := startGamma l.config, memory := .empty }

/-- The risk aversion and its bounds. -/
def state (l : Learner α) : State α :=
  ⟨l.gamma, l.config.gammaMin, l.config.gammaMax, .onlineAdaptive⟩

/-- Figures about the rewards in the window. -/
def statistics (l : Learner α) : Statistics α :=
  { currentGamma := l.gamma
    averageReward := Stats.mean l.memory.rewards
    rewardDeviation := Stats.sampleDeviation l.memory.rewards
    updateCount := l.memory.updateCount
    historySize := l.memory.rewards.length }

end Learner

end MarketMaker.Gamma
