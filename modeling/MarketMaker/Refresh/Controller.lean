import MarketMaker.Config
import MarketMaker.Gamma.Source
import MarketMaker.Log.ErrorEntry
import MarketMaker.Parameters
import MarketMaker.Pricing
import MarketMaker.Refresh.Request
import MarketMaker.Refresh.Surroundings

/-!
# The refresh controller

The controller decides when quoting parameters are computed anew and publishes them. It works in
**cycles** (fetch, compute, publish), one at a time.

* `tick` is called on every round of the caller. It starts a cycle when one is due, and answers with
  the published parameters either way.
* `refresh` starts a cycle at once, or joins the one in flight.
* `stop` abandons the request in flight, and no cycle starts after it.
* `setMode` switches the source of risk aversion.

A cycle that fails leaves the published parameters alone; the next attempt waits for the backoff. A
cycle in which something is thrown that cannot be put in words, where only words are left to be said
about it, breaks off with nothing done, and so does a failed cycle whose next attempt cannot be
dated. A tick at a time that cannot be compared fails itself. All that can be seen from outside is
written to the `trace`, in order, with the phase it happened in.
-/

namespace MarketMaker.Refresh

open Scalar

/-- What a controller is busy with. -/
inductive Phase where
  /-- Nothing. -/
  | idle
  /-- A cycle waits for its bars. -/
  | fetching
  /-- A cycle computes a set of parameters. -/
  | computing
  /-- A cycle compares and publishes its set. -/
  | publishing
  deriving DecidableEq, Repr

/-- The name of a phase. -/
def Phase.name : Phase → String
  | idle => "idle"
  | fetching => "fetching"
  | computing => "computing"
  | publishing => "publishing"

/-- What a cycle came to. -/
inductive Outcome (α : Type) where
  /-- A new set of parameters is published. -/
  | published
  /-- The new set was too close to the published one. -/
  | unchanged
  /-- The controller was stopped before. -/
  | skipped
  /-- The cycle was abandoned. -/
  | cancelled
  /-- The cycle failed. -/
  | failed (failure : Failure α)
  /-- The cycle broke off, and those who waited for it get this failure. -/
  | broken (failure : Failure α)

/-- When the next cycle may start. -/
structure Schedule (α : Type) where
  /-- How long ticks wait after the start of a cycle that succeeded. -/
  intervalSeconds : α
  /-- The time of the last cycle that succeeded. -/
  lastUpdate : Option α
  /-- After a failure, the time before which no tick starts a cycle. -/
  retryNotBefore : Option α

/-- A cycle in flight. -/
structure Cycle (α : Type) where
  /-- Its number, counted from zero. -/
  number : Nat
  /-- Whether a tick started it. -/
  ticked : Bool
  /-- When it started. -/
  startedAt : α
  /-- The guarded call for its bars. -/
  request : Request α (List (Bar α))
  /-- The number of its call to the source of bars, once made. -/
  call : Option Nat
  /-- What it came to, once it has run to its end. -/
  outcome : Option (Outcome α)

/-- What a callback got from calling the controller. -/
inductive Reentry (α : Type) where
  /-- The mode was set, or was refused. -/
  | switched (result : Except (Failure α) Unit)
  /-- The set that a tick answered with. -/
  | ticked (published : Option (Parameters α))

/-- Something seen from outside. -/
inductive Occurrence (α : Type) where
  /-- The source of bars was called, with a signal that was aborted already or not. -/
  | fetched (call : Nat) (aborted : Bool)
  /-- The signal of a call was aborted. -/
  | aborted (call : Nat)
  /-- The market was asked for, given this many bars. -/
  | marketAsked (bars : Nat)
  /-- How trading went was asked for. -/
  | performanceAsked
  /-- The listener was told of a new set. -/
  | published (record : ChangeRecord α) (parameters : Parameters α)
  /-- The listener was told of the floor. -/
  | clamped (event : Pricing.FloorClamp α)
  /-- The listener was told of a failure. -/
  | failed (failure : Failure α)
  /-- A callback got this from the controller. -/
  | reentered (result : Reentry α)
  /-- A line was logged. -/
  | logged (entry : Log.Entry α)
  /-- The answer to a request got lost, because of this failure. -/
  | lost (failure : Failure α)
  /-- A cycle is no longer in flight. -/
  | ended (cycle : Nat) (outcome : Outcome α)

/-- How often each callback was called. -/
structure Calls where
  /-- Calls for bars. -/
  fetch : Nat := 0
  /-- Calls for the state of the market. -/
  market : Nat := 0
  /-- Calls for how trading went. -/
  performance : Nat := 0
  /-- Listeners told of a new set. -/
  publish : Nat := 0
  /-- Listeners told of the floor. -/
  clamp : Nat := 0
  /-- Listeners told of a failure. -/
  failure : Nat := 0

/-- A controller. -/
structure Controller (α : Type) where
  /-- The configuration that it was built from. -/
  config : Config α
  /-- The tuning of its quotes. -/
  pricing : Pricing.Config α
  /-- Where its risk aversion comes from now. -/
  mode : Choice Mode α
  /-- The source of risk aversion; none in a mode without. -/
  source : Option (Gamma.Source α)
  /-- How often the source was replaced. -/
  switches : Nat := 0
  /-- When the next cycle may start. -/
  schedule : Schedule α
  /-- What it is doing. -/
  phase : Phase := .idle
  /-- The set in force, once there is one. -/
  published : Option (Parameters α) := none
  /-- How often the published set was replaced. -/
  publications : Nat := 0
  /-- The cycle in flight, if there is one. -/
  cycle : Option (Cycle α) := none
  /-- How many cycles were started. -/
  cycles : Nat := 0
  /-- Whether it was stopped. -/
  stopped : Bool := false
  /-- How many calls of `stop` wait for the cycle in flight. -/
  stopping : Nat := 0
  /-- How often each callback was called. -/
  calls : Calls := {}
  /-- What happened up to now, each with the phase that it happened in. -/
  trace : List (Phase × Occurrence α) := []

/-- What a call of `refresh` waits for. -/
inductive Ticket where
  /-- The end of this cycle. -/
  | cycle (number : Nat)
  /-- Nothing, after a stop. -/
  | skipped
  deriving DecidableEq, Repr

namespace Controller

variable {α : Type} [Scalar α] [NumberText α]

/-- The service that the controller logs for. -/
def service : String := "refresh-controller"

/-- What a source of risk aversion is built from. -/
def sourceSettings (c : Config α) : Gamma.SourceSettings α :=
  { riskFactor := c.riskFactor
    gammaMin := c.gammaMin
    gammaMax := c.gammaMax
    learner := { Gamma.LearnerConfig.default with
      learningRate := c.learningRate
      rewardWindow := c.rewardWindow }
    rules := .default }

/-- A controller for a configuration that holds together. -/
def create (config : Config α) : Except (Failure α) (Controller α) := do
  config.check.mapError (·.failure)
  let pricing ←
    (Pricing.Config.accept ⟨config.minSpread, config.orderAmountShapeFactor⟩).mapError (·.failure)
  checkUsable [config.updateIntervalSeconds]
  let source ← (Gamma.Source.create config.mode (sourceSettings config)).mapError (·.failure)
  return {
    config
    pricing
    mode := config.mode
    source
    schedule := ⟨config.updateIntervalSeconds, none, none⟩ }

omit [Scalar α] [NumberText α] in
/-- The controller after something was seen. -/
def note (o : Occurrence α) (c : Controller α) : Controller α :=
  { c with trace := c.trace ++ [(c.phase, o)] }

omit [Scalar α] [NumberText α] in
/-- The controller after a service logged some lines. -/
def logAll (entries : List (Log.Entry α)) (c : Controller α) : Controller α :=
  entries.foldl (fun c e => c.note (.logged e)) c

omit [Scalar α] [NumberText α] in
/-- The controller after a line of its own. -/
def log (level : Log.Level) (message : String) (context : List (String × Value α))
    (c : Controller α) : Controller α :=
  c.note (.logged ⟨service, level, message, some context⟩)

/-! ## Starting cycles -/

omit [Scalar α] in
/-- Starts a cycle, for a tick or for a refresh. -/
def start (ticked : Bool) (now : α) (c : Controller α) : Controller α :=
  { c with
    phase := .fetching
    cycle := some ⟨c.cycles, ticked, now, .start c.config.fetchTimeoutMs false, none, none⟩
    cycles := c.cycles + 1 }

omit [NumberText α] in
/-- Whether the time since the last success is shorter than the interval. -/
def withinInterval (now : α) (c : Controller α) : Bool :=
  match c.schedule.lastUpdate with
  | some last => decide (now - last < c.config.updateIntervalSeconds * 1000)
  | none => false

omit [NumberText α] in
/-- Whether a failure still holds back the next attempt. -/
def backsOff (now : α) (c : Controller α) : Bool :=
  match c.schedule.retryNotBefore with
  | some time => decide (now < time)
  | none => false

/-- Whether a tick starts a cycle, unless its time has to be compared and cannot be: first with the
last success, and where that does not hold it back, with the end of the backoff. -/
def isDue (now : α) (c : Controller α) : Except (Failure α) Bool := do
  checkUsable (c.schedule.lastUpdate.elim [] fun last => [now, last])
  if c.withinInterval now || c.cycle.isSome || c.stopped then return false
  checkUsable (c.schedule.retryNotBefore.elim [] fun time => [now, time])
  return !c.backsOff now

/-- One round of the caller, who is answered with `published`. -/
def tick (now : α) (c : Controller α) : Except (Failure α) (Controller α) :=
  (c.isDue now).map fun due => if due then c.start true now else c

/-- The controller after a tick that may have failed. -/
def ticked (now : α) (c : Controller α) : Except (Failure α) Unit × Controller α :=
  match c.tick now with
  | .ok after => (.ok (), after)
  | .error f => (.error f, c)

omit [Scalar α] in
/-- A cycle now, whatever the schedule. -/
def refresh (now : α) (c : Controller α) : Ticket × Controller α :=
  match c.cycle with
  | some y => (.cycle y.number, c)
  | none => if c.stopped then (.skipped, c) else (.cycle c.cycles, c.start false now)

/-! ## Stopping -/

omit [Scalar α] [NumberText α] in
/-- Changes the request in flight; an abort of a call already made is seen. -/
def onRequest (f : Request α (List (Bar α)) → Request α (List (Bar α))) (c : Controller α) :
    Controller α :=
  match c.cycle with
  | none => c
  | some y =>
    let after := { c with cycle := some { y with request := f y.request } }
    match y.call with
    | some n =>
      if (f y.request).aborted && !y.request.aborted then after.note (.aborted n) else after
    | none => after

omit [Scalar α] [NumberText α] in
/-- The number of the call whose request has no outcome yet. -/
def openCall? (c : Controller α) : Option Nat :=
  c.cycle.bind fun y => if y.request.isOpen then y.call else none

omit [Scalar α] [NumberText α] in
/-- Stops, and abandons the request in flight. -/
def halt (c : Controller α) : Controller α :=
  { c with stopped := true, stopping := c.stopping + 1 }.onRequest .cancel

omit [Scalar α] [NumberText α] in
/-- Changes the request in flight in a way that may settle it. Then the surroundings may stop the
controller, while the request still listens. -/
def settling (w : Surroundings α) (f : Request α (List (Bar α)) → Request α (List (Bar α)))
    (c : Controller α) : Controller α :=
  let after := c.onRequest f
  match c.openCall?, after.openCall? with
  | some n, none => if w.stopsOnSettling n then after.halt else after
  | _, _ => after

omit [Scalar α] [NumberText α] in
/-- Stops the controller; the call is over when no cycle is in flight any more. -/
def stop (w : Surroundings α) (c : Controller α) : Controller α :=
  { c with stopped := true, stopping := c.stopping + 1 }.settling w .cancel

/-! ## Switching modes -/

/-- Replaces the source of risk aversion by a fresh one for another mode. A mode that the
configuration does not fit changes nothing. -/
def setMode (mode : Choice Mode α) (c : Controller α) : Except (Failure α) (Controller α) := do
  let _ ← (Config.validate { c.config with mode }).mapError (·.failure)
  let source ← (Gamma.Source.create mode (sourceSettings c.config)).mapError (·.failure)
  return { c with source := source, mode := mode, switches := c.switches + 1 }.log .info
    "Parameter mode switched" [("mode", mode.value)]

/-- The controller after a switch that may have been refused. -/
def switched (mode : Choice Mode α) (c : Controller α) : Except (Failure α) Unit × Controller α :=
  match c.setMode mode with
  | .ok after => (.ok (), after)
  | .error e => (.error e, c)

/-! ## Callbacks -/

/-- A call that a callback makes into the controller. The callback looks into the refusal of a mode
by itself; a tick that fails is thrown on. -/
def perform (w : Surroundings α) (c : Controller α) :
    Action α → Except (Failure α) Unit × Controller α
  | .stop => (.ok (), c.stop w)
  | .setMode mode =>
    let (result, after) := c.switched mode
    (.ok (), after.note (.reentered (.switched result)))
  | .tick now =>
    match c.tick now with
    | .ok after => (.ok (), after.note (.reentered (.ticked after.published)))
    | .error f => (.error f, c)
  | .refresh now => (.ok (), (c.refresh now).2)

/-- The calls that a callback makes one after the other, up to the first that it throws on. -/
def performAll (w : Surroundings α) :
    List (Action α) → Controller α → Except (Failure α) Unit × Controller α
  | [], c => (.ok (), c)
  | a :: rest, c =>
    match c.perform w a with
    | (.ok (), after) => performAll w rest after
    | (.error f, after) => (.error f, after)

/-- What a callback returns or throws, and the controller after everything it does. -/
def react {β : Type} (w : Surroundings α) (r : Reaction α β) (c : Controller α) :
    Except (Failure α) β × Controller α :=
  let (performed, after) := c.performAll w r.actions
  (performed.bind fun () => r.result, after)

/-- A listener is told. What it throws is logged and goes no further, unless it cannot be put in
words. -/
def tell (w : Surroundings α) (r : Reaction α Unit) (c : Controller α) :
    Except (Failure α) Unit × Controller α :=
  match c.react w r with
  | (.ok (), after) => (.ok (), after)
  | (.error f, after) =>
    match f.toError with
    | .ok e =>
      (.ok (), after.note (.logged (Log.failureEntry service e [("context", "refresh listener")])))
    | .error e => (.error e, after)

end Controller

end MarketMaker.Refresh
