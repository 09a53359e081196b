import MarketMaker.Command.Query
import MarketMaker.Refresh.Session
import MarketMaker.Terminal.Calendar

/-!
# The running engine

The command `run` keeps a refresh controller on a clock. A timer ticks it, its inventory and order
book come from the command line, and what it publishes, clamps or fails at is printed. A signal
stops the timer and the controller, and the program ends when the controller is idle.
-/

namespace MarketMaker.Command

variable {α : Type} [Scalar α] [NumberText α]

/-- What an engine is run with. -/
structure Figures (α : Type) where
  /-- The signed position relative to its target. -/
  inventory : α
  /-- How strongly orders arrive. -/
  alpha : α
  /-- How deep the order book is. -/
  kappa : α
  /-- The trend that the market is said to have. -/
  trend : Option Trend
  /-- The milliseconds between two ticks. -/
  period : α

/-- The figures of the command `run`. -/
def readFigures (a : Arguments) : Except FlagError (Figures α) := do
  let inventory : Option α ← readOptional (a.value? .inventory) "Inventory"
  let alpha ← readPositive (textOf a .alpha) "Alpha"
  let kappa ← readPositive (textOf a .kappa) "Kappa"
  let trend ← readTrend (a.value? .trend)
  let period ← readPositive (textOf a .tickPeriod) "Tick period"
  return ⟨inventory.getD 0, alpha, kappa, trend, period⟩

/-- The overrides of the command `run`. -/
def runOverrides (a : Arguments) : Except FlagError (List (String × Value α)) := do
  let symbol ← readSymbol (textOf a .symbol)
  let mode ← readGivenMode a .mode
  let interval ← readGivenInterval a .runInterval
  let update ← readOptional (a.value? .updateInterval) "Update interval"
  let riskFactor ← readOptional (a.value? .riskFactor) "Risk factor"
  let minSpread ← readOptional (a.value? .minSpread) "Min spread"
  return [overrideText .symbol (some symbol), overrideText .mode (mode.map (·.name)),
    overrideText .volatilityInterval (interval.map (·.name)),
    overrideNumber .updateIntervalSeconds update, overrideNumber .riskFactor riskFactor,
    overrideNumber .minSpread minSpread]

/-! ## What is printed -/

/-- The lines that an engine starts with. -/
def startLines (c : Config α) : List String :=
  ["🚀 Starting parameter engine", "Symbol: " ++ c.symbol.text, "Mode: " ++ c.mode.text,
    "Volatility interval: " ++ c.volatilityInterval.text,
    "Refresh every " ++ NumberText.text c.updateIntervalSeconds ++ "s"]

/-- The line about a change. -/
def changeLine (label : String) (c : Change α) : String :=
  "  " ++ Text.padEnd label 22 ++ " " ++ Terminal.percentOf c.previous ++ " → "
    ++ Terminal.percent c.current

/-- The lines about a publication at an instant. -/
def recordLines (instant : String) (r : ChangeRecord α) : List String :=
  let gamma := match r.gamma.current with
    | some g => NumberText.fixed 6 g
    | none => "-"
  let switched := match r.source.previous with
    | some m =>
      if m.isSame r.source.current then []
      else ["  source " ++ m.text ++ " → " ++ r.source.current.text]
    | none => []
  ["\n🔄 Parameters updated (" ++ instant ++ ")", changeLine "bid spread" r.bidSpread,
    changeLine "ask spread" r.askSpread, changeLine "long profit taking" r.profitTakingLong,
    changeLine "short profit taking" r.profitTakingShort, changeLine "stop loss" r.stopLoss]
  ++ switched ++
  ["  volatility " ++ Terminal.percent r.volatility.current 3 ++ " ("
    ++ r.volatilityInterval.current.text ++ "), gamma " ++ gamma ++ " [" ++ r.source.current.text
    ++ "]"]

/-- The text of the instant of a publication, if there is one. -/
def instantText? (r : ChangeRecord α) : Option String :=
  if Scalar.isFinite r.publishedAt then Calendar.isoText (Scalar.truncate r.publishedAt) else none

/-- The lines about something that was seen at a time of day. -/
def occurrenceLines (threshold : Log.Level) (time : String) : Refresh.Occurrence α → List String
  | .published r _ =>
    match instantText? r with
    | some instant => recordLines instant r
    | none => []
  | .clamped e =>
    [Terminal.warning ("Model spread " ++ NumberText.fixed 6 e.computedSpread ++ " below floor "
      ++ NumberText.fixed 6 e.floorSpread)]
  | .failed f => [Terminal.warning ("Refresh failed: " ++ f.message)]
  | .logged e => if e.passes (some threshold) then [e.line time] else []
  | _ => []

/-! ## The engine -/

/-- A refresh controller with a timer. -/
structure Engine (α : Type) where
  /-- The controller on its clock. -/
  session : Refresh.Session α
  /-- What every tick tells it of the market. -/
  figures : Figures α
  /-- When the timer ticks next; none once it is stopped. -/
  nextTick : Option α
  /-- Whether it was told to stop. -/
  stopping : Bool := false

namespace Engine

/-- What surrounds the controller at a time of the clock. Bars come from the network, later. -/
def surroundings (f : Figures α) (clock : α) : Refresh.Surroundings α :=
  { reply := fun _ => .later
    stopsOnSettling := fun _ => false
    market := fun _ bars => ⟨[], .ok {
      midPrice := lastClose bars
      inventory := f.inventory
      alpha := f.alpha
      kappa := f.kappa
      timestamp := clock
      trend := f.trend }⟩
    performance := none
    listeners := some {
      onPublish := fun _ r _ => ⟨[], match instantText? r with
        | some _ => .ok ()
        | none => .error (.foreign "RangeError" "Invalid time value" {})⟩
      onFloorClamp := fun _ _ => ⟨[], .ok ()⟩
      onFailure := fun _ _ => ⟨[], .ok ()⟩ } }

/-- The milliseconds between two ticks: one at least, and no more than the clock can be set by. -/
def period (f : Figures α) (longest : Option α) : α := Refresh.Request.delay f.period longest

/-- An engine with its first tick. -/
def start (c : Refresh.Controller α) (f : Figures α) (clock : α) (longest : Option α) : Engine α :=
  { session := ((Refresh.Session.begin (surroundings f clock) c clock longest).tick clock).2
    figures := f
    nextTick := some (clock + period f longest) }

/-- Takes every step that waits for nothing. -/
def drain (e : Engine α) : Engine α :=
  { e with
    session :=
      { e.session with surroundings := surroundings e.figures e.session.clock }.drain }

omit [NumberText α] in
/-- When the deadline of the request in flight passes, if there is one. -/
def deadline? (e : Engine α) : Option α := if e.session.isArmed then some e.session.due else none

omit [NumberText α] in
/-- Whether the next timer is the one that ticks: it comes first, also when both are due
together. -/
def ticksNext (e : Engine α) : Bool :=
  match e.nextTick, e.deadline? with
  | some t, some d => decide (t ≤ d)
  | some _, none => true
  | none, _ => false

omit [NumberText α] in
/-- When the next timer is due. -/
def due? (e : Engine α) : Option α := if e.ticksNext then e.nextTick else e.deadline?

/-- The next timer fires at its time. -/
def fire (time : α) (e : Engine α) : Engine α :=
  let session := { e.session with clock := time }
  if e.ticksNext then
    { e with
      session := (session.tick time).2
      nextTick := some (time + period e.figures session.longest) }
  else
    { e with
      session := { session with controller := session.controller.expire session.surroundings } }

/-- A signal arrives: the timer and the controller are stopped. -/
def shutDown (e : Engine α) : Engine α :=
  { e with session := e.session.stop 0, nextTick := none, stopping := true }

/-- Whether a stopped engine is idle. -/
def isOver (e : Engine α) : Bool := e.stopping && e.session.controller.stopping == 0

end Engine

end MarketMaker.Command
