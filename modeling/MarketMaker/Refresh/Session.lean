import MarketMaker.Refresh.Run

/-!
# A controller on a clock

A `Session` runs a controller with a clock, which is read or moved by hand. It arms the deadline of
each cycle when the cycle starts, remembers which calls to the source of bars still lack an answer,
and remembers who waits for what. `drain` takes every step that needs neither the clock nor an
answer, and tells those who waited.
-/

namespace MarketMaker.Refresh

/-- What somebody waits for. -/
inductive Awaited where
  /-- The end of a cycle, for its outcome. -/
  | outcome (cycle : Nat)
  /-- Nothing, after a stop. -/
  | skipped
  /-- The end of a stop, and before it of a cycle. -/
  | stopped (cycle : Option Nat)
  /-- The end of whatever is in flight. -/
  | idle (cycle : Option Nat)

/-- What somebody who waited is told. -/
inductive Told (α : Type) where
  /-- The outcome of a cycle. -/
  | outcome (outcome : Outcome α)
  /-- That the stop is over. -/
  | stopped
  /-- That nothing is in flight. -/
  | idle
  /-- What was waited for broke off. -/
  | broken (failure : Failure α)

/-- What somebody is told about a cycle that has ended. -/
def Told.of {α : Type} (otherwise : Told α) : Outcome α → Told α
  | .broken f => .broken f
  | _ => otherwise

/-- A controller on a clock. -/
structure Session (α : Type) where
  /-- What the controller works in. -/
  surroundings : Surroundings α
  /-- The controller. -/
  controller : Controller α
  /-- The time now. -/
  clock : α
  /-- When the deadline of the latest cycle passes. -/
  due : α
  /-- The longest delay that the clock can be set by; none for one that is moved by hand. -/
  longest : Option α := none
  /-- The calls without an answer, the oldest first. -/
  unanswered : List Nat := []
  /-- Those who wait, each with a number of their own. -/
  waiting : List (Nat × Awaited) := []
  /-- Those who have been told. -/
  told : List (Nat × Told α) := []
  /-- The cycles that a refresh was given. -/
  joined : List Nat := []

namespace Session

variable {α : Type} [Scalar α]

/-- A session that begins with a controller. -/
def begin (w : Surroundings α) (c : Controller α) (clock : α) (longest : Option α := none) :
    Session α :=
  { surroundings := w, controller := c, clock, due := clock, longest }

omit [Scalar α] in
/-- What a cycle came to, if it has just ended. -/
def ended? (c : Controller α) (number : Nat) : Option (Outcome α) :=
  c.trace.findSome? fun (_, o) =>
    match o with
    | .ended n outcome => if n = number then some outcome else none
    | _ => none

omit [Scalar α] in
/-- What somebody is told now. -/
def answer? (c : Controller α) : Awaited → Option (Told α)
  | .outcome n => (ended? c n).map fun outcome => .of (.outcome outcome) outcome
  | .skipped => some (.outcome .skipped)
  | .stopped none => some .stopped
  | .stopped (some n) => (ended? c n).map (.of .stopped)
  | .idle none => some .idle
  | .idle (some n) => (ended? c n).map (.of .idle)

omit [Scalar α] in
/-- Whether a call gets its answer later. -/
def answersLater (w : Surroundings α) (call : Nat) : Bool :=
  match w.reply call with
  | .later => true
  | .now _ => false

variable [NumberText α]

omit [NumberText α] in
/-- The session once a controller that may have started a cycle stands in for its own. -/
def after (s : Session α) (c : Controller α) : Session α :=
  if s.controller.cycles < c.cycles then
    { s with controller := c, due := s.clock + Request.delay c.config.fetchTimeoutMs s.longest }
  else { s with controller := c }

/-- A tick of the caller, who is answered with the published set, unless the tick fails. -/
def tick (now : α) (s : Session α) : Except (Failure α) Unit × Session α :=
  let (result, c) := s.controller.ticked now
  (result, s.after c)

/-- Somebody asks for a refresh. The flag tells whether its cycle was given to a refresh before. -/
def refresh (asker : Nat) (now : α) (s : Session α) : Bool × Session α :=
  match s.controller.refresh now with
  | (.skipped, _) => (false, { s with waiting := s.waiting ++ [(asker, .skipped)] })
  | (.cycle n, c) =>
    let s := { s.after c with waiting := s.waiting ++ [(asker, .outcome n)] }
    if s.joined.contains n then (true, s) else (false, { s with joined := n :: s.joined })

omit [Scalar α] [NumberText α] in
/-- Somebody stops the controller. -/
def stop (asker : Nat) (s : Session α) : Session α :=
  { s with
    controller := s.controller.stop s.surroundings
    waiting := s.waiting ++ [(asker, .stopped (s.controller.cycle.map (·.number)))] }

omit [Scalar α] [NumberText α] in
/-- Somebody waits until no cycle is in flight. -/
def whenIdle (asker : Nat) (s : Session α) : Session α :=
  { s with waiting := s.waiting ++ [(asker, .idle (s.controller.cycle.map (·.number)))] }

/-- The mode is switched, or refused. -/
def setMode (mode : Choice Mode α) (s : Session α) : Except (Failure α) Unit × Session α :=
  let (result, c) := s.controller.switched mode
  (result, { s with controller := c })

omit [Scalar α] [NumberText α] in
/-- The oldest call without an answer gets one. The flag tells whether there was such a call. -/
def answerOldest (a : Except (Failure α) (List (Bar α))) (s : Session α) : Bool × Session α :=
  match s.unanswered with
  | [] => (false, s)
  | n :: rest => (true, { s with controller := s.controller.answer n a, unanswered := rest })

/-- Takes every step that needs neither the clock nor an answer. -/
def drain (s : Session α) : Session α :=
  let c := s.controller.drain s.surroundings
  let made := (List.range c.calls.fetch).drop s.controller.calls.fetch
  let told := s.waiting.filterMap fun (asker, a) => (answer? c a).map fun t => (asker, t)
  { s with
    controller := c
    unanswered := s.unanswered ++ made.filter (answersLater s.surroundings)
    waiting := s.waiting.filter fun (_, a) => (answer? c a).isNone
    told := s.told ++ told }

omit [Scalar α] [NumberText α] in
/-- Whether a deadline lies ahead. -/
def isArmed (s : Session α) : Bool := (s.controller.cycle.map (·.request.armed)).getD false

/-- Moves the clock. A deadline on the way passes, and every step that follows from it is taken. -/
def advance (milliseconds : α) (s : Session α) : Session α :=
  let target := s.clock + milliseconds
  let passed :=
    if s.isArmed && decide (s.due ≤ target) then
      { s with clock := s.due, controller := s.controller.expire s.surroundings }.drain
    else s
  { passed with clock := target }

omit [Scalar α] [NumberText α] in
/-- The session once everything seen so far was read. -/
def read (s : Session α) : Session α :=
  { s with controller := { s.controller with trace := [] }, told := [] }

end Session

end MarketMaker.Refresh
