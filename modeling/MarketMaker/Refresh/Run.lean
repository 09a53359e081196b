import MarketMaker.Refresh.Cycle

/-!
# Runs of the controller

A run is a list of **events**. Some come from outside: the calls of the user, an answer of the
source of bars, a deadline that passes. The others are the steps that a cycle takes by itself, one
moment after the other:

* `make`: the source of bars is called;
* `deliver`: its answer arrives at the request;
* `resume`: the cycle goes on with the outcome of its request, to its end;
* `clear`: the cycle is no longer in flight, and all who wait for it learn what it came to;
* `release`: the calls of `stop` that waited are over.

Each does nothing while it is not its turn. Events may come in any order, and `drain` takes every
step that can be taken without waiting for anything outside.
-/

namespace MarketMaker.Refresh

namespace Controller

variable {α : Type} [Scalar α] [NumberText α]

omit [Scalar α] [NumberText α] in
/-- The answer of the source of bars to one of its calls. Only the cycle that made the call takes
it. -/
def answer (call : Nat) (a : Except (Failure α) (List (Bar α))) (c : Controller α) : Controller α :=
  match c.cycle with
  | some y => if y.call = some call then c.onRequest (.answer a) else c
  | none => c

omit [Scalar α] in
/-- The deadline of the request in flight passes. -/
def expire (w : Surroundings α) (c : Controller α) : Controller α :=
  (c.settling w (.timeOut c.config.fetchTimeoutMs)).onRequest fun r => if r.isOpen then
    r else r.detach

omit [Scalar α] [NumberText α] in
/-- The source of bars is called. -/
def make (w : Surroundings α) (c : Controller α) : Controller α :=
  match c.cycle with
  | none => c
  | some y =>
    match y.request.call with
    | .due =>
      let n := c.calls.fetch
      let request := match w.reply n with
        | .now a => y.request.make.answer a
        | .later => y.request.make
      { c with
        cycle := some { y with request, call := some n }
        calls := { c.calls with fetch := n + 1 } }.note (.fetched n y.request.aborted)
    | _ => c

omit [Scalar α] in
/-- The answer arrives at the request, or gets lost. -/
def deliver (w : Surroundings α) (c : Controller α) : Controller α :=
  let after := (c.settling w .receive).onRequest fun r => if r.isOpen then r else r.detach
  if c.cycle.any (·.request.isLosing) then after.note (.lost .textless) else after

/-- The cycle goes on with the outcome of its request. -/
def resume (w : Surroundings α) (c : Controller α) : Controller α :=
  match c.cycle with
  | none => c
  | some y =>
    match y.outcome, y.request.call, y.request.outcome with
    | some _, _, _ => c
    | none, .due, _ => c
    | none, _, none => c
    | none, _, some fetched =>
      let (outcome, after) := c.conclude w fetched y.startedAt
      { after with
        phase := .idle
        cycle := after.cycle.map fun y => { y with outcome := some outcome } }

/-- A cycle that broke off: the calls of `stop` that waited for it break off as well, and a tick
that began it leaves the failure to the log. -/
def abandon (y : Cycle α) (f : Failure α) (c : Controller α) : Controller α :=
  let c := { c with stopping := 0 }
  if y.ticked then
    c.note (.logged (Log.failureEntry service f [("context", "refresh cycle")]))
  else c

/-- A cycle that has run to its end is no longer in flight. -/
def clear (c : Controller α) : Controller α :=
  match c.cycle with
  | none => c
  | some y =>
    match y.outcome with
    | none => c
    | some (.broken f) => ({ c with cycle := none }.note (.ended y.number (.broken f))).abandon y f
    | some outcome => { c with cycle := none }.note (.ended y.number outcome)

omit [Scalar α] [NumberText α] in
/-- The calls of `stop` that waited are over. -/
def release (c : Controller α) : Controller α :=
  if c.cycle.isSome then c
  else
    (List.replicate c.stopping (Log.Entry.mk service .info "Refresh controller stopped"
      (some [("symbol", c.config.symbol)]))).foldl (fun c e => c.note (.logged e))
      { c with stopping := 0 }

/-- Every step that waits for nothing outside, in its order. -/
def drain (w : Surroundings α) (c : Controller α) : Controller α :=
  (((c.make w).deliver w).resume w).clear.release

end Controller

/-- What can happen to a controller. -/
inductive Event (α : Type) where
  /-- The scheduler ticks. -/
  | tick (now : α)
  /-- A refresh is asked for. -/
  | refresh (now : α)
  /-- It is told to stop. -/
  | stop
  /-- It is told where to take the risk aversion from. -/
  | setMode (mode : Choice Mode α)
  /-- A call for bars is answered. -/
  | answer (call : Nat) (answer : Except (Failure α) (List (Bar α)))
  /-- The deadline of its request passes. -/
  | expire
  /-- The call of its request is made. -/
  | make
  /-- The answer to its request arrives. -/
  | deliver
  /-- Its cycle goes on with what the request has come to. -/
  | resume
  /-- Its cycle is put away. -/
  | clear
  /-- Those who waited for the stop go on. -/
  | release

namespace Controller

variable {α : Type} [Scalar α] [NumberText α]

/-- The controller after an event. -/
def step (w : Surroundings α) (c : Controller α) : Event α → Controller α
  | .tick now => (c.ticked now).2
  | .refresh now => (c.refresh now).2
  | .stop => c.stop w
  | .setMode mode => (c.switched mode).2
  | .answer call a => c.answer call a
  | .expire => c.expire w
  | .make => c.make w
  | .deliver => c.deliver w
  | .resume => c.resume w
  | .clear => c.clear
  | .release => c.release

/-- The controller after a list of events. -/
def run (w : Surroundings α) (c : Controller α) (events : List (Event α)) : Controller α :=
  events.foldl (step w) c

end Controller

end MarketMaker.Refresh
