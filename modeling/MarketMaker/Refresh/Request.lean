import MarketMaker.Failure

/-!
# Requests with a deadline

A **request** is a call that may take long, guarded by a deadline and by its caller's wish to
cancel. The call is handed a signal, and the request comes to its **outcome** by whichever happens
first:

* the caller cancels: the signal is aborted and the outcome is a cancellation;
* the deadline passes: the signal is aborted and the outcome is a timeout;
* the call answers: the outcome is its value or its failure, which `Request.reported` turns into one
  of the engine's own.

What happens later is ignored: the request is **settled**. A failure that cannot be put in words is
lost, and leaves a request that is settled without an outcome. A call is made a moment after its
request has begun, so a caller that cancels in between finds it made with a signal that is aborted
already. It is not made at all when the caller had cancelled before, or when the deadline is nothing
that a clock can be set by. `Request.run` is a whole history.
-/

namespace MarketMaker.Refresh

variable {α β : Type}

/-- Where the call of a request stands. -/
inductive Call (α β : Type) where
  /-- It is about to be made. -/
  | due
  /-- It was made and has no answer yet. -/
  | waiting
  /-- Its answer is on the way. -/
  | answered (answer : Except (Failure α) β)
  /-- Nothing more comes of it. -/
  | over

/-- A guarded call. -/
structure Request (α β : Type) where
  /-- How far the call has come. -/
  call : Call α β
  /-- Whether the signal that the call is handed is aborted. -/
  aborted : Bool
  /-- Whether the deadline is still ahead. -/
  armed : Bool
  /-- Whether the request still listens to its caller. -/
  listening : Bool
  /-- Whether the request waits for nothing more. -/
  settled : Bool
  /-- What the request came to. -/
  outcome : Option (Except (Failure α) β)

namespace Request

/-- What can happen to a request. -/
inductive Event (α β : Type) where
  /-- The caller cancels it. -/
  | cancel
  /-- Its deadline passes. -/
  | expire
  /-- Its call is made. -/
  | make
  /-- Its call is answered. -/
  | answer (answer : Except (Failure α) β)
  /-- The answer arrives. -/
  | deliver

/-- A request that has just begun. -/
def begun : Request α β := ⟨.due, false, true, true, false, none⟩

/-- The request of a caller that had cancelled before: its call is never made. -/
def refused : Request α β := ⟨.over, true, false, false, true, some (.error (.cancelled {}))⟩

/-- The request whose deadline cannot be set: its call is never made. -/
def timeless : Request α β := ⟨.over, false, false, false, true, some (.error .textless)⟩

/-- Whether the request waits for its outcome. -/
def isOpen (r : Request α β) : Bool := !r.settled

/-- The first outcome stays, and ends the wait for the deadline. -/
def settle (outcome : Except (Failure α) β) (r : Request α β) : Request α β :=
  if r.isOpen then { r with settled := true, outcome := some outcome, armed := false } else r

/-- The request waits for nothing more, but has no outcome either, unless it had one. -/
def lose (r : Request α β) : Request α β :=
  if r.isOpen then { r with settled := true, armed := false } else r

/-- The request no longer listens to its caller. -/
def detach (r : Request α β) : Request α β := { r with listening := false }

/-- Aborts the signal. -/
def abort (r : Request α β) : Request α β := { r with aborted := true }

/-- The caller cancels. -/
def cancel (r : Request α β) : Request α β :=
  if r.listening then (r.abort.settle (.error (.cancelled {}))).detach else r

/-- The call is made. -/
def make (r : Request α β) : Request α β :=
  match r.call with
  | .due => { r with call := .waiting }
  | _ => r

/-- The call is answered; the answer is not there yet. -/
def answer (a : Except (Failure α) β) (r : Request α β) : Request α β :=
  match r.call with
  | .waiting => { r with call := .answered a }
  | _ => r

/-- How long a clock that is set by some milliseconds waits: one millisecond at least. A clock may
have a longest delay; one that is set by more waits for a millisecond only. -/
def delay [Scalar α] (milliseconds : α) (longest : Option α := none) : α :=
  if 1 ≤ milliseconds ∧ longest.all (fun most => decide (milliseconds ≤ most)) then
    Scalar.plain milliseconds
  else 1

variable [NumberText α]

/-- A request with a deadline after some milliseconds, of a caller that may have cancelled
before. -/
def start (milliseconds : α) (cancelled : Bool) : Request α β :=
  if !NumberText.hasText milliseconds then timeless else if cancelled then refused else begun

/-- The failure of a call as the request reports it: the engine's own failures as they are, any
other as the cause of a failed request. -/
def reported : Failure α → Failure α
  | .engine e labels => .engine e labels
  | other => (EngineError.provider (.requestFailed other)).failure

/-- Whether an answer can be reported. -/
def isReportable : Except (Failure α) β → Bool
  | .ok _ => true
  | .error f => f.hasWords

/-- The answer arrives and settles the request; one that cannot be reported is lost. -/
def receive (r : Request α β) : Request α β :=
  match r.call with
  | .answered a =>
    let r := { r with call := .over }
    if isReportable a then r.settle (a.mapError reported) else r.lose
  | _ => r

/-- Whether the answer on its way will be lost. -/
def isLosing (r : Request α β) : Bool :=
  match r.call with
  | .answered a => r.isOpen && !isReportable a
  | _ => false

/-- The answer arrives, and with it the request ends. -/
def deliver (r : Request α β) : Request α β :=
  match r.call with
  | .answered _ => r.receive.detach
  | _ => r

/-- The deadline, this many milliseconds after the beginning, settles the request. -/
def timeOut (milliseconds : α) (r : Request α β) : Request α β :=
  if r.armed then
    { r.abort with armed := false }.settle
      (.error (EngineError.providerTimeout milliseconds).failure)
  else r

/-- The deadline passes, and with it the request ends. -/
def expire (milliseconds : α) (r : Request α β) : Request α β :=
  if r.armed then (r.timeOut milliseconds).detach else r

/-- The request after an event. -/
def step (milliseconds : α) (r : Request α β) : Event α β → Request α β
  | .cancel => r.cancel
  | .expire => r.expire milliseconds
  | .make => r.make
  | .answer a => r.answer a
  | .deliver => r.deliver

/-- The request after a history of events. -/
def run (milliseconds : α) (r : Request α β) (history : List (Event α β)) : Request α β :=
  history.foldl (step milliseconds) r

end Request

end MarketMaker.Refresh
