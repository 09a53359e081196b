import MarketMaker.Command.Engine
import MarketMaker.Command.Help
import MarketMaker.Command.Invocation

/-!
# The program

A `Program` is the command line at work: what it has written, which requests it has made, and what
it still does. `start` reads the words and the environment; `receive` hands it the answer to one of
its requests, `fire` lets its next timer fire, and `signal` asks it to end.
-/

namespace MarketMaker.Command

/-- What the program cannot go on after. -/
inductive Escape where
  /-- Help was shown where a command was needed. -/
  | help
  /-- A switch of the program is unknown. -/
  | unknownSwitch (message : String)
  deriving DecidableEq, Repr

/-- What the program still does. -/
inductive Task (α : Type) where
  /-- Nothing. -/
  | done
  /-- It waits for bars that answer a question. -/
  | query (q : Query α)
  /-- It runs an engine. -/
  | engine (e : Engine α)

/-- The command line at work. -/
structure Program (α : Type) where
  /-- The least severe level that is printed. -/
  threshold : Log.Level
  /-- The time of day that the lines of a log begin with. -/
  time : String
  /-- Whether failures are shown with their traces. -/
  forDeveloper : Bool
  /-- The name of the command at work. -/
  context : String := ""
  /-- What was written up to now. -/
  output : Terminal.Output := {}
  /-- The addresses asked for since they were last looked at. -/
  requests : List String := []
  /-- How many requests were made. -/
  asked : Nat := 0
  /-- What it cannot go on after, if it came to that. -/
  escape : Option Escape := none
  /-- The signals that were answered. -/
  signalled : List String := []
  /-- The failures since then that nobody took care of. -/
  unhandled : List (Failure α) := []
  /-- What is still to be done. -/
  task : Task α := .done

namespace Program

variable {α : Type} [Scalar α] [NumberText α]

omit [Scalar α] [NumberText α] in
/-- A failure that nobody takes care of. -/
def neglect (f : Failure α) (p : Program α) : Program α :=
  { p with unhandled := p.unhandled ++ [f] }

/-- A failure ends the program. One that cannot be reported is left to nobody. -/
def fail (f : Failure α) (p : Program α) : Program α :=
  match Terminal.reportFailure p.output f p.context p.forDeveloper with
  | .ok output => { p with output, task := .done }
  | .error f => { p with task := .done }.neglect f

omit [NumberText α] in
/-- Prints a line. -/
def print (p : Program α) (line : String) : Program α := { p with output := p.output.print line }

/-- Prints a line of a log, if its level is printed. -/
def log (entry : Log.Entry α) (p : Program α) : Program α :=
  if entry.passes (some p.threshold) then p.print (entry.line p.time) else p

/-- Makes a request for bars. -/
def ask (symbol : Value α) (interval : Choice Interval α) (lookback : α) (p : Program α) :
    Program α :=
  match Venue.request Venue.baseUrl symbol interval lookback with
  | .ok address => { p with requests := p.requests ++ [address], asked := p.asked + 1 }
  | .error (f : Failure α) => p.fail f

/-- Something seen at the controller is printed, or asks for bars, or is left to nobody. -/
def see (c : Config α) (p : Program α) (o : Refresh.Occurrence α) : Program α :=
  match o with
  | .fetched _ _ => p.ask c.symbol c.volatilityInterval c.lookback
  | .lost f => p.neglect f
  | other => (occurrenceLines p.threshold p.time other).foldl print p

/-- The engine takes every step that it can, and what is seen is printed. -/
def settle (e : Engine α) (p : Program α) : Program α :=
  let e := e.drain
  let p := (e.session.controller.trace.map (·.2)).foldl (see e.session.controller.config) p
  let e := { e with session := e.session.read }
  if e.isOver then { p with output := p.output.quit 0, task := .done }
  else { p with task := .engine e }

/-- Starts the command `run`. -/
def startEngine (c : Config α) (a : Arguments) (clock : α) (longest : Option α) (p : Program α) :
    Except (Failure α) (Program α) := do
  let _ ← (checkRunMode c.mode).mapError FlagError.failure
  let figures ← (readFigures a).mapError FlagError.failure
  let controller ← Refresh.Controller.create c
  return ((startLines c).foldl print p).settle (.start controller figures clock longest)

/-- Starts a question. -/
def startQuery (q : Query α) (p : Program α) : Program α :=
  { p with task := .query q }.ask q.symbol q.interval q.lookback

/-- The configuration of an environment with overrides. -/
def configure (environment : List (String × String))
    (overrides : Except FlagError (List (String × Value α))) : Except (Failure α) (Config α) := do
  Config.load environment (← overrides.mapError FlagError.failure)

/-- Starts a command. -/
def perform (environment : List (String × String)) (clock : α) (longest : Option α)
    (c : Subcommand) (a : Arguments) (p : Program α) : Except (Failure α) (Program α) :=
  if c.name == volatilityCommand.name then do
    return p.startQuery (← (volatilityQuery a).mapError FlagError.failure)
  else if c.name == optimizeCommand.name then do
    return p.startQuery (optimizeQuery (← configure environment (optimizeOverrides a)))
  else do
    p.startEngine (← configure environment (runOverrides a)) a clock longest

/-- What the program does first, on a clock that may have a longest delay. -/
def start (words : List String) (environment : List (String × String)) (time : String) (clock : α)
    (longest : Option α := none) : Program α :=
  let p : Program α :=
    { threshold := .ofSetting (environment.lookup "LOG_LEVEL")
      time
      forDeveloper := environment.lookup "NODE_ENV" == some "development" }
  let ended (o : Terminal.Output) : Program α := { p with output := o }
  match Invocation.read words with
  | .version => ended ((p.output.print programVersion).quit 0)
  | .help => ended ((p.output.write Help.program).quit 0)
  | .commandHelp c => ended ((p.output.write (Help.command c)).quit 0)
  | .helpCommand => { p with output := p.output.write Help.program, escape := some .help }
  | .nothing => { p with output := p.output.writeError Help.program, escape := some .help }
  | .unknownSwitch message =>
    { p with output := p.output.printError message, escape := some (.unknownSwitch message) }
  | .unknownCommand message =>
    ended ((((p.output.printError message).printError ("Unknown command: " ++ message)).print
      ("Run \"" ++ programName ++ " --help\" to see available commands")).quit 1)
  | .rejected message => ended ((p.output.printError message).quit 1)
  | .perform c a =>
    let p := { p with context := c.name }
    match p.perform environment clock longest c a with
    | .ok p => p
    | .error f => p.fail f

/-- The answer of the venue to the request of a number arrives. -/
def receive (request : Nat) (answer : Except (Failure α) Venue.Response) (p : Program α) :
    Program α :=
  let bars := answer.bind Venue.bars
  let logged (symbol : Value α) (interval : Choice Interval α) (lookback : α) : Program α :=
    match bars with
    | .ok bars => p.log (Venue.fetched symbol interval lookback bars.length)
    | .error _ => p
  match p.task with
  | .done => p
  | .query q =>
    let p := { logged q.symbol q.interval q.lookback with task := .done }
    match bars with
    | .error f => p.fail f
    | .ok bars =>
      match q.answer bars with
      | .error f => p.fail f
      | .ok write => { p with output := write p.output }
  | .engine e =>
    let c := e.session.controller.config
    (logged c.symbol c.volatilityInterval c.lookback).settle
      { e with
        session := { e.session with controller := e.session.controller.answer request bars } }

omit [NumberText α] in
/-- When the next timer is due, if there is one. -/
def due? (p : Program α) : Option α :=
  match p.task with
  | .engine e => e.due?
  | _ => none

/-- The next timer fires at its time. -/
def fire (time : α) (p : Program α) : Program α :=
  match p.task with
  | .engine e => p.settle (e.fire time)
  | _ => p

omit [NumberText α] in
/-- The clock is moved on, past no timer. -/
def moveClock (target : α) (p : Program α) : Program α :=
  match p.task with
  | .engine e => { p with task := .engine { e with session := { e.session with clock := target } } }
  | _ => p

/-- The signals that ask the program to end. -/
def signals : List String := ["SIGTERM", "SIGINT"]

/-- A signal asks the program to end. The program answers each signal once. -/
def signal (name : String) (p : Program α) : Program α :=
  match p.task with
  | .engine e =>
    if signals.contains name && !p.signalled.contains name then
      ({ p with signalled := name :: p.signalled }.print
        (Terminal.note (name ++ " received. Stopping parameter engine..."))).settle e.shutDown
    else p
  | _ => p

/-! ## A network that answers at once -/

/-- The answers of a network to requests, by their number; a request may stay without an answer. -/
abbrev Network (α : Type) := Nat → Option (Except (Failure α) Venue.Response)

/-- The network answers a request that was made after a count of them. -/
def respond (network : Network α) (before : Nat) (p : Program α) : Program α :=
  if before < p.asked then
    match network before with
    | some answer => p.receive before answer
    | none => p
  else p

/-- The program once a timer after the other has fired, up to some time or a count of them. -/
def fireAll (network : Network α) (target : α) : Nat → Program α → Program α
  | 0, p => p
  | fuel + 1, p =>
    match p.due? with
    | none => p
    | some time =>
      if time ≤ target then fireAll network target fuel ((p.fire time).respond network p.asked)
      else p

/-- The time of the clock, while there is one. -/
def clock? (p : Program α) : Option α :=
  match p.task with
  | .engine e => some e.session.clock
  | _ => none

/-- The program after some milliseconds. A timer period is a millisecond at least, so that no more
than two timers fire in each. -/
def advance (network : Network α) (milliseconds : α) (p : Program α) : Program α :=
  match p.clock? with
  | none => p
  | some now =>
    let target := now + milliseconds
    (p.fireAll network target (2 * (Scalar.truncate milliseconds).toNat + 4)).moveClock target

omit [Scalar α] [NumberText α] in
/-- The program once what it wrote and asked for was looked at. -/
def looked (p : Program α) : Program α :=
  { p with output := p.output.cleared, requests := [], unhandled := [] }

end Program

end MarketMaker.Command
