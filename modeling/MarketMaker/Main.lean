import MarketMaker.Command.Program
import MarketMaker.Scalar.Binary64
import MarketMaker.Value.Binary64
import Std.Time.DateTime.Timestamp

/-!
# The command line

The outer layer: the words, the environment, the clock and the streams. The addresses that the
program asks for are written to the error stream, and each answer is read from the input as two
lines: the status with its phrase, and the body. The end of the input stops a running engine.
-/

namespace MarketMaker.Main

/-- The variables of the environment that the program looks at. -/
def watched : List String := Config.Setting.all.map (·.variableName) ++ ["LOG_LEVEL", "NODE_ENV"]

/-- The variables that are set. -/
def environment : IO (List (String × String)) :=
  watched.filterMapM fun name => do return (← IO.getEnv name).map fun v => (name, v)

/-- The longest delay of a timer, in milliseconds: a longer one is over after one millisecond. -/
def longestDelay : Float := 2147483647

/-- The milliseconds since the beginning of 1970. -/
def instant : IO Int := do return (← Std.Time.Timestamp.now).toMillisecondsSinceUnixEpoch.toInt

/-- The answer that two lines stand for. -/
def readResponse (head body : String) : Venue.Response :=
  let word := head.toList.takeWhile (· != ' ')
  { status := ((String.ofList word).toNat?).getD 0
    phrase := String.ofList ((head.toList.drop (word.length + 1)).filter (· != '\n'))
    body }

/-- Writes what the program wrote, and asks for what it asked for. -/
def display (p : Command.Program Float) : IO (Command.Program Float) := do
  (← IO.getStdout).putStr p.output.stdout
  (← IO.getStdout).flush
  (← IO.getStderr).putStr p.output.stderr
  for address in p.requests do
    (← IO.getStderr).putStrLn ("GET " ++ address)
  (← IO.getStderr).flush
  return p.looked

/-- Goes on until the program has ended. -/
partial def serve (answered : Nat) (p : Command.Program Float) : IO UInt32 := do
  let isBroken := !p.unhandled.isEmpty
  let p ← display p
  if isBroken then return 1
  if let some code := p.output.exit then return code.toUInt32
  if p.escape.isSome then return 1
  let time := Calendar.timeOfDay (← instant)
  if answered < p.asked then
    let input ← IO.getStdin
    let head ← input.getLine
    if head.isEmpty then
      match p.task with
      | .engine _ => serve p.asked ({ p with time }.signal "SIGTERM")
      | _ => return 1
    else
      serve (answered + 1)
        ({ p with time }.receive answered (.ok (readResponse head (← input.getLine))))
  else
    match p.due? with
    | none => return 0
    | some due =>
      let wait := Scalar.truncate due - (← instant)
      if 0 < wait then IO.sleep wait.toNat.toUInt32
      serve answered ({ p with time := Calendar.timeOfDay (← instant) }.fire due)

end MarketMaker.Main

/-- Runs the command that the words ask for. -/
def main (words : List String) : IO UInt32 := do
  let instant ← MarketMaker.Main.instant
  MarketMaker.Main.serve 0 (.start words (← MarketMaker.Main.environment)
    (MarketMaker.Calendar.timeOfDay instant) (Float.ofInt instant)
    (some MarketMaker.Main.longestDelay))
