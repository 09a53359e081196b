/-!
# Output on the terminal

A command writes lines on two streams and may end the program with a code. `Output` collects what
was written since it was last looked at; nothing follows an end.
-/

namespace MarketMaker.Terminal

/-- What was written, and whether the program has ended. -/
structure Output where
  /-- What was written to the standard output. -/
  stdout : String := ""
  /-- What was written to the standard error. -/
  stderr : String := ""
  /-- The exit code, once the program has ended. -/
  exit : Option Nat := none
  deriving DecidableEq, Repr

namespace Output

/-- Writes on the standard stream, unless the program has ended. -/
def write (o : Output) (text : String) : Output :=
  if o.exit.isSome then o else { o with stdout := o.stdout ++ text }

/-- Writes on the error stream, unless the program has ended. -/
def writeError (o : Output) (text : String) : Output :=
  if o.exit.isSome then o else { o with stderr := o.stderr ++ text }

/-- Writes a line on the standard stream. -/
def print (o : Output) (line : String) : Output := o.write (line ++ "\n")

/-- Writes a line on the error stream. -/
def printError (o : Output) (line : String) : Output := o.writeError (line ++ "\n")

/-- Ends the program; the first code stays. -/
def quit (o : Output) (code : Nat) : Output := { o with exit := o.exit <|> some code }

/-- The output with the written texts taken away. -/
def cleared (o : Output) : Output := { o with stdout := "", stderr := "" }

end Output

end MarketMaker.Terminal
