import MarketMaker.Decimal.Layout
import MarketMaker.Failure
import MarketMaker.Terminal.Output

/-!
# Reports on the terminal

Notes, warnings, percentages and the report of a failure that ends the program.
-/

namespace MarketMaker.Terminal

/-- A line with a note. -/
def note (message : String) : String := "ℹ️  " ++ message

/-- A line with a warning. -/
def warning (message : String) : String := "⚠️  " ++ message

/-- A fraction as a percentage with a number of places. -/
def percent {α : Type} [Scalar α] [NumberText α] (x : α) (places : Nat := 4) : String :=
  NumberText.fixed places (x * 100) ++ "%"

/-- A fraction that may be missing as a percentage. -/
def percentOf {α : Type} [Scalar α] [NumberText α] (x : Option α) (places : Nat := 4) : String :=
  match x with
  | none => "-"
  | some x => percent x places

variable {α : Type} [Scalar α] [NumberText α]

/-- The code that the report of a failure shows: only the engine's own failures show theirs. -/
def shownCode? (f : Failure α) : Option (Value α) :=
  match f with
  | .engine .. => f.code?
  | _ => none

/-- The line about a failure: where it happened, its code when the engine reported it, and its
words. -/
def failureLine (f : Failure α) (context : Value α) : String :=
  let place := if context.isTruthy then " [" ++ context.text ++ "]" else ""
  let code := match shownCode? f with
    | some code => " (" ++ code.text ++ ")"
    | none => ""
  "❌ Error" ++ place ++ code ++ ": " ++ f.message

/-- Whether the line about a failure can be written. -/
def hasFailureLine (f : Failure α) (context : Value α) : Bool :=
  f.hasWords && (!context.isTruthy || context.hasText) && (shownCode? f).all (·.hasText)

/-- Reports a failure and ends the program. A developer also sees the trace of an error. -/
def reportFailure (o : Output) (f : Failure α) (context : Value α) (forDeveloper : Bool) :
    Except (Failure α) Output :=
  if !hasFailureLine f context then .error .textless
  else
    let o := o.printError (failureLine f context)
    let o :=
      if forDeveloper && f.name?.isSome && f.trace.isTruthy then o.printError f.trace.text else o
    .ok (o.quit 1)

end MarketMaker.Terminal
