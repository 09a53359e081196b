import MarketMaker.Bar
import MarketMaker.Decimal.Numeral
import MarketMaker.Failure
import MarketMaker.Interval
import MarketMaker.Mode
import MarketMaker.Symbol

/-!
# Reading flags

The values of command-line flags are texts. Each reader accepts the texts of one kind of flag and
names what is wrong with all others. Numeric flags are read by the numeral that they begin with.
-/

namespace MarketMaker.Command

/-- What is wrong with the value of a flag. -/
inductive FlagError where
  /-- There is no symbol. -/
  | symbolMissing
  /-- The symbol is not written as one. -/
  | symbolFormat (symbol : String)
  /-- The symbol is not read as a pair. -/
  | symbolUnreadable (symbol : String)
  /-- There is no interval of this name. -/
  | unknownInterval (name : String)
  /-- There is no mode of this name. -/
  | unknownMode (name : String)
  /-- The mode learns from trading, which the command does not do. -/
  | needsFeedback
  /-- The value does not begin with a number. -/
  | notANumber (flag : String)
  /-- The value is not above zero. -/
  | notPositive (flag : String)
  /-- There is no trend of this name. -/
  | unknownTrend (name : String)
  deriving DecidableEq, Repr

/-- The words for a wrong flag. -/
def FlagError.message : FlagError → String
  | symbolMissing => "Symbol is required"
  | symbolFormat s =>
    "Invalid symbol format: " ++ s ++ ". Expected: BTC/USDT, BTC_USDT or BTCUSDT"
  | symbolUnreadable s => Pair.unreadable s
  | unknownInterval s =>
    "Invalid interval: " ++ s ++ ". Valid intervals: "
      ++ String.intercalate ", " (Interval.all.map (·.name))
  | unknownMode s =>
    "Invalid mode: " ++ s ++ ". Valid modes: " ++ String.intercalate ", " (Mode.all.map (·.name))
  | needsFeedback =>
    "online_adaptive mode needs trading performance feedback, which the run command does not "
      ++ "provide. Use fixed, rule_adaptive or auto_optimize"
  | notANumber flag => flag ++ " must be a valid number"
  | notPositive flag => flag ++ " must be a positive number"
  | unknownTrend s => "Invalid trend: " ++ s ++ ". Valid trends: bullish, bearish, neutral"

/-- A wrong flag as a failure. -/
def FlagError.failure {α : Type} (e : FlagError) : Failure α := .foreign "Error" e.message {}

/-- Whether a character is a letter or digit of the basic Latin alphabet. -/
def isSymbolChar (c : Char) : Bool :=
  ('a' ≤ c && c ≤ 'z') || ('A' ≤ c && c ≤ 'Z') || ('0' ≤ c && c ≤ '9')

/-- Whether characters are one run of letters and digits, or two with one separator between. -/
def hasSymbolFormat (cs : List Char) : Bool :=
  !(cs.takeWhile isSymbolChar).isEmpty &&
    match cs.dropWhile isSymbolChar with
    | [] => true
    | separator :: quote =>
      Pair.separators.contains separator && !quote.isEmpty && quote.all isSymbolChar

/-- The trading pair of a flag, in standard form. -/
def readSymbol (symbol : String) : Except FlagError String :=
  if symbol.isEmpty then .error .symbolMissing
  else if !hasSymbolFormat symbol.toList then .error (.symbolFormat symbol)
  else
    match Pair.parse? symbol with
    | some p => .ok p.standard
    | none => .error (.symbolUnreadable symbol)

/-- The interval of a flag. -/
def readInterval (name : String) : Except FlagError Interval :=
  match Interval.ofName? name with
  | some i => .ok i
  | none => .error (.unknownInterval name)

/-- The mode of a flag, in any case. -/
def readMode (name : String) : Except FlagError Mode :=
  match Mode.ofName? (name.map Char.toLower) with
  | some m => .ok m
  | none => .error (.unknownMode name)

/-- Refuses the mode that learns from feedback, which a command cannot give. -/
def checkRunMode {α : Type} (m : Choice Mode α) : Except FlagError (Choice Mode α) :=
  if m.is .onlineAdaptive then .error .needsFeedback else .ok m

/-- The trend of a flag, if it was given. -/
def readTrend (name : Option String) : Except FlagError (Option Trend) :=
  match name with
  | none => .ok none
  | some name =>
    match Trend.ofName? name with
    | some t => .ok (some t)
    | none => .error (.unknownTrend name)

variable {α : Type} [Scalar α]

/-- The number of a flag. -/
def readNumber (text flag : String) : Except FlagError α :=
  let x : α := (Numeral.ofLeading text).value
  if Scalar.isNaN x then .error (.notANumber flag) else .ok x

/-- The number of a flag, which has to be above zero. -/
def readPositive (text flag : String) : Except FlagError α := do
  let x : α ← readNumber text flag
  if x ≤ 0 then throw (.notPositive flag)
  return x

/-- The number of a flag, if it was given. -/
def readOptional (text : Option String) (flag : String) : Except FlagError (Option α) :=
  match text with
  | none => .ok none
  | some text => (readNumber text flag).map some

end MarketMaker.Command
