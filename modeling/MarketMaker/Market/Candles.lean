import MarketMaker.Bar
import MarketMaker.Decimal.Numeral
import MarketMaker.Failure

/-!
# Candlesticks from the venue

The venue answers with a list of rows, one per bar and usually the newest first. The cells of a row
are texts, numbers or flags: time in seconds, quote volume, close, high, low, open and more.
`Candles.parse` turns the rows into bars, oldest first, and refuses the whole answer when one row
does not fit.
-/

namespace MarketMaker.Candles

open Scalar

variable {α : Type} [Scalar α]

/-- Whether a value can stand in a cell. -/
def isCell : Value α → Bool
  | .string _ => true
  | .unpaired _ => true
  | .number x => !isNaN x
  | .bool _ => true
  | _ => false

/-- The cells of a row: at least six of them. -/
def cells? : Value α → Option (List (Value α))
  | .array items => if 6 ≤ items.length && items.all isCell then some items else none
  | _ => none

/-- The rows of an answer. -/
def rows? : Value α → Option (List (List (Value α)))
  | .array items => items.mapM cells?
  | _ => none

/-- The number in a cell. -/
def cellNumber : Value α → α
  | .number x => x
  | .string s => (Numeral.ofLeading s).value
  | .unpaired units => (Numeral.ofLeading (Text.spell units)).value
  | _ => nan

/-- The cell in a column. -/
def cell (row : List (Value α)) (column : Nat) : Value α := (row[column]?).getD .undefined

/-- The bar of a row, whatever its numbers. -/
def barOf (row : List (Value α)) : Bar α :=
  { openTime := cellNumber (cell row 0) * 1000
    close := cellNumber (cell row 2)
    high := cellNumber (cell row 3)
    low := cellNumber (cell row 4)
    opening := cellNumber (cell row 5) }

/-- Whether every number of a bar is finite. -/
def isComplete (b : Bar α) : Bool :=
  isFinite b.openTime && isFinite b.opening && isFinite b.high && isFinite b.low && isFinite b.close

/-- The bar of a row whose numbers are all finite. -/
def readRow (row : List (Value α)) : Except (EngineError α) (Bar α) :=
  let b := barOf row
  if isComplete b then .ok b else .error (.provider (.badCandle row))

/-- Bars by the time they opened; bars of one time keep their order. -/
def chronological (bars : List (Bar α)) : List (Bar α) :=
  bars.mergeSort fun a b => decide (a.openTime ≤ b.openTime)

/-- The bars of an answer. -/
def parse (payload : Value α) : Except (EngineError α) (List (Bar α)) :=
  match rows? payload with
  | none => .error (.provider .badFormat)
  | some rows => (rows.mapM readRow).map chronological

end MarketMaker.Candles
