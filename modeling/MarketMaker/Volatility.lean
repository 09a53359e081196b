import MarketMaker.Bar
import MarketMaker.Failure
import MarketMaker.Interval
import MarketMaker.Stats

/-!
# Volatility

`Volatility.estimate` measures how much the close price moves: the sample deviation of the
close-to-close log returns, scaled to one day by the square root of the number of bars in a day.
Series of different intervals over the same market so give comparable figures.
-/

namespace MarketMaker.Volatility

open Scalar

variable {α : Type} [Scalar α]

/-- The days of a year. -/
def daysPerYear : α := 365.25

/-- A measured volatility. -/
structure Estimate (α : Type) where
  /-- The standard deviation of log returns over one day. -/
  value : α
  /-- The length of the bars that it was measured on. -/
  interval : Choice Interval α
  /-- How many log returns were measured. -/
  sampleCount : Nat
  /-- When it was measured. -/
  computedAt : α

/-- A volatility over one day, scaled to a year. -/
def annualize (daily : α) : α := daily * sqrt daysPerYear

/-- The logarithm of each close price relative to the one before. -/
def logReturns : List (Bar α) → List α
  | first :: second :: rest => ln (second.close / first.close) :: logReturns (second :: rest)
  | _ => []

/-- The first bar whose close price is not a positive number. -/
def badBar? (bars : List (Bar α)) : Option (Bar α) := bars.find? fun b => !isPositive b.close

variable [NumberText α]

/-- What is wrong with a bar whose close price is not a positive number. -/
def barFailure (b : Bar α) : Failure α :=
  match b.absence with
  | some absence => .unreadable absence "close"
  | none => (EngineError.invalidParameter (.closePrice b.close b.openTime)).failure

/-- What keeps a series from having a volatility: it is too short, or has a close price that is not
a positive number. -/
def failure? (bars : List (Bar α)) : Option (Failure α) :=
  if bars.length < 2 then some (EngineError.insufficientData 2 (bars.length : α)).failure
  else (badBar? bars).map barFailure

/-- How many bars make up a day, as a number; there is none for what is no interval. -/
def barsPerDay (i : Choice Interval α) : α :=
  match i.thing? with
  | some i => (i.periodsPerDay : α)
  | none => nan

/-- How many seconds one bar lasts. -/
def barSeconds (i : Choice Interval α) : α := ((secondsPerDay : Nat) : α) / barsPerDay i

/-- The volatility of a series without a fault. -/
def measure (bars : List (Bar α)) (interval : Choice Interval α) (computedAt : α) : Estimate α :=
  let returns := logReturns bars
  { value := Stats.sampleDeviation returns * sqrt (barsPerDay interval)
    interval
    sampleCount := returns.length
    computedAt }

/-- The volatility of a series of at least two bars with positive close prices. An interval is
looked up by its text. -/
def estimate (bars : List (Bar α)) (interval : Choice Interval α) (computedAt : α) :
    Except (Failure α) (Estimate α) :=
  match failure? bars with
  | some f => .error f
  | none =>
    if interval.value.hasText then .ok (measure bars interval computedAt) else .error .textless

end MarketMaker.Volatility
