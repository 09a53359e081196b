import MarketMaker.Scalar

/-!
# Sample statistics

The mean and the spread of a list of observations, as the estimators use them. An empty list has
mean zero, and a single observation has no dispersion.
-/

namespace MarketMaker.Stats

open Scalar

variable {α : Type} [Scalar α]

/-- The sum, added up from the left starting at zero. -/
def sum (values : List α) : α := values.foldl (· + ·) 0

/-- The arithmetic mean, zero for no observations. -/
def mean (values : List α) : α :=
  if values.isEmpty then 0 else sum values / (values.length : α)

/-- The sum of the squared distances from `centre`. -/
def sumSquares (centre : α) (values : List α) : α :=
  values.foldl (fun acc v => acc + (v - centre) * (v - centre)) 0

/-- The sample standard deviation, with one degree of freedom spent on the mean. -/
def sampleDeviation (values : List α) : α :=
  if values.length < 2 then 0
  else sqrt (sumSquares (mean values) values / ((values.length - 1 : Nat) : α))

end MarketMaker.Stats
