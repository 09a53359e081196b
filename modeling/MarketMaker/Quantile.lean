import MarketMaker.Scalar

/-!
# Quantiles of the standard normal distribution

`normalQuantile` approximates the inverse of the standard normal distribution function by rational
functions: one of `(p - 1/2)²` in the middle of the unit interval, one of `√(-2 ln p)` in each tail.
The relative error is below `1.2e-9`. Outside `(0, 1)` the formulas are applied all the same.
-/

namespace MarketMaker.Quantile

open Scalar

variable {α : Type} [Scalar α]

/-- A polynomial given by its coefficients, the highest power first. -/
def horner (coefficients : List α) (x : α) : α :=
  match coefficients with
  | [] => 0
  | c :: rest => rest.foldl (fun acc k => acc * x + k) c

/-- Numerator of the central approximation, in `(p - 1/2)²`. -/
def centralNumerator : List α :=
  [-3.969683028665376e1, 2.209460984245205e2, -2.759285104469687e2, 1.38357751867269e2,
    -3.066479806614716e1, 2.506628277459239]

/-- Denominator of the central approximation, in `(p - 1/2)²`. -/
def centralDenominator : List α :=
  [-5.447609879822406e1, 1.615858368580409e2, -1.556989798598866e2, 6.680131188771972e1,
    -1.328068155288572e1, 1]

/-- Numerator of the tail approximation, in `√(-2 ln p)`. -/
def tailNumerator : List α :=
  [-7.784894002430293e-3, -3.223964580411365e-1, -2.400758277161838, -2.549732539343734,
    4.374664141464968, 2.938163982698783]

/-- Denominator of the tail approximation, in `√(-2 ln p)`. -/
def tailDenominator : List α :=
  [7.784695709041462e-3, 3.224671290700398e-1, 2.445134137142996, 3.754408661907416, 1]

/-- Where the lower tail ends. -/
def lowerSeam : α := 0.02425

/-- Where the upper tail begins. -/
def upperSeam : α := 1 - lowerSeam

/-- The distance `√(-2 ln p)` at which the tail approximation is taken. -/
def tailDistance (p : α) : α := sqrt (-2 * ln p)

/-- The approximation in the lower tail, at distance `q`. -/
def lowerTail (q : α) : α := horner tailNumerator q / horner tailDenominator q

/-- The approximation in the upper tail, at distance `q`: the lower one mirrored. -/
def upperTail (q : α) : α := -horner tailNumerator q / horner tailDenominator q

/-- The central approximation at offset `q` from one half. -/
def central (q : α) : α :=
  let r := q * q
  horner centralNumerator r * q / horner centralDenominator r

/-- The point below which a standard normal variable falls with probability `p`. -/
def normalQuantile (p : α) : α :=
  if p < lowerSeam then lowerTail (tailDistance p)
  else if p ≤ upperSeam then central (p - 0.5)
  else upperTail (tailDistance (1 - p))

/-- How many standard deviations the quantile of `p` lies from the mean. -/
def zScore (p : α) : α := abs (normalQuantile p)

end MarketMaker.Quantile
