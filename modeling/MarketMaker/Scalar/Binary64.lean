import MarketMaker.Scalar

/-!
# Binary floating point as scalars

The engine runs on 64-bit binary floating point. A decimal is rounded to the nearest such number
with ties to the even neighbour; a decimal so large or so small that no digit of it matters is cut
short first, so that an exponent of a billion costs nothing.
-/

namespace MarketMaker

/-- The number nearest to `digits · 10 ^ ±exponent`. Beyond `10 ^ 310` all are infinite and below
`10 ^ -400` all are zero, whatever the exponent. -/
def binary64OfDecimal (digits : Nat) (negated : Bool) (exponent : Nat) : Float :=
  if digits = 0 then 0.0
  else
    let magnitude : Int :=
      (digits.log2 : Int) * 3 / 10 + if negated then -(exponent : Int) else exponent
    if 320 < magnitude then 1.0 / 0.0
    else if magnitude < -420 then 0.0
    else Float.ofScientific digits negated exponent

/-- The whole part of a number below `2 ^ 63` in magnitude; beyond it the nearest of the two
bounds. -/
def binary64Truncate (x : Float) : Int := if x.isFinite then x.toInt64.toInt else 0

instance : Scalar Float where
  natCast := Float.ofNat
  ofDecimal := binary64OfDecimal
  sqrt := Float.sqrt
  ln := Float.log
  floor := Float.floor
  truncate := binary64Truncate
  isFinite := Float.isFinite
  nan := 0.0 / 0.0
  infinity := 1.0 / 0.0
  decLt := fun a b => inferInstanceAs (Decidable (a < b))
  decLe := fun a b => inferInstanceAs (Decidable (a ≤ b))

end MarketMaker
