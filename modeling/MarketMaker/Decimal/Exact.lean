/-!
# Exact values of binary numbers

A 64-bit binary number is taken apart into its sign, a whole mantissa and a power of two, so that
everything said about its decimal digits can be decided in whole-number arithmetic.

* `Exact.ofFloat` reads the bits.
* `Ratio` is a non-negative fraction of whole numbers, `Exact.ratio` the magnitude as one.
-/

namespace MarketMaker.Decimal

/-- A binary number without rounding: no number, an infinity, or `± mantissa · 2 ^ exponent`. -/
inductive Exact where
  /-- No number. -/
  | nan
  /-- An infinity. -/
  | infinite (negative : Bool)
  /-- A number. -/
  | finite (negative : Bool) (mantissa : Nat) (exponent : Int)
  deriving DecidableEq, Repr

/-- A non-negative fraction. -/
structure Ratio where
  /-- The numerator. -/
  num : Nat
  /-- The denominator, above zero wherever a fraction is built here. -/
  den : Nat
  deriving DecidableEq, Repr

namespace Ratio

/-- The fraction `digits · base ^ exponent`. -/
def scaled (digits base : Nat) (exponent : Int) : Ratio :=
  if exponent < 0 then ⟨digits, base.pow exponent.natAbs⟩
  else ⟨digits * base.pow exponent.toNat, 1⟩

/-- The fraction divided by `10 ^ exponent`. -/
def divPowTen (r : Ratio) (exponent : Int) : Ratio :=
  if exponent < 0 then ⟨r.num * Nat.pow 10 exponent.natAbs, r.den⟩
  else ⟨r.num, r.den * Nat.pow 10 exponent.toNat⟩

/-- The nearest whole number, the greater one when two are equally near. -/
def round (r : Ratio) : Nat := (2 * r.num + r.den) / (2 * r.den)

/-- Whether `10 ^ exponent` is at most the fraction. -/
def reaches (r : Ratio) (exponent : Int) : Bool :=
  let s := r.divPowTen exponent
  s.den ≤ s.num

/-- The exponent of the leading decimal digit of a fraction near `2 ^ log`: the logarithm gives it
up to one place, and the fraction decides. -/
def leadingExponent (r : Ratio) (log : Int) : Int :=
  let guess := Int.fdiv (log * 30103) 100000
  if r.reaches (guess + 1) then guess + 1 else if r.reaches guess then guess else guess - 1

end Ratio

namespace Exact

/-- The value that the bits of a 64-bit binary number stand for. -/
def ofFloat (x : Float) : Exact :=
  let bits := x.toBits.toNat
  let negative := bits / Nat.pow 2 63 == 1
  let field : Nat := bits / Nat.pow 2 52 % Nat.pow 2 11
  let fraction := bits % Nat.pow 2 52
  if field = 2047 then if fraction = 0 then .infinite negative else .nan
  else if field = 0 then .finite negative fraction (-1074)
  else .finite negative (Nat.pow 2 52 + fraction) (Int.ofNat field - 1075)

end Exact

end MarketMaker.Decimal
