import Mathlib
import MarketMaker.Scalar

/-!
# Ordered fields as scalars

A formula that only adds, multiplies, divides and compares can be read over any ordered field, and
is exact there. What a formula does with its square roots and logarithms beyond that is left open:
`Functions` gives a field *some* functions of the names that scalars ask for, and no law about any
of them. A statement over all such fields and functions holds whatever the functions are.

Every number is finite, and `0` stands in for the two values that are none.
-/

namespace MarketMaker

/-- Some functions on the numbers of a field, with no law about them. -/
class Functions (K : Type) where
  sqrt : K → K
  ln : K → K
  floor : K → K
  truncate : K → ℤ

namespace Fields

variable {K : Type} [Field K] [LinearOrder K] [Functions K]

/-- An ordered field, with exact arithmetic and whatever functions. -/
scoped instance instScalar : Scalar K where
  toAdd := inferInstance
  toSub := inferInstance
  toMul := inferInstance
  toDiv := inferInstance
  toNeg := inferInstance
  toNatCast := inferInstance
  toLT := inferInstance
  toLE := inferInstance
  ofDecimal digits negated exponent :=
    if negated then digits / ((10 : ℕ) : K) ^ exponent else digits * ((10 : ℕ) : K) ^ exponent
  sqrt := Functions.sqrt
  ln := Functions.ln
  floor := Functions.floor
  truncate := Functions.truncate
  isFinite _ := true
  nan := 0
  infinity := 0
  decLt := inferInstance
  decLe := inferInstance

theorem zero_eq : @OfNat.ofNat K 0 (Scalar.instOfNat 0) = 0 := Nat.cast_zero

theorem one_eq : @OfNat.ofNat K 1 (Scalar.instOfNat 1) = 1 := Nat.cast_one

/-- A literal with a point is its digits over a power of ten. -/
theorem decimal_eq (digits exponent : ℕ) :
    @OfScientific.ofScientific K Scalar.instOfScientific digits true exponent =
      digits / 10 ^ exponent := rfl

theorem abs_eq [IsStrictOrderedRing K] (x : K) : Scalar.abs x = |x| := by
  rcases lt_or_ge x 0 with hx | hx
  · rw [abs_of_neg hx]
    exact if_pos (hx.trans_eq zero_eq.symm)
  · rw [abs_of_nonneg hx]
    exact if_neg (zero_eq.trans_le hx).not_gt

end Fields

end MarketMaker
