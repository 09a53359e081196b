import MarketMaker.Proofs.Fields

/-!
# The reals as scalars

Read over `ℝ`, every formula of the engine is the formula of the model itself: sums and products are
exact, `sqrt` and `ln` are the square root and the natural logarithm, and a decimal literal is its
value.

Every real is finite, so a statement over `ℝ` is about finite figures. The two values that `Scalar`
asks for besides numbers have no counterpart here; `0` stands in for both, and no formula of finite
figures reads either.

The lemmas turn the literals and functions of `Scalar` into those of `ℝ`. What holds over every
ordered field, whatever its functions, holds over the reals (`Reals.instScalar_eq`).
-/

namespace MarketMaker

/-- The reals, with exact arithmetic. -/
noncomputable instance Reals.instScalar : Scalar ℝ where
  toAdd := inferInstance
  toSub := inferInstance
  toMul := inferInstance
  toDiv := inferInstance
  toNeg := inferInstance
  toNatCast := inferInstance
  toLT := inferInstance
  toLE := inferInstance
  ofDecimal digits negated exponent :=
    if negated then digits / 10 ^ exponent else digits * 10 ^ exponent
  sqrt := Real.sqrt
  ln := Real.log
  floor x := ⌊x⌋
  truncate x := if 0 ≤ x then ⌊x⌋ else ⌈x⌉
  isFinite _ := true
  nan := 0
  infinity := 0
  decLt := Real.decidableLT
  decLe := Real.decidableLE

namespace Reals

open Scalar

/-- The reals have their own root, logarithm and whole parts. -/
noncomputable abbrev functions : Functions ℝ where
  sqrt := Real.sqrt
  ln := Real.log
  floor x := ⌊x⌋
  truncate x := if 0 ≤ x then ⌊x⌋ else ⌈x⌉

/-- As scalars, the reals are an ordered field with these functions. -/
theorem instScalar_eq : @Fields.instScalar ℝ _ _ functions = instScalar := rfl

@[simp] theorem zero_eq : @OfNat.ofNat ℝ 0 (instOfNat 0) = 0 := Nat.cast_zero

@[simp] theorem one_eq : @OfNat.ofNat ℝ 1 (instOfNat 1) = 1 := Nat.cast_one

/-- A literal with a point is its digits over a power of ten. -/
@[simp] theorem decimal_eq (digits exponent : ℕ) :
    @OfScientific.ofScientific ℝ instOfScientific digits true exponent = digits / 10 ^ exponent :=
  rfl

@[simp] theorem sqrt_eq (x : ℝ) : Scalar.sqrt x = √x := rfl

@[simp] theorem ln_eq (x : ℝ) : Scalar.ln x = Real.log x := rfl

@[simp] theorem isFinite_eq (x : ℝ) : Scalar.isFinite x = true := rfl

@[simp] theorem abs_eq (x : ℝ) : Scalar.abs x = |x| := @Fields.abs_eq ℝ _ _ functions _ x

@[simp] theorem isPositive_iff {x : ℝ} : isPositive x = true ↔ 0 < x := by
  simp [isPositive]

@[simp] theorem isNonNegative_iff {x : ℝ} : isNonNegative x = true ↔ 0 ≤ x := by
  simp [isNonNegative]

end Reals

end MarketMaker
