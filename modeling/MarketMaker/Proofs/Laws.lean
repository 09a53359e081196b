import Mathlib
import MarketMaker.Scalar

/-!
# Laws of arithmetic with infinities

Running the engine rounds, overflows, and meets values that are not a number. `LawfulScalar`
collects what can be relied on all the same, for binary floating point and for exact arithmetic
alike.

* A value **is a number** when it is at least itself. Numbers are totally ordered, finite or not.
* A sum or a difference of two numbers is a number unless both are infinite; a product unless one
  factor is infinite and the other is zero; a quotient unless both are infinite or the divisor is
  zero.
* What lies between two finite numbers is finite, and so is the number of entries of a list.

From the order alone, `clamp` moves a number into its bounds and leaves it where it was when it lies
within them.

`StrictScalar` adds what holds where every scalar is a number, and none only counts as one. There a
sum or a difference is finite only if both of its parts are, and the **distance** of a number from
zero is positive unless it is zero. `AbsorbingScalar` says the same of products and opposites.
-/

namespace MarketMaker

open Scalar

/-- A value that is a number, finite or not. -/
def Scalar.IsNumber {α : Type} [Scalar α] (x : α) : Prop := x ≤ x

/-- One, with either sign. -/
def Scalar.IsSign {α : Type} [Scalar α] (x : α) : Prop := x = 1 ∨ x = -1

/-- Scalars with the laws that rounding and overflow leave. -/
class LawfulScalar (α : Type) [Scalar α] : Prop where
  plain_eq (x : α) : plain x = x
  same_iff (x y : α) : same x y = true ↔ x ≤ y ∧ y ≤ x
  le_trans {x y z : α} : x ≤ y → y ≤ z → x ≤ z
  /-- Only numbers can be compared. -/
  isNumber_of_le {x y : α} : x ≤ y → IsNumber x ∧ IsNumber y
  le_total {x y : α} : IsNumber x → IsNumber y → x ≤ y ∨ y ≤ x
  lt_iff {x y : α} : x < y ↔ x ≤ y ∧ ¬ y ≤ x
  isNumber_of_isFinite {x : α} : isFinite x = true → IsNumber x
  isFinite_of_between {x y z : α} : isFinite x = true → isFinite z = true → x ≤ y →
    y ≤ z → isFinite y = true
  isFinite_one : isFinite (1 : α) = true
  isFinite_neg_one : isFinite (-1 : α) = true
  zero_lt_one : (0 : α) < 1
  neg_one_lt_zero : (-1 : α) < 0
  isNumber_add {x y : α} : IsNumber x → IsNumber y → isFinite x = true ∨ isFinite y = true →
    IsNumber (x + y)
  isNumber_sub {x y : α} : IsNumber x → IsNumber y → isFinite x = true ∨ isFinite y = true →
    IsNumber (x - y)
  isNumber_mul_of_isFinite {x y : α} : isFinite x = true → isFinite y = true → IsNumber (x * y)
  isNumber_mul_of_ne_zero {x y : α} : IsNumber x → isFinite y = true → same y 0 = false →
    IsNumber (x * y)
  isNumber_div {x y : α} : IsNumber x → isFinite y = true → 0 < y → IsNumber (x / y)
  /-- Zero times a finite number is zero. -/
  mul_same_zero {x y : α} : isFinite x = true → isFinite y = true →
    same x 0 = true ∨ same y 0 = true → same (x * y) 0 = true
  zero_lt_natCast (n : Nat) : (0 : α) < ((n + 1 : Nat) : α)
  /-- The entries of a list that fits into memory can be counted. -/
  isFinite_natCast {n : Nat} : n < 2 ^ 64 → isFinite (n : α) = true

namespace LawfulScalar

variable {α : Type} [Scalar α] [LawfulScalar α] {x y lower upper : α}

/-! ## Order -/

theorem isNaN_eq_false_iff : isNaN x = false ↔ IsNumber x := by
  simp [isNaN, plain_eq, IsNumber]

theorem le_of_lt (h : x < y) : x ≤ y := (lt_iff.mp h).1

theorem not_le_of_lt (h : x < y) : ¬ y ≤ x := (lt_iff.mp h).2

/-- Of two numbers one is below the other, or at least as great. -/
theorem le_of_not_lt (hx : IsNumber x) (hy : IsNumber y) (h : ¬ x < y) : y ≤ x := by
  rcases le_total hx hy with hle | hle
  · refine Decidable.byContradiction fun hnot => h (lt_iff.mpr ⟨hle, hnot⟩)
  · exact hle

theorem lt_of_lt_of_le {z : α} (h : x < y) (hle : y ≤ z) : x < z :=
  lt_iff.mpr ⟨le_trans (le_of_lt h) hle, fun hge => not_le_of_lt h (le_trans hle hge)⟩

theorem lt_of_le_of_lt {z : α} (hle : x ≤ y) (h : y < z) : x < z :=
  lt_iff.mpr ⟨le_trans hle (le_of_lt h), fun hge => not_le_of_lt h (le_trans hge hle)⟩

theorem isNumber_zero : IsNumber (0 : α) := (isNumber_of_le (le_of_lt zero_lt_one)).1

theorem isFinite_zero : isFinite (0 : α) = true :=
  isFinite_of_between isFinite_neg_one isFinite_one (le_of_lt neg_one_lt_zero)
    (le_of_lt zero_lt_one)

theorem isNumber_natCast (n : Nat) : IsNumber (n : α) := by
  cases n with
  | zero => exact isNumber_zero
  | succ n => exact (isNumber_of_le (le_of_lt (zero_lt_natCast n))).2

theorem same_eq_false_of_lt (h : x < y) : same x y = false := by
  rw [← Bool.not_eq_true, same_iff]
  exact fun ⟨_, hle⟩ => not_le_of_lt h hle

theorem same_eq_false_of_gt (h : y < x) : same x y = false := by
  rw [← Bool.not_eq_true, same_iff]
  exact fun ⟨hle, _⟩ => not_le_of_lt h hle

/-- A number that is neither above zero nor below it is zero. -/
theorem same_zero_of_not_lt (hx : IsNumber x) (hpos : ¬ 0 < x) (hneg : ¬ x < 0) : same x 0 = true :=
  (same_iff x 0).mpr ⟨le_of_not_lt isNumber_zero hx hpos, le_of_not_lt hx isNumber_zero hneg⟩

/-! ## The functions of the order -/

theorem greatest_eq (hx : IsNumber x) (hy : IsNumber y) :
    greatest x y = if x < y then y else x := by
  simp [greatest, plain_eq, isNaN_eq_false_iff.mpr hx, isNaN_eq_false_iff.mpr hy]

theorem least_eq (hx : IsNumber x) (hy : IsNumber y) : least x y = if y < x then y else x := by
  simp [least, plain_eq, isNaN_eq_false_iff.mpr hx, isNaN_eq_false_iff.mpr hy]

theorem least_le_right (hx : IsNumber x) (hy : IsNumber y) : least x y ≤ y := by
  rw [least_eq hx hy]
  by_cases h : y < x
  · rw [if_pos h]
    exact hy
  · rw [if_neg h]
    exact le_of_not_lt hy hx h

theorem right_le_greatest (hx : IsNumber x) (hy : IsNumber y) : y ≤ greatest x y := by
  rw [greatest_eq hx hy]
  by_cases h : x < y
  · rw [if_pos h]
    exact hy
  · rw [if_neg h]
    exact le_of_not_lt hx hy h

/-- A number that is moved into its bounds lies between them. It goes up no further than the lower
bound, and down no further than the upper one. -/
theorem clamp_spec (h : lower ≤ upper) (hx : IsNumber x) :
    lower ≤ clamp x lower upper ∧ clamp x lower upper ≤ upper ∧
      (clamp x lower upper ≤ x ∨ clamp x lower upper ≤ lower) ∧
      (x ≤ clamp x lower upper ∨ upper ≤ clamp x lower upper) := by
  obtain ⟨hlower, hupper⟩ := isNumber_of_le h
  rw [clamp, greatest_eq hlower hx]
  by_cases hbelow : lower < x
  · rw [if_pos hbelow, least_eq hupper hx]
    by_cases habove : x < upper
    · rw [if_pos habove]
      exact ⟨le_of_lt hbelow, le_of_lt habove, .inl hx, .inl hx⟩
    · rw [if_neg habove]
      exact ⟨h, hupper, .inl (le_of_not_lt hx hupper habove), .inr hupper⟩
  · have hle := le_of_not_lt hlower hx hbelow
    rw [if_neg hbelow, least_eq hupper hlower]
    by_cases hproper : lower < upper
    · rw [if_pos hproper]
      exact ⟨hlower, h, .inr hlower, .inl hle⟩
    · -- The bounds are one, and which of the two it is makes no difference.
      rw [if_neg hproper]
      exact ⟨h, hupper, .inr (le_of_not_lt hlower hupper hproper), .inl (le_trans hle h)⟩

/-- Of two numbers the greater one is moved to where the other one is, or beyond it. -/
theorem clamp_le_clamp (h : lower ≤ upper) (hle : x ≤ y) :
    clamp x lower upper ≤ clamp y lower upper := by
  obtain ⟨hx, hy⟩ := isNumber_of_le hle
  obtain ⟨-, hmost, hdown, -⟩ := clamp_spec h hx
  obtain ⟨hleast, -, -, hup⟩ := clamp_spec h hy
  rcases hdown with hdown | hdown
  · rcases hup with hup | hup
    · exact le_trans hdown (le_trans hle hup)
    · exact le_trans hmost hup
  · exact le_trans hdown hleast

/-- What was moved into the bounds stays where it is when it is moved into them again. This holds of
the value itself, even where other values are the same number, and of what is no number as well. -/
theorem clamp_clamp (h : lower ≤ upper) (x : α) :
    clamp (clamp x lower upper) lower upper = clamp x lower upper := by
  obtain ⟨hlower, hupper⟩ := isNumber_of_le h
  have hirrefl (y : α) : ¬ y < y := fun hlt => not_le_of_lt hlt (le_of_lt hlt)
  by_cases hx : IsNumber x
  · have hclamp (y : α) (hy : IsNumber y) : clamp y lower upper =
        if (if lower < y then y else lower) < upper then
          if lower < y then y else lower
        else upper := by
      rw [clamp, greatest_eq hlower hy, least_eq hupper (by split <;> assumption)]
    rw [hclamp _ (isNumber_of_le (clamp_spec h hx).1).2, hclamp x hx]
    generalize hy : (if lower < x then x else lower) = y
    -- What was raised to the lower bound is not raised any further.
    have hkept : (if lower < y then y else lower) = y := by
      rw [← hy]
      by_cases hbelow : lower < x
      · rw [if_pos hbelow, if_pos hbelow]
      · rw [if_neg hbelow, if_neg (hirrefl lower)]
    by_cases habove : y < upper
    · rw [if_pos habove, hkept, if_pos habove]
    · rw [if_neg habove]
      by_cases hproper : lower < upper
      · rw [if_pos hproper, if_neg (hirrefl upper)]
      · rw [if_neg hproper, if_neg hproper]
  · have hnone : isNaN x = true := by
      rw [← Bool.not_eq_false, isNaN_eq_false_iff]
      exact hx
    have hkept : clamp x lower upper = x := by
      simp [clamp, greatest, least, plain_eq, hnone, isNaN_eq_false_iff.mpr hlower,
        isNaN_eq_false_iff.mpr hupper]
    rw [hkept, hkept]

/-- The sign of a number is a sign, unless the number is zero. -/
theorem sign_cases (hx : IsNumber x) : IsSign (sign x) ∨ sign x = x ∧ same x 0 = true := by
  simp only [sign, plain_eq]
  by_cases hpos : 0 < x
  · exact .inl (.inl (if_pos hpos))
  · rw [if_neg hpos]
    by_cases hneg : x < 0
    · exact .inl (.inr (if_pos hneg))
    · rw [if_neg hneg]
      exact .inr ⟨rfl, same_zero_of_not_lt hx hpos hneg⟩

/-- What is zero is finite. -/
theorem isFinite_of_same_zero (h : same x 0 = true) : isFinite x = true := by
  obtain ⟨hle, hge⟩ := (same_iff x 0).mp h
  exact isFinite_of_between isFinite_zero isFinite_zero hge hle

/-- A product of three finite numbers is zero with the first or the second. -/
theorem mul_mul_same_zero {z : α} (hx : isFinite x = true) (hy : isFinite y = true)
    (hz : isFinite z = true) (h : same x 0 = true ∨ same y 0 = true) :
    same (x * y * z) 0 = true := by
  have hproduct := mul_same_zero hx hy h
  exact mul_same_zero (isFinite_of_same_zero hproduct) hz (.inl hproduct)

theorem isFinite_of_isSign (h : IsSign x) : isFinite x = true := by
  obtain rfl | rfl := h
  · exact isFinite_one
  · exact isFinite_neg_one

theorem isSign_ne_zero (h : IsSign x) : same x 0 = false := by
  obtain rfl | rfl := h
  · exact same_eq_false_of_gt zero_lt_one
  · exact same_eq_false_of_lt neg_one_lt_zero

end LawfulScalar

/-- Lawful scalars that are numbers: none was left blank and none has parts. -/
class StrictScalar (α : Type) [Scalar α] : Prop extends LawfulScalar α where
  isBlank_eq_false (x : α) : isBlank x = false
  isComposite_eq_false (x : α) : isComposite x = false
  /-- What is not finite is left in every sum. -/
  isFinite_of_add {x y : α} : isFinite (x + y) = true → isFinite x = true ∧ isFinite y = true
  /-- What is not finite is left in every difference. -/
  isFinite_of_sub {x y : α} : isFinite (x - y) = true → isFinite x = true ∧ isFinite y = true
  isFinite_neg {x : α} : isFinite x = true → isFinite (-x) = true
  zero_lt_neg {x : α} : x < 0 → 0 < -x
  lt_infinity {x : α} : isFinite x = true → x < infinity

namespace StrictScalar

open LawfulScalar

variable {α : Type} [Scalar α] [StrictScalar α] {x : α}

theorem isFinite_infinity : isFinite (infinity : α) = false := by
  rw [← Bool.not_eq_true]
  exact fun h => not_le_of_lt (lt_infinity h) (le_of_lt (lt_infinity h))

/-- A number is filled. -/
theorem filled?_eq_some (x : α) : filled? x = some x := by
  simp [filled?, isBlank_eq_false]

theorem isFinite_abs (h : isFinite x = true) : isFinite (abs x) = true := by
  rw [Scalar.abs, plain_eq]
  split
  · exact isFinite_neg h
  · exact h

/-- A distance is a number that is not below zero. -/
theorem zero_le_abs (h : IsNumber x) : 0 ≤ abs x := by
  rw [Scalar.abs, plain_eq]
  by_cases hneg : x < 0
  · rw [if_pos hneg]
    exact le_of_lt (zero_lt_neg hneg)
  · rw [if_neg hneg]
    exact le_of_not_lt h isNumber_zero hneg

/-- A number other than zero is at some distance from it. -/
theorem zero_lt_abs (h : IsNumber x) (hzero : same x 0 = false) : 0 < abs x := by
  rw [Scalar.abs, plain_eq]
  by_cases hneg : x < 0
  · rw [if_pos hneg]
    exact zero_lt_neg hneg
  · rw [if_neg hneg]
    have hle := le_of_not_lt h isNumber_zero hneg
    refine lt_iff.mpr ⟨hle, fun hge => ?_⟩
    rw [(same_iff x 0).mpr ⟨hge, hle⟩] at hzero
    cases hzero

end StrictScalar

/-- Strict scalars of which what is not finite is left in every product, too, and in every
opposite. -/
class AbsorbingScalar (α : Type) [Scalar α] : Prop extends StrictScalar α where
  isFinite_of_mul {x y : α} : isFinite (x * y) = true → isFinite x = true ∧ isFinite y = true
  isFinite_of_neg {x : α} : isFinite (-x) = true → isFinite x = true

end MarketMaker
