import MarketMaker.Failure
import MarketMaker.Scalar.Binary64
import MarketMaker.Value.Binary64

/-!
# Scalars that are numbers

The engine runs on scalars of which some only stand in for a number: one may lack a text, another
may have been left blank. A type is **numeric** when it has none of these. Over such a type no check
for a usable figure ever refuses one, and every figure is filled.

Binary floating point is numeric, also its infinities and the value that is not a number.
-/

namespace MarketMaker

open Scalar

/-- A type whose scalars are numbers, and nothing that stands in for one. -/
class Numeric (α : Type) [Scalar α] [NumberText α] : Prop where
  /-- Every number has a text. -/
  hasText : ∀ x : α, NumberText.hasText x = true
  /-- No number was left blank. -/
  isBlank : ∀ x : α, isBlank x = false

instance : Numeric Float where
  hasText _ := rfl
  isBlank _ := rfl

variable {α : Type} [Scalar α] [NumberText α] [Numeric α]

/-- Numbers can be computed with. -/
@[simp] theorem checkUsable_eq_ok (figures : List α) : checkUsable figures = .ok () := by
  have hall : figures.all NumberText.hasText = true := by
    rw [List.all_eq_true]
    intro x _
    exact Numeric.hasText x
  rw [checkUsable, if_pos hall]

/-- A number is filled. -/
@[simp] theorem filled?_eq_some (x : α) : filled? x = some x := by
  simp [filled?, Numeric.isBlank]

end MarketMaker
