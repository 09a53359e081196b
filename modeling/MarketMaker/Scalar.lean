/-!
# Scalars

Every formula of the engine is written once, over a type of **scalars**: the numbers that can be
added, multiplied, compared and passed to a square root and a logarithm, with a value that is *not a
number*. Running the engine uses binary floating point; reasoning about it uses any other instance,
because nothing here assumes more than the operations.

* `Scalar.isNaN` is read off the order: a value that is not a number is not even below itself.
* `Scalar.same` is read off the order as well, unless an instance knows better: two values are the
  same number when each is at most the other.
* `Scalar.least`, `Scalar.greatest` and `Scalar.clamp` let a value that is not a number through, so
  that a missing figure is never hidden by a bound.

A scalar may be something that only counts as a number. `Scalar.plain` is that number,
`Scalar.isBlank` tells a value that was left blank on purpose, and `Scalar.isComposite` one that has
parts; where all scalars are numbers, none of them says anything.
-/

namespace MarketMaker

/-- The numbers of the engine. -/
class Scalar (α : Type) extends Add α, Sub α, Mul α, Div α, Neg α, NatCast α, LT α, LE α where
  /-- The number `digits · 10 ^ exponent`, with a negated exponent when the flag is set. -/
  ofDecimal : (digits : Nat) → (negated : Bool) → (exponent : Nat) → α
  /-- Square root. -/
  sqrt : α → α
  /-- Natural logarithm. -/
  ln : α → α
  /-- The greatest whole number that is not above the argument. -/
  floor : α → α
  /-- The whole part, and zero for what is not finite. -/
  truncate : α → Int
  /-- Whether the value is a number and not infinite. -/
  isFinite : α → Bool
  /-- The value that stands for no number. -/
  nan : α
  /-- The value above every finite number. -/
  infinity : α
  /-- The strict order can be decided. -/
  decLt : (x y : α) → Decidable (x < y)
  /-- The order can be decided. -/
  decLe : (x y : α) → Decidable (x ≤ y)
  /-- Whether both values are one; a value that is not a number is the same as none. -/
  same : α → α → Bool := fun x y => @decide (x ≤ y) (decLe x y) && @decide (y ≤ x) (decLe y x)
  /-- The number that a value counts as. -/
  plain : α → α := fun x => x
  /-- Whether the value was left blank on purpose. -/
  isBlank : α → Bool := fun _ => false
  /-- Whether the value is a thing with parts, which is one with itself only. -/
  isComposite : α → Bool := fun _ => false

namespace Scalar

variable {α : Type} [Scalar α]

/-- The strict order can be decided. -/
instance instDecidableLt (x y : α) : Decidable (x < y) := decLt x y

/-- The order can be decided. -/
instance instDecidableLe (x y : α) : Decidable (x ≤ y) := decLe x y

/-- A numeral denotes the scalar of that natural number. -/
instance (priority := low) instOfNat (n : Nat) : OfNat α n := ⟨Nat.cast n⟩

/-- A decimal literal denotes the scalar nearest to it. -/
instance (priority := low) instOfScientific : OfScientific α := ⟨ofDecimal⟩

/-- Whether the value stands for no number. -/
def isNaN (x : α) : Bool := !decide (plain x ≤ plain x)

/-- Whether the value is a finite whole number. -/
def isWhole (x : α) : Bool := isFinite x && same (floor x) x

/-- The smaller of two values, or the first that is no number when one of them is none. -/
def least (x y : α) : α :=
  if isNaN x then plain x else if isNaN y || decide (plain y < plain x) then plain y else plain x

/-- The greater of two values, or the first that is no number when one of them is none. -/
def greatest (x y : α) : α :=
  if isNaN x then plain x else if isNaN y || decide (plain x < plain y) then plain y else plain x

/-- The value moved into `[lower, upper]`; the upper bound wins when the two are crossed. -/
def clamp (value lower upper : α) : α := least upper (greatest lower value)

/-- The distance from zero. -/
def abs (x : α) : α := if plain x < 0 then -x else plain x

/-- One, minus one, or the value itself when it is neither above nor below zero. -/
def sign (x : α) : α := if 0 < plain x then 1 else if plain x < 0 then -1 else plain x

/-- The value, unless it was left blank. -/
def filled? (x : α) : Option α := if isBlank x then none else some x

/-- Whether the value is finite and above zero. -/
def isPositive (x : α) : Bool := isFinite x && decide (0 < x)

/-- Whether the value is finite and not below zero. -/
def isNonNegative (x : α) : Bool := isFinite x && decide (0 ≤ x)

end Scalar

end MarketMaker
