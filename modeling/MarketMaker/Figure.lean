import MarketMaker.Value.Amount

/-!
# Figures

Callers hand over numbers, and sometimes something else where a number belongs. A **figure** is
either: a number, or the value that was **given** in its place. Figures are scalars themselves, so
that the whole engine runs on them and reports a wrong figure in the words in which it was given.

* A computation takes a figure for its `Figure.amount`, the number that the value can be read as.
* A sum of which one side is a text is the two texts together, and two texts are compared as texts.
* Only a number is finite, and only equal values are the same.
* A figure given as null was left blank on purpose.
* A figure given as a value without a text can be neither computed with nor compared. A computation
  hands it on as it is, so that it is still there where the result is wanted.

`Figure.ofValue` and `Figure.toValue` go between figures and values; `Value.settled` puts what
figures hold in their places.
-/

namespace MarketMaker

/-- A number, or what was given in its place. -/
inductive Figure (α : Type) where
  /-- A number. -/
  | number (x : α)
  /-- What was given in place of one. -/
  | given (v : Value α)

namespace Figure

variable {α : Type}

/-- The figure as a value. -/
def value : Figure α → Value α
  | number x => .number x
  | given v => v

/-- The figure that a value is. -/
def ofValue : Value (Figure α) → Figure α
  | .number x => x
  | v => given (v.bind value)

/-- The figure of what is not there at all: it has no text. -/
def absent : Figure α := given (.object [(Value.textField, .null)])

/-- The figure as a value of figures. -/
def toValue : Figure α → Value (Figure α)
  | number x => .number (number x)
  | given v => v.bind fun x => .number (number x)

/-- Whether the figure joins and compares as a text. -/
def isTextual : Figure α → Bool
  | given (.string _) => true
  | given (.unpaired _) => true
  | given (.array _) => true
  | given (.object _) => true
  | _ => false

variable [Scalar α] [NumberText α]

/-- The number that the figure counts as. -/
def amount (f : Figure α) : α := f.value.amount

/-- The text of the figure. -/
def text (f : Figure α) : String := f.value.text

/-- Whether the figure has a text. -/
def hasText (f : Figure α) : Bool := f.value.hasText

/-- What follows from a figure; one without a text is handed on. -/
def use (f : α → Figure α) (a : Figure α) : Figure α := if a.hasText then f a.amount else a

/-- What follows from two figures; one without a text is handed on. -/
def join (f : Figure α → Figure α → Figure α) (a b : Figure α) : Figure α :=
  if !a.hasText then a else if !b.hasText then b else f a b

/-- The result of an operation on the amounts of two figures. -/
def compute (f : α → α → α) : Figure α → Figure α → Figure α :=
  join fun a b => number (f a.amount b.amount)

/-- The sum of two figures, or their texts together when one of them is a text. -/
def sum : Figure α → Figure α → Figure α :=
  join fun a b =>
    if a.isTextual || b.isTextual then given (.string (a.text ++ b.text))
    else number (a.amount + b.amount)

/-- Whether two figures can be compared: both have a text. -/
def comparable (a b : Figure α) : Bool := a.hasText && b.hasText

/-- Whether the text of one figure comes before the text of another, unit by unit. -/
def textBelow (a b : Figure α) : Bool :=
  List.lex (Text.codes a.text.toList) (Text.codes b.text.toList) fun m n => decide (m < n)

/-- Whether one figure comes before another: in the order of texts when both are texts. -/
def isBelow (a b : Figure α) : Bool :=
  comparable a b &&
    if a.isTextual && b.isTextual then textBelow a b else decide (a.amount < b.amount)

/-- Whether one figure comes before another or at the same place. -/
def isAtMost (a b : Figure α) : Bool :=
  comparable a b &&
    if a.isTextual && b.isTextual then !textBelow b a else decide (a.amount ≤ b.amount)

/-- Whether two figures are one: equal numbers, or equal values given in their places. -/
def isSame : Figure α → Figure α → Bool
  | number x, number y => Scalar.same x y
  | given v, given w => v.isSame w
  | _, _ => false

/-- Whether the figure was given as null. -/
def isNull : Figure α → Bool
  | given .null => true
  | _ => false

/-- Whether the figure was given as a list or an object. -/
def isComposite : Figure α → Bool
  | given (.array _) => true
  | given (.object _) => true
  | _ => false

/-- Whether the figure is a finite number. -/
def isFiniteNumber : Figure α → Bool
  | number x => Scalar.isFinite x
  | given _ => false

instance : Scalar (Figure α) where
  add := sum
  sub := compute (· - ·)
  mul := compute (· * ·)
  div := compute (· / ·)
  neg := use fun x => number (-x)
  natCast n := number (n : α)
  lt a b := a.isBelow b = true
  le a b := a.isAtMost b = true
  ofDecimal digits negated exponent := number (Scalar.ofDecimal digits negated exponent)
  sqrt := use fun x => number (Scalar.sqrt x)
  ln := use fun x => number (Scalar.ln x)
  floor := use fun x => number (Scalar.floor x)
  truncate a := Scalar.truncate a.amount
  isFinite := isFiniteNumber
  nan := number Scalar.nan
  infinity := number Scalar.infinity
  decLt a b := inferInstanceAs (Decidable (a.isBelow b = true))
  decLe a b := inferInstanceAs (Decidable (a.isAtMost b = true))
  same := isSame
  plain := use number
  isBlank := isNull
  isComposite := isComposite

instance : NumberText (Figure α) where
  text := text
  fixed places a := NumberText.fixed places a.amount
  hasText := hasText

end Figure

namespace Value

variable {α : Type}

/-- The value with what its figures hold in their places. -/
def settled (v : Value (Figure α)) : Value (Figure α) := v.bind Figure.toValue

/-- The figure in a field. -/
def figure (v : Value (Figure α)) (name : String) : Figure α := .ofValue (v.get name)

/-- The figure in a field that stands in for another one: where the field is missing, the other one
stays. -/
def figureOr (v : Value (Figure α)) (name : String) (default : Figure α) : Figure α :=
  match v.find? name with
  | none => default
  | some given => .ofValue given

/-- The figures in the items of a field. -/
def figures (v : Value (Figure α)) (name : String) : List (Figure α) :=
  match v.get name with
  | array items => items.map .ofValue
  | _ => []

end Value

end MarketMaker
