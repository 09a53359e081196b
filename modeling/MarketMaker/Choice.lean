import MarketMaker.Named
import MarketMaker.Value

/-!
# Choices

Some settings name one of a few things. A **choice** is either such a thing, **known** by its name,
or whatever else was **given** in its place: a name that nothing has, or no name at all.
`Choice.value` shows it as it was given.
-/

namespace MarketMaker

/-- One of a few named things, or what was given in the place of one. -/
inductive Choice (β α : Type) where
  /-- One of them. -/
  | known (b : β)
  /-- What was given in place of one. -/
  | given (v : Value α)

namespace Choice

variable {β α : Type}

/-- Whether the choice is a certain thing. -/
def is [DecidableEq β] (c : Choice β α) (b : β) : Bool :=
  match c with
  | known a => a == b
  | given _ => false

variable [Named β]

/-- The choice that a value makes: by a name, if it is one. -/
def ofValue : Value α → Choice β α
  | .string name =>
    match Named.ofName? name with
    | some b => known b
    | none => given (.string name)
  | v => given v

/-- The choice as it was given. -/
def value : Choice β α → Value α
  | known b => .string (Named.name b)
  | given v => v

/-- The text of the choice. -/
def text [NumberText α] (c : Choice β α) : String := c.value.text

/-- The thing that was chosen, where what was given in its place counts as its text. -/
def thing? [NumberText α] : Choice β α → Option β
  | known b => some b
  | given v => Named.ofName? v.text

/-- Whether two choices are one. A list or an object that was given twice is taken to be one. -/
def isSame [Scalar α] (a b : Choice β α) : Bool :=
  match a.value, b.value with
  | .array _, .array _ => true
  | .object _, .object _ => true
  | v, w => v.isSame w

end Choice

end MarketMaker
