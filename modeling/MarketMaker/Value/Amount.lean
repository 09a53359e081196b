import MarketMaker.Decimal.Numeral
import MarketMaker.Value

/-!
# The amount of a value

Where a number is wanted and a value of any shape is given, `Value.amount` is the number that the
value can be read as: a text by its numeral, a list by its text, yes and no as one and zero, nothing
as zero. All else is no number.
-/

namespace MarketMaker.Value

variable {α : Type} [Scalar α] [NumberText α]

/-- The number that a value can be read as. -/
def amount : Value α → α
  | undefined => Scalar.nan
  | null => 0
  | bool b => if b then 1 else 0
  | number x => x
  | string s => (Numeral.ofWhole s).value
  | unpaired units => (Numeral.ofWhole (Text.spell units)).value
  | array items => (Numeral.ofWhole (array items).text).value
  | object _ => Scalar.nan

end MarketMaker.Value
