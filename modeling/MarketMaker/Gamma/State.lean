import MarketMaker.Mode
import MarketMaker.Value

/-!
# Risk aversion as reported

Every way of finding a risk aversion reports the current one and the bounds it keeps to.
-/

namespace MarketMaker.Gamma

/-- The current risk aversion and its bounds. -/
structure State (α : Type) where
  /-- The current risk aversion. -/
  currentValue : α
  /-- The lower bound. -/
  lowerBound : α
  /-- The upper bound. -/
  upperBound : α
  /-- Where it comes from. -/
  mode : Mode

/-- The fields of a report. -/
def State.fields {α : Type} (s : State α) : List (String × Value α) :=
  [("currentValue", .number s.currentValue), ("lowerBound", .number s.lowerBound),
    ("upperBound", .number s.upperBound), ("mode", .string s.mode.name)]

end MarketMaker.Gamma
