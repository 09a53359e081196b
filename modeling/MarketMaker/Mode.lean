import MarketMaker.Named

/-!
# Parameter modes

The engine finds its risk aversion in one of three ways, or leaves it out and sizes spreads from
volatility alone.
-/

namespace MarketMaker

/-- How quoting parameters are found. -/
inductive Mode where
  /-- A constant risk aversion. -/
  | fixed
  /-- Risk aversion adjusted by rewards. -/
  | onlineAdaptive
  /-- Risk aversion read off the market regime. -/
  | ruleAdaptive
  /-- Spreads from volatility, without risk aversion. -/
  | autoOptimize
  deriving DecidableEq, Repr

namespace Mode

/-- Every mode. -/
def all : List Mode := [fixed, onlineAdaptive, ruleAdaptive, autoOptimize]

/-- The name of the mode. -/
def name : Mode → String
  | fixed => "fixed"
  | onlineAdaptive => "online_adaptive"
  | ruleAdaptive => "rule_adaptive"
  | autoOptimize => "auto_optimize"

/-- Modes are known by their names. -/
instance : Named Mode := ⟨all, name⟩

/-- The mode of that name. -/
def ofName? (name : String) : Option Mode := Named.ofName? name

end Mode

end MarketMaker
