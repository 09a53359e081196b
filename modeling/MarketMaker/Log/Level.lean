import MarketMaker.Text.Blank

/-!
# Log levels

Four levels of severity. A threshold lets through its own level and all that are more severe.
-/

namespace MarketMaker.Log

/-- How severe a log line is. -/
inductive Level where
  | error
  | warn
  | info
  | debug
  deriving DecidableEq, Repr

namespace Level

/-- Every level, the most severe first. -/
def all : List Level := [error, warn, info, debug]

/-- The name of the level. -/
def name : Level → String
  | error => "error"
  | warn => "warn"
  | info => "info"
  | debug => "debug"

/-- The place of the level in the order of severity, zero for the most severe. -/
def rank : Level → Nat
  | error => 0
  | warn => 1
  | info => 2
  | debug => 3

/-- The level of that name. -/
def ofName? (name : String) : Option Level := all.find? (·.name == name)

/-- The level that a setting asks for, whatever its case and the blanks around it; information when
it asks for none. -/
def ofSetting (setting : Option String) : Level :=
  match setting with
  | none => info
  | some s => (ofName? ((Text.trim s).map Char.toLower)).getD info

/-- The least severe level that a threshold of some name lets through. There are two names between
information and debugging and one beyond, and an empty name lets everything through; any other lets
nothing through. -/
def ofThreshold? (name : String) : Option Level :=
  if name.isEmpty || name == "silly" then some debug
  else if name == "http" || name == "verbose" then some info
  else ofName? name

/-- Whether a threshold lets the level through. -/
def passes (level threshold : Level) : Bool := level.rank ≤ threshold.rank

end Level

end MarketMaker.Log
