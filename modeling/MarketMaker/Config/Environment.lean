import MarketMaker.Config

/-!
# Configuration from the environment

Every setting can be given by an environment variable. Blank variables count as absent, and explicit
overrides win over the environment.
-/

namespace MarketMaker.Config

/-- The value of a variable, trimmed; nothing for a blank one. -/
def lookupVariable (environment : List (String × String)) (name : String) : Option String :=
  match environment.lookup name with
  | none => none
  | some v =>
    let v := Text.trim v
    if v.isEmpty then none else some v

/-- The settings that an environment gives, in the order of the settings. -/
def fromEnvironment (environment : List (String × String)) : List (String × String) :=
  Setting.all.filterMap fun s =>
    (lookupVariable environment s.variableName).map fun v => (s.name, v)

variable {α : Type}

/-- The settings of the environment with the defined overrides in place of them. -/
def layered (environment : List (String × String)) (overrides : List (String × Value α)) :
    Value α :=
  .ofFields ((fromEnvironment environment).map (fun (n, v) => (n, .string v))
    ++ overrides.filter fun f => !f.2.isUndefined)

/-- The configuration of an environment with overrides. -/
def load [Scalar α] [NumberText α] (environment : List (String × String))
    (overrides : List (String × Value α)) : Except (Failure α) (Config α) :=
  parse (layered environment overrides)

end MarketMaker.Config
