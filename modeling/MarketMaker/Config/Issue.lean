/-!
# Issues with settings

What can be wrong with the value given for one setting, and the words for it.
-/

namespace MarketMaker.Config

/-- What is wrong with a value. -/
inductive Complaint where
  /-- Nothing was given where something has to be. -/
  | required
  /-- The value is of another kind than expected. -/
  | wrongKind (expected received : String)
  /-- A text is empty. -/
  | empty
  /-- A text is none of the choices. -/
  | unknownChoice (expected received : String)
  /-- A number is not whole. -/
  | notWhole
  /-- A number is below the least one allowed. -/
  | below (least : Nat)
  /-- A number is not above zero. -/
  | notPositive
  deriving DecidableEq, Repr

/-- A complaint about a setting; the settings as a whole have an empty name. -/
structure Issue where
  /-- The name of the setting. -/
  setting : String
  /-- What is wrong with it. -/
  complaint : Complaint
  deriving DecidableEq, Repr

/-- The words of a complaint. -/
def Complaint.message : Complaint → String
  | required => "Required"
  | wrongKind expected received => "Expected " ++ expected ++ ", received " ++ received
  | empty => "String must contain at least 1 character(s)"
  | unknownChoice expected received =>
    "Invalid enum value. Expected " ++ expected ++ ", received '" ++ received ++ "'"
  | notWhole => "Expected integer, received float"
  | below least => "Number must be greater than or equal to " ++ toString least
  | notPositive => "Number must be greater than 0"

/-- The setting and the words of the complaint about it. -/
def Issue.message (i : Issue) : String := i.setting ++ ": " ++ i.complaint.message

/-- The choices, each in quotes. -/
def choices (names : List String) : String :=
  String.intercalate " | " (names.map fun n => "'" ++ n ++ "'")

end MarketMaker.Config
