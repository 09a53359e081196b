import MarketMaker.Failure
import MarketMaker.Log.Entry

/-!
# Log entries about failures

A failure is logged with its name, its words, its code where it has one, and its trace.
-/

namespace MarketMaker.Log

variable {α : Type} [Scalar α] [NumberText α]

/-- What a log shows of a failure; of something else that was thrown, its fields of these names. -/
def failureValue : Failure α → Value α
  | .thrown v =>
    .object ([("name", v.get "name"), ("message", v.get "message")]
      ++ ((v.find? "code").map fun code => ("code", code)).toList ++ [("stack", v.get "stack")])
  | f =>
    .object ([("name", f.name?.getD .undefined), ("message", .string f.message)]
      ++ (f.code?.map fun code => ("code", code)).toList ++ [("stack", f.trace)])

/-- The entry about a failure, with a context that its own field wins over. -/
def failureEntry (service : Value α) (f : Failure α) (context : List (String × Value α) := []) :
    Entry α :=
  ⟨service, .error, "Error occurred", some (Value.setField context "error" (failureValue f))⟩

end MarketMaker.Log
