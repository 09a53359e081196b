import MarketMaker.Log.Entry

/-!
# Log files

A service that logs to a file keeps two: one for every line that passes its threshold and one for
errors alone, named after the first.
-/

namespace MarketMaker.Log

/-- Characters with the first occurrence of a run replaced. -/
def replaceFirst (pattern replacement : List Char) : List Char → List Char
  | [] => if pattern.isEmpty then replacement else []
  | c :: rest =>
    if pattern.isPrefixOf (c :: rest) then replacement ++ (c :: rest).drop pattern.length
    else c :: replaceFirst pattern replacement rest

/-- The name of the file for errors. -/
def errorFile (file : String) : String :=
  String.ofList (replaceFirst ".log".toList "-error.log".toList file.toList)

/-- A log file and the threshold of its own, if it has one. -/
structure Transport where
  /-- The name of the file. -/
  file : String
  /-- The threshold. -/
  level : Option Level
  deriving DecidableEq, Repr

/-- The files of a service. -/
def transports (file : String) : List Transport := [⟨file, none⟩, ⟨errorFile file, some .error⟩]

/-- The threshold of a file: its own, or the one of its service. -/
def Transport.threshold? (t : Transport) (ofService : Option Level) : Option Level :=
  t.level.orElse fun _ => ofService

variable {α : Type} [Scalar α] [NumberText α]

/-- The lines of a file. -/
def Transport.lines (t : Transport) (threshold : Option Level) (instant : String)
    (entries : List (Entry α)) : List String :=
  (entries.filter (·.passes (t.threshold? threshold))).map (·.record instant)

end MarketMaker.Log
