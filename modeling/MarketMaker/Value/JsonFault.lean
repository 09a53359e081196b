import MarketMaker.Text.Units

/-!
# Texts that are no JSON

A reader of JSON stops at the first character that cannot stand where it does. A `Json.Fault` keeps
the text, how many 16-bit units were read before that place, and what is missing or wrong there; and
`Json.Fault.message` tells it. Most faults name the place by position, line and column. A character
that begins nothing is shown with ten units of the text on either side instead.
-/

namespace MarketMaker.Json

/-- What is wrong at the place where a text stops being JSON. -/
inductive Complaint where
  /-- What stands there, be it the end, begins nothing. -/
  | unexpected
  /-- An object has neither a name nor an end. -/
  | nameOrEnd
  /-- A comma in an object has no name behind it. -/
  | name
  /-- A name has no colon behind it. -/
  | colon
  /-- An item has neither a comma nor the end of the array behind it. -/
  | nextItem
  /-- A field has neither a comma nor the end of the object behind it. -/
  | nextField
  /-- A quoted text has no end. -/
  | unendedText
  /-- A control character stands in a quoted text. -/
  | controlCharacter
  /-- A backslash stands before a character that it does not belong to. -/
  | escape
  /-- The mark of a unit has no four hexadecimal digits behind it. -/
  | unitEscape
  /-- A minus sign has no digit behind it. -/
  | bareSign
  /-- A point has no digit behind it. -/
  | barePoint
  /-- The mark of an exponent has no digit behind it. -/
  | bareExponent
  /-- Something stands behind the value. -/
  | afterValue
  deriving DecidableEq, Repr

/-- What a complaint says; nothing where the character has to be looked at. -/
def Complaint.words? : Complaint → Option String
  | unexpected => none
  | nameOrEnd => some "Expected property name or '\x7d' in JSON"
  | name => some "Expected double-quoted property name in JSON"
  | colon => some "Expected ':' after property name in JSON"
  | nextItem => some "Expected ',' or ']' after array element in JSON"
  | nextField => some "Expected ',' or '\x7d' after property value in JSON"
  | unendedText => some "Unterminated string in JSON"
  | controlCharacter => some "Bad control character in string literal in JSON"
  | escape => some "Bad escaped character in JSON"
  | unitEscape => some "Bad Unicode escape in JSON"
  | bareSign => some "No number after minus sign in JSON"
  | barePoint => some "Unterminated fractional number in JSON"
  | bareExponent => some "Exponent part is missing a number in JSON"
  | afterValue => some "Unexpected non-whitespace character after JSON"

/-- Why a text is no JSON, and where. -/
structure Fault where
  /-- What is wrong there. -/
  complaint : Complaint
  /-- The 16-bit units of the text. -/
  units : List Nat
  /-- How many of them stand before the place. -/
  position : Nat
  deriving DecidableEq, Repr

/-- The line and the column behind some units, from those of the place before them. A carriage
return and the line feed behind it end one line. -/
def placeAfter (line column : Nat) : List Nat → Nat × Nat
  | 0x0D :: 0x0A :: rest => placeAfter (line + 1) 1 rest
  | n :: rest =>
    if n = 0x0D ∨ n = 0x0A then placeAfter (line + 1) 1 rest else placeAfter line (column + 1) rest
  | [] => (line, column)

/-- Texts that come from printing what has no JSON; they are shown whole. -/
def unwritable : List String := ["[object Object]", "NaN", "Infinity", "undefined"]

namespace Fault

/-- How many units are shown on either side of a character. -/
def margin : Nat := 10

/-- The place as position, line and column. -/
def place (f : Fault) : String :=
  let (line, column) := placeAfter 1 1 (f.units.take f.position)
  " at position " ++ toString f.position ++ " (line " ++ toString line ++ " column " ++
    toString column ++ ")"

/-- The text around the place in quotes, and dots where it goes on; a short text is shown whole. -/
def surroundings (f : Fault) : String :=
  let count := f.units.length
  let isShort := decide (count ≤ 2 * margin)
  let isEarly := isShort || decide (f.position < margin)
  let isLate := isShort || (!isEarly && decide (count ≤ f.position + margin))
  let start := if isEarly then 0 else f.position - margin
  let stop := if isLate then count else f.position + margin
  (if isEarly then "" else "...") ++ "\"" ++ Text.spell ((f.units.take stop).drop start) ++ "\""
    ++ (if isLate then "" else "...")

/-- The text of a fault. -/
def message (f : Fault) : String :=
  match f.complaint.words? with
  | some words => words ++ f.place
  | none =>
    match f.units[f.position]? with
    | none => "Unexpected end of JSON input"
    | some n =>
      if n = 0x22 then "Unexpected string in JSON" ++ f.place
      else if n = 0x2D ∨ (0x30 ≤ n ∧ n ≤ 0x39) then "Unexpected number in JSON" ++ f.place
      else
        let all := Text.spell f.units
        if unwritable.contains all then "\"" ++ all ++ "\" is not valid JSON"
        else "Unexpected token '" ++ Text.spell [n] ++ "', " ++ f.surroundings ++
          " is not valid JSON"

end Fault

end MarketMaker.Json
