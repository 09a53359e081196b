import MarketMaker.Value

/-!
# Values as JSON text

`Value.json` writes a value on one line. Infinities and values that are no number have no notation
and are written `null`; an undefined field is left out, and an undefined item is `null`.
-/

namespace MarketMaker

namespace Json

/-- A hexadecimal digit in lower case. -/
def hexDigit (n : Nat) : Char := if n < 10 then Char.ofNat (48 + n) else Char.ofNat (87 + n)

/-- A character inside quotes. Only the quote, the backslash and control characters are escaped. -/
def escapeChar (c : Char) : List Char :=
  match c.toNat with
  | 0x22 => ['\\', '"']
  | 0x5C => ['\\', '\\']
  | 0x08 => ['\\', 'b']
  | 0x09 => ['\\', 't']
  | 0x0A => ['\\', 'n']
  | 0x0C => ['\\', 'f']
  | 0x0D => ['\\', 'r']
  | n => if n < 0x20 then ['\\', 'u', '0', '0', hexDigit (n / 16), hexDigit (n % 16)] else [c]

/-- Four hexadecimal digits. -/
def hex4 (n : Nat) : List Char :=
  [hexDigit (n / 4096), hexDigit (n / 256 % 16), hexDigit (n / 16 % 16), hexDigit (n % 16)]

/-- A piece of a text inside quotes; half of a pair is escaped. -/
def escapePiece : Text.Piece → List Char
  | .char c => escapeChar c
  | .half unit => '\\' :: 'u' :: hex4 unit

/-- A text in 16-bit units in quotes. -/
def quoteUnits (units : List Nat) : String :=
  String.ofList ('"' :: (Text.pieces units).flatMap escapePiece ++ ['"'])

/-- A text in quotes. -/
def quote (s : String) : String := String.ofList ('"' :: s.toList.flatMap escapeChar ++ ['"'])

end Json

namespace Value

variable {α : Type} [Scalar α] [NumberText α]

/-- A number in JSON. -/
def numberJson (x : α) : String := if Scalar.isFinite x then NumberText.text x else "null"

mutual

/-- The JSON text of a value; undefined is written as null where it stands alone or in an array. -/
def json : Value α → String
  | undefined => "null"
  | null => "null"
  | bool b => if b then "true" else "false"
  | number x => numberJson x
  | string s => Json.quote s
  | unpaired units => Json.quoteUnits units
  | array items => "[" ++ String.intercalate "," (itemsJson items) ++ "]"
  | object fields => "\x7b" ++ String.intercalate "," (fieldsJson fields) ++ "\x7d"

/-- The JSON texts of the items of an array. -/
def itemsJson : List (Value α) → List String
  | [] => []
  | v :: rest => json v :: itemsJson rest

/-- The JSON texts of the fields of an object that are not undefined. -/
def fieldsJson : List (String × Value α) → List String
  | [] => []
  | (_, undefined) :: rest => fieldsJson rest
  | (name, v) :: rest => (Json.quote name ++ ":" ++ json v) :: fieldsJson rest

end

/-- Whether one name comes before another or is the same, unit by unit. -/
def nameAtMost (a b : String) : Bool :=
  !List.lex (Text.codes b.toList) (Text.codes a.toList) fun m n => decide (m < n)

mutual

/-- The value with the fields of every object in it sorted by name. -/
def sorted : Value α → Value α
  | array items => array (sortedItems items)
  | object fields => object ((sortedFields fields).mergeSort fun a b => nameAtMost a.1 b.1)
  | v => v

/-- The items of an array, each sorted. -/
def sortedItems : List (Value α) → List (Value α)
  | [] => []
  | v :: rest => sorted v :: sortedItems rest

/-- The fields of an object, each value sorted, in their order. -/
def sortedFields : List (String × Value α) → List (String × Value α)
  | [] => []
  | (name, v) :: rest => (name, sorted v) :: sortedFields rest

end

end Value

end MarketMaker
