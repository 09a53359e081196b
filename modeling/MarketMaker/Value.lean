import MarketMaker.Scalar
import MarketMaker.Text.Units

/-!
# Dynamic values

Settings from outside, bodies of responses, contexts of log lines and things thrown that are no
errors are **values** of one type: what a data format can hold, and *undefined* for what is not
there. Fields of an object keep their order, except that those whose names are places in a row come
first.

Every value has a text, but for one case: an object with a field named `Value.textField` claims to
write itself and does not. `Value.hasText` tells such a value, and any list that holds one, from all
others.
-/

namespace MarketMaker

/-- A value of any shape. -/
inductive Value (α : Type) where
  /-- Nothing at all. -/
  | undefined
  /-- Nothing, on purpose. -/
  | null
  /-- A flag. -/
  | bool (b : Bool)
  /-- A number. -/
  | number (x : α)
  /-- A text. -/
  | string (s : String)
  /-- A text in 16-bit units that do not pair up. -/
  | unpaired (units : List Nat)
  /-- A list of values. -/
  | array (items : List (Value α))
  /-- Named values, in order. -/
  | object (fields : List (String × Value α))

/-- A type whose numbers have a text. -/
class NumberText (α : Type) where
  /-- The text that identifies the number in the fewest digits. -/
  text : α → String
  /-- The text with a count of places after the point. -/
  fixed : Nat → α → String
  /-- Whether there is such a text; only what stands in for a number can lack it. -/
  hasText : α → Bool := fun _ => true

namespace Value

variable {α : Type}

/-- A text is a value. -/
instance : Coe String (Value α) := ⟨string⟩

/-- The text of some units. -/
def ofUnits (units : List Nat) : Value α :=
  if Text.isPaired units then string (Text.spell units) else unpaired units

/-- The 16-bit units of a text. -/
def units? : Value α → Option (List Nat)
  | string s => some (Text.codes s.toList)
  | unpaired units => some units
  | _ => none

/-- The field of an object; undefined where there is none. -/
def get (v : Value α) (name : String) : Value α :=
  match v with
  | object fields => (fields.lookup name).getD undefined
  | _ => undefined

/-- The field of an object, if it is present at all. -/
def find? (v : Value α) (name : String) : Option (Value α) :=
  match v with
  | object fields => fields.lookup name
  | _ => none

/-- Whether the value is undefined. -/
def isUndefined : Value α → Bool
  | undefined => true
  | _ => false

/-- The field of an object, if it is present and not undefined. -/
def given? (v : Value α) (name : String) : Option (Value α) :=
  (v.find? name).filter fun x => !x.isUndefined

/-- Whether the value is undefined or null, so that nothing can be looked up in it. -/
def isMissing : Value α → Bool
  | undefined => true
  | null => true
  | _ => false

/-- The text that the value is, as far as it can be spelt; none when it is no text. -/
def spelling? : Value α → Option String
  | string s => some s
  | unpaired units => some (Text.spell units)
  | _ => none

/-- The text in a field, if it holds one. -/
def text? (v : Value α) (name : String) : Option String := (v.get name).spelling?

/-- A figure as a value, and null where there is none. -/
def ofOption (x : Option α) : Value α := (x.map number).getD null

/-- Sets a field: in its place when the object has it, at the end otherwise. -/
def setField (fields : List (String × Value α)) (name : String) (v : Value α) :
    List (String × Value α) :=
  if fields.any (·.1 == name) then fields.map fun f => if f.1 == name then (name, v) else f
  else fields ++ [(name, v)]

/-- The place in a row that a name stands for: a number below `2 ^ 32 - 1` without zeros in
front. -/
def place? (name : String) : Option Nat :=
  let digits := name.toList
  let place := digits.foldl (fun (n : Nat) c => 10 * n + (c.toNat - 48)) 0
  if digits.all (fun c => decide ('0' ≤ c) && decide (c ≤ '9')) && toString place == name
      && decide (place < 4294967295) then some place
  else none

/-- The fields in the order in which an object keeps them: places in a row by number, then all
others. -/
def arranged (fields : List (String × Value α)) : List (String × Value α) :=
  let places := fields.filterMap fun f => (place? f.1).map fun n => (n, f)
  (places.mergeSort fun a b => decide (a.1 ≤ b.1)).map (·.2)
    ++ fields.filter fun f => (place? f.1).isNone

/-- An object whose later fields replace the earlier ones of the same name. -/
def ofFields (fields : List (String × Value α)) : Value α :=
  object (arranged (fields.foldl (fun acc f => setField acc f.1 f.2) []))

/-- Values by their places in a row. -/
def placed (items : List (Value α)) : List (String × Value α) :=
  items.zipIdx.map fun (v, n) => (toString n, v)

/-- The fields of a value: those of an object, or by their places the items of an array or the units
of a text. -/
def fields : Value α → List (String × Value α)
  | object fields => fields
  | array items => placed items
  | v => placed (((v.units?).getD []).map fun n => ofUnits [n])

/-- What a value holds under a name: its field, or as its `length` the count of the items of an
array or of the units of a text. -/
def member [Scalar α] (v : Value α) (name : String) : Value α :=
  match v.fields.lookup name, v with
  | some field, _ => field
  | none, array items => if name == "length" then number (items.length : α) else undefined
  | none, v =>
    match v.units? with
    | some units => if name == "length" then number (units.length : α) else undefined
    | none => undefined

/-- Whether the value counts as given: not undefined, null, false, empty, zero or no number. -/
def isTruthy [Scalar α] : Value α → Bool
  | undefined => false
  | null => false
  | bool b => b
  | number x => !Scalar.isNaN x && !Scalar.same x 0
  | string s => !s.isEmpty
  | unpaired _ => true
  | array _ => true
  | object _ => true

/-- The name of the value's kind, as messages about a wrong kind give it. -/
def kind [Scalar α] : Value α → String
  | undefined => "undefined"
  | null => "null"
  | bool _ => "boolean"
  | number x => if Scalar.isNaN x then "nan" else "number"
  | string _ => "string"
  | unpaired _ => "string"
  | array _ => "array"
  | object _ => "object"

/-- Whether two values are one and the same without being looked into; no two objects or arrays
are. -/
def isSame [Scalar α] : Value α → Value α → Bool
  | undefined, undefined => true
  | null, null => true
  | bool a, bool b => a == b
  | number x, number y => Scalar.same x y
  | string s, string t => s == t
  | unpaired s, unpaired t => s == t
  | _, _ => false

section Bind

variable {β : Type}

mutual

/-- The value with another value in place of every number. -/
def bind (f : α → Value β) : Value α → Value β
  | undefined => undefined
  | null => null
  | bool b => bool b
  | number x => f x
  | string s => string s
  | unpaired units => unpaired units
  | array items => array (bindItems f items)
  | object fields => object (bindFields f fields)

/-- The items of an array with another value in place of every number. -/
def bindItems (f : α → Value β) : List (Value α) → List (Value β)
  | [] => []
  | v :: rest => bind f v :: bindItems f rest

/-- The fields of an object with another value in place of every number. -/
def bindFields (f : α → Value β) : List (String × Value α) → List (String × Value β)
  | [] => []
  | (name, v) :: rest => (name, bind f v) :: bindFields f rest

end

end Bind

variable [NumberText α]

/-- The name of the field by which an object claims to write itself. -/
def textField : String := "toString"

mutual

/-- Whether the value has a text: an object has none when it has a field of that name, and an array
none when one of its items has none. -/
def hasText : Value α → Bool
  | number x => NumberText.hasText x
  | array items => haveTexts items
  | object fields => !fields.any (·.1 == textField)
  | _ => true

/-- Whether all items of an array have a text. -/
def haveTexts : List (Value α) → Bool
  | [] => true
  | v :: rest => hasText v && haveTexts rest

end

mutual

/-- The text of a value inside a message. The items of an array are joined by commas, and an object
is not looked into. -/
def text : Value α → String
  | undefined => "undefined"
  | null => "null"
  | bool b => if b then "true" else "false"
  | number x => NumberText.text x
  | string s => s
  | unpaired units => Text.spell units
  | array items => String.intercalate "," (itemTexts items)
  | object _ => "[object Object]"

/-- The texts of the items of an array; what is missing has an empty text. -/
def itemTexts : List (Value α) → List String
  | [] => []
  | undefined :: rest => "" :: itemTexts rest
  | null :: rest => "" :: itemTexts rest
  | v :: rest => text v :: itemTexts rest

end

/-- The words that a value gives; what is undefined gives none. -/
def words (v : Value α) : String := if v.isUndefined then "" else v.text

end Value

end MarketMaker
