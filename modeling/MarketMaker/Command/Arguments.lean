/-!
# Arguments

The words after the name of the program. A **switch** is a word that begins with a dash and has a
known name; it takes a value from the same word (`--name=value`, `-nvalue`) or from the next one,
whatever that looks like. All other words are **operands**, until a word with a dash that is no
known switch: from there on the words are left over. Two dashes end the switches.
-/

namespace MarketMaker.Command

/-- What can be given by name. -/
structure Switch where
  /-- The letter that stands for it after one dash. -/
  letter : Option Char
  /-- The name after two dashes. -/
  name : String
  /-- What its value is called; none for a switch without a value. -/
  value : Option String
  /-- What its line in the help says. -/
  description : String
  /-- The value that holds where none is given. -/
  default : Option String := none
  /-- Whether it has to be given. -/
  required : Bool := false
  deriving DecidableEq, Repr

namespace Switch

/-- The word that names the switch. -/
def long (s : Switch) : String := "--" ++ s.name

/-- The two ways to name the switch, and what its value is called. -/
def term (s : Switch) : String :=
  (match s.letter with
    | some c => String.ofList ['-', c] ++ ", "
    | none => "") ++ s.long ++ (match s.value with
    | some name => " <" ++ name ++ ">"
    | none => "")

/-- Whether a word is the name of the switch. -/
def isNamed (s : Switch) (word : List Char) : Bool :=
  word == s.long.toList || (match s.letter with
    | some c => word == ['-', c]
    | none => false)

end Switch

/-- What a word is. -/
inductive Word where
  /-- Two dashes. -/
  | ends
  /-- A switch whose value is the next word. -/
  | before (s : Switch)
  /-- A switch with its value. -/
  | holds (s : Switch) (value : String)
  /-- A switch without a value. -/
  | alone (s : Switch)
  /-- A word with a dash that is no known switch. -/
  | unknown
  /-- Any other word. -/
  | operand
  deriving DecidableEq, Repr

/-- The switch that a word begins with, if its value may follow in the same word. -/
def attached? (switches : List Switch) : List Char → Option Word
  | '-' :: '-' :: rest =>
    let name := rest.takeWhile (· != '=')
    match rest.dropWhile (· != '=') with
    | [] => none
    | _ :: value =>
      if name.isEmpty then none
      else
        (switches.find? fun s => s.value.isSome && s.isNamed ('-' :: '-' :: name)).map fun s =>
          .holds s (String.ofList value)
  | '-' :: c :: rest =>
    if rest.isEmpty then none
    else
      (switches.find? (·.isNamed ['-', c])).map fun s =>
        if s.value.isSome then .holds s (String.ofList rest) else .alone s
  | _ => none

/-- What a word is to some switches. -/
def Word.read (switches : List Switch) (text : String) : Word :=
  let word := text.toList
  if word = ['-', '-'] then .ends
  else
    match word with
    | '-' :: _ :: _ =>
      match switches.find? (·.isNamed word) with
      | some s => if s.value.isSome then .before s else .alone s
      | none => (attached? switches word).getD .unknown
    | _ => .operand

/-- Words sorted by what they are. -/
structure Arguments where
  /-- The values that were given, in their order. -/
  values : List (String × String) := []
  /-- The words that are no switches. -/
  operands : List String := []
  /-- The words from the first unknown one on. -/
  rest : List String := []
  deriving DecidableEq, Repr

/-- What ends the sorting of words. -/
inductive Interruption where
  /-- A switch stands at the end and lacks its value. -/
  | valueMissing (s : Switch)
  /-- A switch without a value was given. -/
  | given (s : Switch)
  deriving DecidableEq, Repr

namespace Arguments

/-- One more value, before the others. -/
def withValue (s : Switch) (value : String) (a : Arguments) : Arguments :=
  { a with values := (s.name, value) :: a.values }

/-- One more word, before the others: among the rest, if an unknown word came before it. -/
def withWord (afterUnknown : Bool) (word : String) (a : Arguments) : Arguments :=
  if afterUnknown then { a with rest := word :: a.rest }
  else { a with operands := word :: a.operands }

/-- Sorts words. -/
def sort (switches : List Switch) (afterUnknown : Bool) :
    List String → Except Interruption Arguments
  | [] => .ok {}
  | word :: words =>
    match Word.read switches word with
    | .ends => .ok (if afterUnknown then { rest := word :: words } else { operands := words })
    | .before s =>
      match words with
      | [] => .error (.valueMissing s)
      | value :: words => (sort switches afterUnknown words).map (withValue s value)
    | .holds s value => (sort switches afterUnknown words).map (withValue s value)
    | .alone s => .error (.given s)
    | .unknown => (sort switches true words).map (withWord true word)
    | .operand => (sort switches afterUnknown words).map (withWord afterUnknown word)

/-- The value of a switch: the last one given, or else its default. -/
def value? (a : Arguments) (s : Switch) : Option String :=
  (a.values.reverse.lookup s.name).orElse fun _ => s.default

end Arguments

end MarketMaker.Command
