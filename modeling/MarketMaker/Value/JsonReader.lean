import MarketMaker.Value
import MarketMaker.Value.JsonFault
import MarketMaker.Decimal.Numeral

/-!
# Reading JSON

`Value.ofJson` reads a JSON text, and for a text that is none it tells the first fault. A quoted
text is read as 16-bit units, because an escape may write half of a pair alone. The reader descends
into arrays and objects with a budget of steps; since no character takes more than two of them, a
budget of two steps per character and two more is never exhausted, and the public function shows
none.
-/

namespace MarketMaker

namespace Json

variable {α : Type} [Scalar α]

/-- What was read and the characters behind it, or what is wrong and the characters from there
on. -/
abbrev Reading (β : Type) := Except (Complaint × List Char) (β × List Char)

/-- The characters after white space, of which JSON knows four. -/
def skipBlank (cs : List Char) : List Char :=
  cs.dropWhile fun c => c == ' ' || c == '\t' || c == '\n' || c == '\r'

/-- A unit by some more of its hexadecimal digits. -/
def unitEscape : (digits : Nat) → (unit : Nat) → List Char → Reading Nat
  | 0, unit, cs => .ok (unit, cs)
  | digits + 1, unit, c :: rest =>
    match Numeral.digitValue c with
    | some d => unitEscape digits (16 * unit + d) rest
    | none => .error (.unitEscape, c :: rest)
  | _ + 1, _, [] => .error (.unitEscape, [])

/-- The 16-bit unit that an escape stands for, after the backslash. -/
def escape : List Char → Reading Nat
  | '"' :: rest => .ok (0x22, rest)
  | '\\' :: rest => .ok (0x5C, rest)
  | '/' :: rest => .ok (0x2F, rest)
  | 'b' :: rest => .ok (0x08, rest)
  | 'f' :: rest => .ok (0x0C, rest)
  | 'n' :: rest => .ok (0x0A, rest)
  | 'r' :: rest => .ok (0x0D, rest)
  | 't' :: rest => .ok (0x09, rest)
  | 'u' :: rest => unitEscape 4 0 rest
  | c :: rest => .error (if c.toNat ≤ 0xFF then .escape else .unexpected, c :: rest)
  | [] => .error (.unexpected, [])

/-- The units of the rest of a quoted text, with those read so far in reverse. -/
def quoted : (fuel : Nat) → List Char → List Nat → Reading (List Nat)
  | 0, cs, _ => .error (.unendedText, cs)
  | _ + 1, [], _ => .error (.unendedText, [])
  | _ + 1, '"' :: rest, seen => .ok (seen.reverse, rest)
  | fuel + 1, '\\' :: rest, seen =>
    match escape rest with
    | .ok (unit, rest) => quoted fuel rest (unit :: seen)
    | .error e => .error e
  | fuel + 1, c :: rest, seen =>
    if c.toNat < 0x20 then .error (.controlCharacter, c :: rest)
    else quoted fuel rest ((Text.codes [c]).reverse ++ seen)

/-- What is wrong where digits have to follow; nothing if one does. -/
def missingDigit? (complaint : Complaint) : List Char → Option (Complaint × List Char)
  | [] => some (complaint, [])
  | c :: rest => if Numeral.isDigit c then none else some (complaint, c :: rest)

/-- What is wrong with the exponent of a number, if it has one. -/
def exponentFault? : List Char → Option (Complaint × List Char)
  | mark :: rest =>
    if mark = 'e' ∨ mark = 'E' then missingDigit? .bareExponent (Numeral.sign rest).2 else none
  | [] => none

/-- What is wrong with an unsigned number: it has no digit, zeros in front, or no digits after its
point or the mark of its exponent. -/
def numberFault? (cs : List Char) : Option (Complaint × List Char) :=
  match cs with
  | '0' :: c :: rest =>
    if Numeral.isDigit c then some (.unexpected, c :: rest) else fractionFault? (c :: rest)
  | _ => (missingDigit? .bareSign cs).or (fractionFault? (cs.dropWhile Numeral.isDigit))
where
  /-- What is wrong behind the whole part of a number. -/
  fractionFault? : List Char → Option (Complaint × List Char)
    | '.' :: rest =>
      (missingDigit? .barePoint rest).or (exponentFault? (rest.dropWhile Numeral.isDigit))
    | rest => exponentFault? rest

/-- A number, behind its sign. -/
def number (negative : Bool) (cs : List Char) : Reading (Value α) :=
  match numberFault? cs, Numeral.unsigned negative cs with
  | none, some (n, rest) => .ok (.number n.value, rest)
  | some fault, _ => .error fault
  | none, none => .error (.bareSign, cs)

/-- A fixed word that stands for a value. -/
def word (v : Value α) : (letters : List Char) → List Char → Reading (Value α)
  | [], cs => .ok (v, cs)
  | l :: letters, c :: rest =>
    if l = c then word v letters rest else .error (.unexpected, c :: rest)
  | _ :: _, [] => .error (.unexpected, [])

mutual

/-- A value at the start of the characters. -/
def value : (fuel : Nat) → List Char → Reading (Value α)
  | 0, cs => .error (.unexpected, cs)
  | fuel + 1, cs =>
    match skipBlank cs with
    | '"' :: rest => (quoted (rest.length + 1) rest []).map fun (s, rest) => (.ofUnits s, rest)
    | '[' :: rest =>
      match skipBlank rest with
      | ']' :: rest => .ok (.array [], rest)
      | rest => (items fuel rest []).map fun (vs, rest) => (.array vs, rest)
    | '\x7b' :: rest =>
      match skipBlank rest with
      | '\x7d' :: rest => .ok (.object [], rest)
      | rest => (fields .nameOrEnd fuel rest []).map fun (fs, rest) => (.ofFields fs, rest)
    | 't' :: rest => word (.bool true) "rue".toList rest
    | 'f' :: rest => word (.bool false) "alse".toList rest
    | 'n' :: rest => word .null "ull".toList rest
    | '-' :: rest => number true rest
    | c :: rest =>
      if Numeral.isDigit c then number false (c :: rest) else .error (.unexpected, c :: rest)
    | [] => .error (.unexpected, [])

/-- The items of an array up to its closing bracket, with those read so far in reverse. -/
def items : (fuel : Nat) → List Char → List (Value α) → Reading (List (Value α))
  | 0, cs, _ => .error (.unexpected, cs)
  | fuel + 1, cs, seen =>
    match value fuel cs with
    | .error e => .error e
    | .ok (v, rest) =>
      match skipBlank rest with
      | ',' :: rest => items fuel rest (v :: seen)
      | ']' :: rest => .ok ((v :: seen).reverse, rest)
      | rest => .error (.nextItem, rest)

/-- The fields of an object up to its closing brace, with those read so far in reverse; and the
complaint if there is no name. -/
def fields (nameless : Complaint) :
    (fuel : Nat) → List Char → List (String × Value α) → Reading (List (String × Value α))
  | 0, cs, _ => .error (.unexpected, cs)
  | fuel + 1, cs, seen =>
    match skipBlank cs with
    | '"' :: rest =>
      match quoted (rest.length + 1) rest [] with
      | .error e => .error e
      | .ok (name, rest) =>
        match skipBlank rest with
        | ':' :: rest =>
          match value fuel rest with
          | .error e => .error e
          | .ok (v, rest) =>
            match skipBlank rest with
            | ',' :: rest => fields .name fuel rest ((Text.spell name, v) :: seen)
            | '\x7d' :: rest => .ok (((Text.spell name, v) :: seen).reverse, rest)
            | rest => .error (.nextField, rest)
        | rest => .error (.colon, rest)
    | rest => .error (nameless, rest)

end

/-- The fault of a text with some characters from the wrong one on. -/
def Fault.atRest (cs : List Char) (complaint : Complaint) (rest : List Char) : Fault :=
  let units := Text.codes cs
  ⟨complaint, units, units.length - (Text.codes rest).length⟩

end Json

/-- The value that a JSON text writes, or why it writes none. -/
def Value.ofJson {α : Type} [Scalar α] (s : String) : Except Json.Fault (Value α) :=
  let cs := s.toList
  match Json.value (2 * cs.length + 2) cs with
  | .error (complaint, rest) => .error (.atRest cs complaint rest)
  | .ok (v, rest) =>
    match Json.skipBlank rest with
    | [] => .ok v
    | rest => .error (.atRest cs .afterValue rest)

end MarketMaker
