import MarketMaker.Scalar
import MarketMaker.Text.Blank

/-!
# Numerals

A **numeral** is what a text says about a number before any rounding: its digits and a power of ten,
an infinity, or no number at all. Two readers share one grammar of decimal literals:

* `Numeral.ofLeading` takes the longest decimal literal at the start of a text and ignores the rest;
* `Numeral.ofWhole` wants the whole text to be a literal, knows whole numbers in base two, eight and
  sixteen as well, and reads a blank text as zero.

Both skip white space in front, and `Numeral.value` rounds a numeral once, at the end.
-/

namespace MarketMaker

/-- What a text says about a number. -/
inductive Numeral where
  /-- There is no number in it. -/
  | notANumber
  /-- It is an infinity. -/
  | infinite (negative : Bool)
  /-- It is a number in decimal notation. -/
  | decimal (negative : Bool) (digits : Nat) (exponent : Int)
  deriving DecidableEq, Repr

namespace Numeral

/-- The scalar that a numeral stands for. -/
def value {α : Type} [Scalar α] : Numeral → α
  | notANumber => Scalar.nan
  | infinite negative => if negative then -Scalar.infinity else Scalar.infinity
  | decimal negative digits exponent =>
    let magnitude : α := Scalar.ofDecimal digits (exponent < 0) exponent.natAbs
    if negative then -magnitude else magnitude

/-- Whether a character is a decimal digit. -/
def isDigit (c : Char) : Bool := '0' ≤ c && c ≤ '9'

/-- The value of a digit in bases up to sixteen. -/
def digitValue (c : Char) : Option Nat :=
  if isDigit c then some (c.toNat - 48)
  else if 'a' ≤ c && c ≤ 'f' then some (c.toNat - 87)
  else if 'A' ≤ c && c ≤ 'F' then some (c.toNat - 55)
  else none

/-- The number that a run of decimal digits writes, continued from `start`. -/
def digitsValue (start : Nat) (ds : List Char) : Nat :=
  ds.foldl (fun n c => 10 * n + (c.toNat - 48)) start

/-- A sign at the start, and the rest; no sign counts as plus. -/
def sign : List Char → Bool × List Char
  | '-' :: rest => (true, rest)
  | '+' :: rest => (false, rest)
  | cs => (false, cs)

/-- The exponent at the start, and the rest. A mark without digits is no exponent. -/
def exponentPart (cs : List Char) : Int × List Char :=
  match cs with
  | mark :: rest =>
    if mark = 'e' ∨ mark = 'E' then
      let (negative, rest) := sign rest
      let digits := rest.takeWhile isDigit
      if digits.isEmpty then (0, cs)
      else
        let n : Int := digitsValue 0 digits
        (if negative then -n else n, rest.dropWhile isDigit)
    else (0, cs)
  | [] => (0, cs)

/-- The longest unsigned decimal literal at the start, and the rest. -/
def unsigned (negative : Bool) (cs : List Char) : Option (Numeral × List Char) :=
  let infinity := "Infinity".toList
  if infinity.isPrefixOf cs then some (infinite negative, cs.drop infinity.length)
  else
    let whole := cs.takeWhile isDigit
    let (fraction, rest) :=
      match cs.dropWhile isDigit with
      | '.' :: more => (more.takeWhile isDigit, more.dropWhile isDigit)
      | more => ([], more)
    if whole.isEmpty && fraction.isEmpty then none
    else
      let (power, rest) := exponentPart rest
      some (decimal negative (digitsValue (digitsValue 0 whole) fraction) (power - fraction.length),
        rest)

/-- The longest decimal literal at the start, and the rest. -/
def literal (cs : List Char) : Option (Numeral × List Char) :=
  let (negative, rest) := sign cs
  unsigned negative rest

/-- The numeral that a text begins with. -/
def ofLeading (s : String) : Numeral :=
  match literal (s.toList.dropWhile Text.isBlank) with
  | some (n, _) => n
  | none => notANumber

/-- A whole number in another base. -/
def inBase (base : Nat) (ds : List Char) : Numeral :=
  let read := ds.foldl (fun acc c => do
    let n ← acc
    let d ← digitValue c
    if d < base then some (base * n + d) else none) (some 0)
  match ds, read with
  | _ :: _, some n => decimal false n 0
  | _, _ => notANumber

/-- The numeral that the whole text is, apart from white space around it. -/
def ofWhole (s : String) : Numeral :=
  match Text.trimChars s.toList with
  | [] => decimal false 0 0
  | '0' :: mark :: ds =>
    if mark = 'x' ∨ mark = 'X' then inBase 16 ds
    else if mark = 'o' ∨ mark = 'O' then inBase 8 ds
    else if mark = 'b' ∨ mark = 'B' then inBase 2 ds
    else decimalWhole ('0' :: mark :: ds)
  | cs => decimalWhole cs
where
  /-- The decimal literal that all the characters form. -/
  decimalWhole (cs : List Char) : Numeral :=
    match literal cs with
    | some (n, []) => n
    | _ => notANumber

end Numeral

end MarketMaker
