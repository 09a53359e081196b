/-!
# Texts in 16-bit units

Columns are measured in 16-bit units: a character outside the basic plane counts twice. `padEnd`
fills a text up with spaces, and `cut` keeps a number of units; a character that the cut would halve
is left behind as the replacement character.

Units that come from outside need not pair up. `pieces` reads them as characters and lone
**halves**, and `spell` writes the replacement character for each of these.
-/

namespace MarketMaker.Text

/-- How many 16-bit units a character takes. -/
def charUnits (c : Char) : Nat := if c.toNat < 0x10000 then 1 else 2

/-- The 16-bit units of characters. -/
def codes : List Char → List Nat
  | [] => []
  | c :: rest =>
    let n := c.toNat
    if n < 0x10000 then n :: codes rest
    else (0xD800 + (n - 0x10000) / 0x400) :: (0xDC00 + (n - 0x10000) % 0x400) :: codes rest

/-- What units are read as. -/
inductive Piece where
  /-- A character. -/
  | char (c : Char)
  /-- Half of a pair without the other one. -/
  | half (unit : Nat)
  deriving DecidableEq, Repr

/-- Whether a unit is the first of a pair. -/
def isFirstHalf (n : Nat) : Bool := decide (0xD800 ≤ n) && decide (n < 0xDC00)

/-- Whether a unit is the second of a pair. -/
def isSecondHalf (n : Nat) : Bool := decide (0xDC00 ≤ n) && decide (n < 0xE000)

/-- The code point of a pair. -/
def pairValue (first second : Nat) : Nat := 0x10000 + (first - 0xD800) * 0x400 + (second - 0xDC00)

/-- What a unit is read as on its own. -/
def Piece.ofUnit (n : Nat) : Piece :=
  if isFirstHalf n || isSecondHalf n then half n else char (Char.ofNat n)

/-- What units are read as. -/
def pieces : List Nat → List Piece
  | first :: second :: rest =>
    if isFirstHalf first && isSecondHalf second then
      .char (Char.ofNat (pairValue first second)) :: pieces rest
    else .ofUnit first :: pieces (second :: rest)
  | [n] => [.ofUnit n]
  | [] => []

/-- The character that stands for what is none. -/
def replacement : Char := Char.ofNat 0xFFFD

/-- The character of a piece. -/
def Piece.shown : Piece → Char
  | char c => c
  | half _ => replacement

/-- The text of units, as far as they have one. -/
def spell (units : List Nat) : String := String.ofList ((pieces units).map Piece.shown)

/-- Whether all units pair up. -/
def isPaired (units : List Nat) : Bool :=
  (pieces units).all fun
    | .char _ => true
    | .half _ => false

/-- How many 16-bit units a text takes. -/
def units (s : String) : Nat := s.toList.foldl (fun n c => n + charUnits c) 0

/-- The text followed by spaces up to `width` units. -/
def padEnd (s : String) (width : Nat) : String :=
  s ++ String.ofList (List.replicate (width - units s) ' ')

/-- The first `count` units of the characters. -/
def cutChars : List Char → Nat → List Char
  | [], _ => []
  | _, 0 => []
  | c :: rest, count + 1 =>
    if charUnits c = 1 then c :: cutChars rest count
    else
      match count with
      | 0 => [replacement]
      | count + 1 => c :: cutChars rest count

/-- The first `count` units of a text. -/
def cut (s : String) (count : Nat) : String := String.ofList (cutChars s.toList count)

end MarketMaker.Text
