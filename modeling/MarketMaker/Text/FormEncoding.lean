/-!
# Form encoding

The encoding of names and values in a query: a space becomes a plus sign, letters, digits and four
marks stay, and every other byte of the text is written as a percent sign and two digits.
-/

namespace MarketMaker.Text

/-- Whether a byte stands for itself in a query. -/
def staysPlain (b : UInt8) : Bool :=
  let n := b.toNat
  (0x30 ≤ n && n ≤ 0x39) || (0x41 ≤ n && n ≤ 0x5A) || (0x61 ≤ n && n ≤ 0x7A)
    || n == 0x2A || n == 0x2D || n == 0x2E || n == 0x5F

/-- A hexadecimal digit in upper case. -/
def upperHexDigit (n : Nat) : Char := if n < 10 then Char.ofNat (48 + n) else Char.ofNat (55 + n)

/-- A byte in a query. -/
def encodeByte (b : UInt8) : List Char :=
  if b == 0x20 then ['+']
  else if staysPlain b then [Char.ofNat b.toNat]
  else ['%', upperHexDigit (b.toNat / 16), upperHexDigit (b.toNat % 16)]

/-- A text in a query. -/
def formEncode (s : String) : String := String.ofList (s.toUTF8.toList.flatMap encodeByte)

/-- A query of names and values. -/
def query (fields : List (String × String)) : String :=
  String.intercalate "&" (fields.map fun (n, v) => formEncode n ++ "=" ++ formEncode v)

end MarketMaker.Text
