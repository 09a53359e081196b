import MarketMaker.Decimal.Shortest

/-!
# Texts of numbers

* `numberText` writes a number with the fewest digits that read back. A leading digit of place
  `10 ^ -6` up to `10 ^ 20` is written positionally, all else with an exponent; the sign of zero is
  not shown.
* `fixedText` writes a number with a given count of places after the point. The exact value decides,
  and a half goes away from zero. From `10 ^ 21` on the places are left out.
-/

namespace MarketMaker.Decimal

/-- The decimal digits of a natural number. -/
def digitChars (n : Nat) : List Char := (toString n).toList

/-- A run of zeros. -/
def zeros (n : Nat) : List Char := List.replicate n '0'

/-- The digits with the point in its place: `places` of them stand before it. -/
def layout (digits : List Char) (places : Int) : List Char :=
  let count : Int := digits.length
  if count ≤ places ∧ places ≤ 21 then digits ++ zeros (places - count).toNat
  else if 0 < places ∧ places ≤ 21 then
    digits.take places.toNat ++ '.' :: digits.drop places.toNat
  else if -6 < places ∧ places ≤ 0 then '0' :: '.' :: zeros (-places).toNat ++ digits
  else
    let power := places - 1
    let mark := ['e', if power < 0 then '-' else '+'] ++ digitChars power.natAbs
    match digits with
    | [] => mark
    | [d] => d :: mark
    | d :: rest => d :: '.' :: rest ++ mark

/-- The text of `digits · 10 ^ exponent`. -/
def Digits.text (d : Digits) : String :=
  let digits := digitChars d.digits
  String.ofList (layout digits (digits.length + d.exponent))

/-- A text with a minus sign in front when asked for. -/
def signed (negative : Bool) (text : String) : String := if negative then "-" ++ text else text

/-- The text of an exact value, in the fewest digits that read back. -/
def Exact.text : Exact → String
  | .nan => "NaN"
  | .infinite negative => signed negative "Infinity"
  | .finite negative mantissa exponent =>
    if mantissa = 0 then "0" else signed negative (shortest mantissa exponent).text

/-- The text of a number in the fewest digits that read back. -/
def numberText (x : Float) : String := (Exact.ofFloat x).text

/-- `units` written with the last `places` digits after the point. -/
def pointed (units places : Nat) : String :=
  let digits := digitChars units
  let padded := zeros (places + 1 - digits.length) ++ digits
  let whole := padded.take (padded.length - places)
  if places = 0 then String.ofList whole
  else String.ofList (whole ++ '.' :: padded.drop (padded.length - places))

/-- The text of a number with `places` digits after the point. -/
def fixedText (places : Nat) (x : Float) : String :=
  match Exact.ofFloat x with
  | .finite negative mantissa exponent =>
    let magnitude := Ratio.scaled mantissa 2 exponent
    if magnitude.reaches 21 then numberText x
    else
      let units := (magnitude.divPowTen (-(places : Int))).round
      signed (negative && mantissa != 0) (pointed units places)
  | special => special.text

/-- The text of a number rounded to a count of significant digits. The exact value decides, and a
half goes away from zero. -/
def roundedText (count : Nat) (x : Float) : String :=
  match Exact.ofFloat x with
  | .finite negative mantissa exponent =>
    let magnitude := Ratio.scaled mantissa 2 exponent
    let lowest := magnitude.leadingExponent (mantissa.log2 + exponent) - (count - 1 : Nat)
    let digits : Digits := ⟨(magnitude.divPowTen lowest).round, lowest⟩
    signed negative (digits.trim (count + 1)).text
  | special => special.text

/-- How many places a request stands for: its whole part, when that lies between none and a
hundred. No number stands for no places. -/
def placesOf (request : Float) : Option Nat :=
  if request.isNaN then some 0
  else if -1.0 < request && request < 101.0 then
    some (if request < 0.0 then 0 else request.floor.toUInt64.toNat)
  else none

end MarketMaker.Decimal
