import MarketMaker.Decimal.Exact

/-!
# The shortest decimal that reads back

Of all decimals that round to a given binary number, `shortest` takes one with the fewest digits,
and of those the nearest to the number. The reals that round to `m · 2 ^ q` form an interval around
it, whose ends belong to it exactly when `m` is even. For one digit, two digits and so on the two
neighbours of the number on that decimal grid are tried; the first grid with a neighbour in the
interval wins.
-/

namespace MarketMaker.Decimal

/-- A decimal `digits · 10 ^ exponent`. -/
structure Digits where
  /-- The digits, as a whole number. -/
  digits : Nat
  /-- The power of ten that they are scaled by. -/
  exponent : Int
  deriving DecidableEq, Repr

/-- The interval of reals that round to a binary number, in fourths of its last place. -/
structure Basin where
  /-- The lower end. -/
  lower : Nat
  /-- The number itself. -/
  centre : Nat
  /-- The upper end. -/
  upper : Nat
  /-- Whether the ends round to the number too. -/
  closed : Bool

/-- The interval around `mantissa · 2 ^ exponent`. Just above a power of two the numbers below lie
twice as close, except at the bottom of the range. -/
def Basin.around (mantissa : Nat) (exponent : Int) : Basin :=
  { lower :=
      if mantissa = Nat.pow 2 52 ∧ -1074 < exponent then 4 * mantissa - 1 else 4 * mantissa - 2
    centre := 4 * mantissa
    upper := 4 * mantissa + 2
    closed := mantissa % 2 = 0 }

/-- Whether `point / scale` lies in the interval. -/
def Basin.holds (i : Basin) (unit : Ratio) (point : Nat) : Bool :=
  let p := point * unit.den
  if i.closed then i.lower * unit.num ≤ p && p ≤ i.upper * unit.num
  else i.lower * unit.num < p && p < i.upper * unit.num

/-- The neighbour of the number on the grid of multiples of `10 ^ place` that reads back, if one
does; of two the nearer, and of two equally near the even one. -/
def onGrid (i : Basin) (exponent place : Int) : Option Digits :=
  let unit := (Ratio.scaled 1 2 (exponent - 2)).divPowTen place
  let value := i.centre * unit.num
  let below := value / unit.den
  let above := below + 1
  let pick (d : Nat) : Option Digits := some ⟨d, place⟩
  match i.holds unit below && 0 < below, i.holds unit above with
  | false, false => none
  | true, false => pick below
  | false, true => pick above
  | true, true =>
    let low := value - below * unit.den
    let high := above * unit.den - value
    if low < high then pick below
    else if high < low then pick above
    else if below % 2 = 0 then pick below else pick above

/-- Drops zeros from the end of the digits, at most `fuel` of them. -/
def Digits.trim (d : Digits) : (fuel : Nat) → Digits
  | 0 => d
  | fuel + 1 =>
    if d.digits ≠ 0 ∧ d.digits % 10 = 0 then trim ⟨d.digits / 10, d.exponent + 1⟩ fuel else d

/-- The shortest decimal that rounds to `mantissa · 2 ^ exponent`, without zeros at its end. -/
def shortest (mantissa : Nat) (exponent : Int) : Digits :=
  let i := Basin.around mantissa exponent
  let r := Ratio.scaled mantissa 2 exponent
  let lead := r.leadingExponent (mantissa.log2 + exponent)
  let found := (List.range 17).findSome? fun n => onGrid i exponent (lead - Int.ofNat n)
  (found.getD ⟨(r.divPowTen (lead - 16)).round, lead - 16⟩).trim 20

end MarketMaker.Decimal
