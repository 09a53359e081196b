import MarketMaker.Choice
import MarketMaker.Failure
import MarketMaker.Interval
import MarketMaker.Mode

/-!
# Quoting parameters and their changes

The set of parameters that the execution loop quotes by, when a new set is worth publishing, and the
record of what a publication changed.
-/

namespace MarketMaker

open Scalar

variable {α : Type} [Scalar α]

/-- A set of quoting parameters. Spreads are fractions of the mid price. -/
structure Parameters (α : Type) where
  /-- How far the bid lies below the mid price. -/
  bidSpread : α
  /-- How far the ask lies above the mid price. -/
  askSpread : α
  /-- The price that the quotes are placed around. -/
  reservationPrice : α
  /-- The total width between bid and ask. -/
  optimalSpread : α
  /-- How far away a long position takes its profit. -/
  profitTakingLong : α
  /-- How far away a short position takes its profit. -/
  profitTakingShort : α
  /-- How far away a position is given up. -/
  stopLoss : α
  /-- The risk aversion behind the spreads, if there was one. -/
  gammaUsed : Option α
  /-- The mode that the spreads came from. -/
  source : Choice Mode α
  /-- The volatility behind the spreads. -/
  volatilityUsed : α
  /-- The length of the bars that it was measured on. -/
  volatilityInterval : Choice Interval α
  /-- When the set was computed. -/
  generatedAt : α
  /-- The snapshot of the market that the reservation price is taken from as it is. -/
  snapshot : Option Nat := none

/-- The fields of a set of parameters. -/
def Parameters.fields (p : Parameters α) : List (String × Value α) :=
  [("bidSpread", .number p.bidSpread), ("askSpread", .number p.askSpread),
    ("reservationPrice", .number p.reservationPrice), ("optimalSpread", .number p.optimalSpread),
    ("profitTakingSpreadLong", .number p.profitTakingLong),
    ("profitTakingSpreadShort", .number p.profitTakingShort),
    ("stopLossSpread", .number p.stopLoss), ("gammaUsed", .ofOption p.gammaUsed),
    ("gammaSource", p.source.value), ("volatilityUsed", .number p.volatilityUsed),
    ("volatilityInterval", p.volatilityInterval.value), ("generatedAt", .number p.generatedAt)]

/-- How far a figure moved, relative to where it was; infinitely far from zero to anything else. -/
def relativeChange (previous current : α) : α :=
  if same previous current then 0
  else if same previous 0 then infinity
  else abs (current - previous) / abs previous

namespace Parameters

/-- The figures that decide whether a new set is worth publishing. -/
def comparedNames : List String :=
  ["bidSpread", "askSpread", "profitTakingSpreadLong", "profitTakingSpreadShort", "stopLossSpread",
    "reservationPrice"]

/-- The spreads among the compared figures, which come before the price. -/
def spreads (p : Parameters α) : List α :=
  [p.bidSpread, p.askSpread, p.profitTakingLong, p.profitTakingShort, p.stopLoss]

/-- Whether both reservation prices are one thing with parts, taken from one snapshot. -/
def sharesPrice (previous next : Parameters α) : Bool :=
  isComposite next.reservationPrice && next.snapshot.isSome && previous.snapshot == next.snapshot

/-- How far the reservation price moved. One that is the same thing in both sets did not move. -/
def priceChange (previous next : Parameters α) : α :=
  if previous.sharesPrice next then
    0 else relativeChange previous.reservationPrice next.reservationPrice

/-- How far each compared figure moved. -/
def changes (previous next : Parameters α) : List α :=
  (previous.spreads.zip next.spreads).map (fun (p, n) => relativeChange p n) ++
    [priceChange previous next]

/-- Whether the next set comes from another mode or another interval. -/
def isOfOtherOrigin (previous next : Parameters α) : Bool :=
  !previous.source.isSame next.source || !previous.volatilityInterval.isSame next.volatilityInterval

/-- Whether a compared figure moved by more than the threshold. -/
def moves (previous next : Parameters α) (threshold : α) : Bool :=
  (changes previous next).any fun c => decide (threshold < c)

/-- Whether the next set comes from elsewhere, or a compared figure moved by more than the
threshold. -/
def isSignificant (previous next : Parameters α) (threshold : α) : Bool :=
  previous.isOfOtherOrigin next || previous.moves next threshold

section Comparison

variable [NumberText α]

/-- Whether the changes can be compared with the threshold: each has a text, up to the first that is
above it. -/
def isComparable (previous next : Parameters α) (threshold : α) : Bool :=
  NumberText.hasText threshold
    && ((changes previous next).takeWhile fun c => !decide (threshold < c)).all NumberText.hasText

/-- Whether a compared figure moved by more than the threshold, where that can be told. -/
def movement (previous next : Parameters α) (threshold : α) : Except (Failure α) Bool :=
  if previous.isComparable next threshold then .ok (previous.moves next threshold)
  else .error .textless

/-- Whether the next set is significant, where that can be told. The figures are compared only when
both sets come from one mode and interval. -/
def significance (previous next : Parameters α) (threshold : α) : Except (Failure α) Bool :=
  if previous.isOfOtherOrigin next then .ok true else previous.movement next threshold

end Comparison

end Parameters

/-- A value before and after; before the first publication there is none. -/
structure Change (β : Type) where
  /-- The value before. -/
  previous : Option β
  /-- The value after. -/
  current : β

/-- What a publication changed. -/
structure ChangeRecord (α : Type) where
  /-- The spread of the bid. -/
  bidSpread : Change α
  /-- The spread of the ask. -/
  askSpread : Change α
  /-- The profit target of a long position. -/
  profitTakingLong : Change α
  /-- The profit target of a short position. -/
  profitTakingShort : Change α
  /-- The stop loss. -/
  stopLoss : Change α
  /-- The volatility behind the spreads. -/
  volatility : Change α
  /-- The length of the bars that it was measured on. -/
  volatilityInterval : Change (Choice Interval α)
  /-- The risk aversion; none on either side when that set had none. -/
  gamma : Change (Option α)
  /-- The mode that the spreads came from. -/
  source : Change (Choice Mode α)
  /-- When the new set was computed. -/
  publishedAt : α

/-- The record of replacing one set by another. -/
def ChangeRecord.between (previous : Option (Parameters α)) (next : Parameters α) :
    ChangeRecord α :=
  let change {β : Type} (field : Parameters α → β) : Change β := ⟨previous.map field, field next⟩
  { bidSpread := change (·.bidSpread)
    askSpread := change (·.askSpread)
    profitTakingLong := change (·.profitTakingLong)
    profitTakingShort := change (·.profitTakingShort)
    stopLoss := change (·.stopLoss)
    volatility := change (·.volatilityUsed)
    volatilityInterval := change (·.volatilityInterval)
    gamma := change (·.gammaUsed)
    source := change (·.source)
    publishedAt := next.generatedAt }

/-- A change as a value. -/
def Change.value {β : Type} (f : β → Value α) (c : Change β) : Value α :=
  .object [("previous", (c.previous.map f).getD .null), ("current", f c.current)]

/-- The fields of a record. -/
def ChangeRecord.fields (r : ChangeRecord α) : List (String × Value α) :=
  [("bidSpread", r.bidSpread.value .number), ("askSpread", r.askSpread.value .number),
    ("profitTakingSpreadLong", r.profitTakingLong.value .number),
    ("profitTakingSpreadShort", r.profitTakingShort.value .number),
    ("stopLossSpread", r.stopLoss.value .number), ("volatility", r.volatility.value .number),
    ("volatilityInterval", r.volatilityInterval.value (·.value)),
    ("gamma", r.gamma.value .ofOption), ("gammaSource", r.source.value (·.value)),
    ("publishedAt", .number r.publishedAt)]

end MarketMaker
