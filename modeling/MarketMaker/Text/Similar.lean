import MarketMaker.Text.Units

/-!
# Similar words

The **distance** of two words is the least number of edits that turn one into the other, where an
edit puts in, takes out or replaces a unit, or swaps two neighbours, and no place is edited twice.
`nearest` picks the candidates that a misspelt word may have been meant for: those at the least
distance, if that is at most three and leaves more than two fifths of the longer word alone.
-/

namespace MarketMaker.Text

/-- Two rows of the table of distances between the beginnings of two words: the latest one, and the
unit and the row before it. -/
structure DistanceRows where
  /-- The latest row. -/
  latest : List Nat
  /-- The unit and the row before it. -/
  before : Option (Nat × List Nat)

/-- The distance in the next place of a row that is known up to there. -/
def nextDistance (rows : DistanceRows) (unit : Nat) (other : List Nat) (row : List Nat) : Nat :=
  let place := row.length - 1
  let replaced := rows.latest.getD place 0 + if other[place]? = some unit then 0 else 1
  let edited := min (min (rows.latest.getD row.length 0 + 1) (row.getLastD 0 + 1)) replaced
  match rows.before with
  | none => edited
  | some (previous, earlier) =>
    if 0 < place ∧ other[place - 1]? = some unit ∧ other[place]? = some previous then
      min edited (earlier.getD (place - 1) 0 + 1)
    else edited

/-- The rows once a unit more of the first word is taken in. -/
def DistanceRows.extend (other : List Nat) (rows : DistanceRows) (unit : Nat) : DistanceRows :=
  let row := other.foldl (fun row _ => row ++ [nextDistance rows unit other row])
    [rows.latest.headD 0 + 1]
  { latest := row, before := some (unit, rows.latest) }

/-- The distance of two words. -/
def distance (word other : List Nat) : Nat :=
  let start : DistanceRows := ⟨List.range (other.length + 1), none⟩
  (word.foldl (DistanceRows.extend other) start).latest.getLastD 0

/-- How far apart two words may be. -/
def maxDistance : Nat := 3

/-- The distance of a word from a candidate that is near enough to be meant. -/
def nearDistance? (word candidate : String) : Option Nat :=
  let a := codes word.toList
  let b := codes candidate.toList
  let longer := max a.length b.length
  let d := distance a b
  if 1 < b.length ∧ longer - min a.length b.length ≤ maxDistance ∧ d ≤ maxDistance
      ∧ 2 * longer < 5 * (longer - d) then some d
  else none

/-- The candidates that a word may have been meant for, in alphabetical order. -/
def nearest (word : String) (candidates : List String) : List String :=
  let near := candidates.eraseDups.filterMap fun c => (nearDistance? word c).map fun d => (d, c)
  let least := (near.map (·.1)).foldl min maxDistance
  ((near.filter (·.1 == least)).map (·.2)).mergeSort fun a b => decide (a ≤ b)

end MarketMaker.Text
