/-!
# Instants

An instant is a count of milliseconds since the beginning of 1970. `isoText` writes it as a date and
a time of day in the Gregorian calendar, in Coordinated Universal Time. Days are counted from the
first of March of the year zero, so that a leap day is the last day of its year.
-/

namespace MarketMaker.Calendar

/-- A date. -/
structure Date where
  /-- The year; the one before year one is zero. -/
  year : Int
  /-- The month, from one to twelve. -/
  month : Nat
  /-- The day of the month, from one. -/
  day : Nat
  deriving DecidableEq, Repr

/-- The milliseconds of a day. -/
def millisecondsPerDay : Int := 24 * 60 * 60 * 1000

/-- The years, counted within four centuries, that lie before a day of these. -/
def yearOfEra (day : Int) : Int := (day - day / 1460 + day / 36524 - day / 146096) / 365

/-- The date of a day, counted from the first day of 1970. -/
def dateOfDay (day : Int) : Date :=
  let counted := day + 719468
  let era := counted / 146097
  let within := counted % 146097
  let year := yearOfEra within
  let dayOfYear := within - (365 * year + year / 4 - year / 100)
  let month := (5 * dayOfYear + 2) / 153
  { year := year + era * 400 + if 10 ≤ month then 1 else 0
    month := (if month < 10 then month + 3 else month - 9).toNat
    day := (dayOfYear - (153 * month + 2) / 5 + 1).toNat }

/-- A number with zeros in front, at least so wide. -/
def padded (width n : Nat) : String :=
  let digits := toString n
  String.ofList (List.replicate (width - digits.length) '0') ++ digits

/-- A year: four digits, or a sign and six digits beyond these. -/
def yearText (year : Int) : String :=
  if 0 ≤ year ∧ year ≤ 9999 then padded 4 year.toNat
  else (if year < 0 then "-" else "+") ++ padded 6 year.natAbs

/-- The farthest instant that has a text, in either direction. -/
def farthest : Int := 100000000 * millisecondsPerDay

/-- The time of day of an instant, in whole seconds. -/
def timeOfDay (instant : Int) : String :=
  let time := (instant % millisecondsPerDay).toNat
  padded 2 (time / 3600000) ++ ":" ++ padded 2 (time / 60000 % 60) ++ ":"
    ++ padded 2 (time / 1000 % 60)

/-- The text of an instant, if it is near enough to have one. -/
def isoText (instant : Int) : Option String :=
  if farthest < instant.natAbs then none
  else
    let date := dateOfDay (instant / millisecondsPerDay)
    some (yearText date.year ++ "-" ++ padded 2 date.month ++ "-" ++ padded 2 date.day ++ "T"
      ++ timeOfDay instant ++ "." ++ padded 3 (instant % 1000).toNat ++ "Z")

end MarketMaker.Calendar
