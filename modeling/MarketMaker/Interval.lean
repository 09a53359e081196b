import MarketMaker.Named

/-!
# Bar intervals

A price bar covers one of seven intervals. Each has a name, divides a day into a whole number of
periods, and lasts a whole number of seconds.
-/

namespace MarketMaker

/-- The length of a price bar. -/
inductive Interval where
  | oneMinute
  | fiveMinutes
  | fifteenMinutes
  | thirtyMinutes
  | oneHour
  | fourHours
  | oneDay
  deriving DecidableEq, Repr

/-- The seconds of a day. -/
def secondsPerDay : Nat := 24 * 60 * 60

namespace Interval

/-- Every interval, the shortest first. -/
def all : List Interval :=
  [oneMinute, fiveMinutes, fifteenMinutes, thirtyMinutes, oneHour, fourHours, oneDay]

/-- The name of the interval. -/
def name : Interval → String
  | oneMinute => "1m"
  | fiveMinutes => "5m"
  | fifteenMinutes => "15m"
  | thirtyMinutes => "30m"
  | oneHour => "1h"
  | fourHours => "4h"
  | oneDay => "1d"

/-- Intervals are known by their names. -/
instance : Named Interval := ⟨all, name⟩

/-- The interval of that name. -/
def ofName? (name : String) : Option Interval := Named.ofName? name

/-- How many bars of the interval make up a day. -/
def periodsPerDay : Interval → Nat
  | oneMinute => 1440
  | fiveMinutes => 288
  | fifteenMinutes => 96
  | thirtyMinutes => 48
  | oneHour => 24
  | fourHours => 6
  | oneDay => 1

/-- How long one bar lasts. -/
def seconds (i : Interval) : Nat := secondsPerDay / i.periodsPerDay

end Interval

end MarketMaker
