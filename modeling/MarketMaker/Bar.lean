import MarketMaker.Named
import MarketMaker.Value

/-!
# Price bars and the market

What one computation is given: the bars of the recent past, and the state of the market and of the
inventory now.
-/

namespace MarketMaker

/-- One candlestick. Lists of bars have the most recent one last. -/
structure Bar (α : Type) where
  /-- When it opened. -/
  openTime : α
  /-- The price of its first trade. -/
  opening : α
  /-- The highest price. -/
  high : α
  /-- The lowest price. -/
  low : α
  /-- The price of its last trade. -/
  close : α
  /-- What is in the place of a bar that is not there. -/
  absence : Option String := none

/-- The fields of a bar. -/
def Bar.fields {α : Type} (b : Bar α) : List (String × Value α) :=
  [("openTime", .number b.openTime), ("open", .number b.opening), ("high", .number b.high),
    ("low", .number b.low), ("close", .number b.close)]

/-- Where the market is heading. -/
inductive Trend where
  | bullish
  | bearish
  | neutral
  deriving DecidableEq, Repr

/-- The name of a trend. -/
def Trend.name : Trend → String
  | bullish => "bullish"
  | bearish => "bearish"
  | neutral => "neutral"

/-- Trends are known by their names. -/
instance : Named Trend := ⟨[.bullish, .bearish, .neutral], Trend.name⟩

/-- The trend of that name. -/
def Trend.ofName? (name : String) : Option Trend := Named.ofName? name

/-- The market and the inventory at one moment. -/
structure Market (α : Type) where
  /-- The price halfway between the best bid and the best ask. -/
  midPrice : α
  /-- The signed position relative to its target. -/
  inventory : α
  /-- How strongly orders arrive. -/
  alpha : α
  /-- How deep the order book is. -/
  kappa : α
  /-- When the state was taken. -/
  timestamp : α
  /-- Where prices are going, as far as someone can tell. -/
  trend : Option Trend := none
  /-- The number of the snapshot that the figures belong to, where the source of the market
  tells. -/
  snapshot : Option Nat := none

/-- How trading went since it began. -/
structure Performance (α : Type) where
  /-- The profit that was realized up to now. -/
  realizedPnl : α
  /-- The share of quoted orders that filled over the last cycle. -/
  fillRatio : α

end MarketMaker
