import MarketMaker.Bar
import MarketMaker.Failure
import MarketMaker.Interval
import MarketMaker.Log.Entry

/-!
# Pricing

The Avellaneda–Stoikov quote. With mid price `S`, inventory `q`, risk aversion `γ`, volatility `σ`
over one day, depth `κ` and a horizon of `T` days,

* the **reservation price** is `S - q·γ·σ·√T`,
* the **optimal spread** is `γ·σ²·T + (2/γ)·ln(1 + γ/κ)`, at least `minSpread · S`,
* the bid lies `η/(1+η)` and the ask `1/(1+η)` of the spread away from the reservation price.

A bid or ask that would not be positive is replaced by one a tenth of a percent off the mid price.
-/

namespace MarketMaker.Pricing

open Scalar

variable {α : Type} [Scalar α]

/-- What the quote is tuned by. -/
structure Config (α : Type) where
  /-- The least total spread, as a fraction of the mid price. -/
  minSpread : α
  /-- The weight of the bid side when the spread is split. -/
  shapeFactor : α

/-- The tuning that holds where nothing else is said. -/
def Config.default : Config α := ⟨0.00005, 1⟩

/-- The fields of a tuning. -/
def Config.fields (c : Config α) : List (String × Value α) :=
  [("minSpread", .number c.minSpread), ("orderAmountShapeFactor", .number c.shapeFactor)]

/-- The first figure that no engine can be tuned by: the least spread must not be negative, and the
shape factor has to be positive. -/
def Config.fault? (c : Config α) : Option (EngineError α) :=
  if ¬ 0 ≤ c.minSpread then some (.invalidParameter (.minSpread c.minSpread))
  else if ¬ 0 < c.shapeFactor then some (.invalidParameter (.shapeFactor c.shapeFactor))
  else none

/-- The tuning, unless a figure of it is at fault. -/
def Config.accept (c : Config α) : Except (EngineError α) (Config α) :=
  match c.fault? with
  | some e => .error e
  | none => .ok c

/-- What a quote is computed from. -/
structure Input (α : Type) where
  /-- The state of the market. -/
  market : Market α
  /-- Risk aversion. -/
  gamma : α
  /-- Volatility over one day. -/
  volatility : α
  /-- The horizon of the model. -/
  horizonSeconds : α

/-- The report that the model's spread was below the floor. -/
structure FloorClamp (α : Type) where
  /-- The spread that the model asked for. -/
  computedSpread : α
  /-- The floor that was quoted instead. -/
  floorSpread : α
  /-- The mid price. -/
  midPrice : α
  /-- The risk aversion behind the spread. -/
  gamma : α
  /-- The time of the market's state. -/
  timestamp : α

/-- The fields of the report. -/
def FloorClamp.fields (e : FloorClamp α) : List (String × Value α) :=
  [("computedSpread", .number e.computedSpread), ("floorSpread", .number e.floorSpread),
    ("midPrice", .number e.midPrice), ("gamma", .number e.gamma),
    ("timestamp", .number e.timestamp)]

/-- A quote. -/
structure Quote (α : Type) where
  /-- The mid price, moved against the inventory. -/
  reservationPrice : α
  /-- The spread in units of price, after the floor. -/
  optimalSpread : α
  /-- The price to buy at. -/
  bidPrice : α
  /-- The price to sell at. -/
  askPrice : α
  /-- How far the bid lies below the mid price, as a fraction of it. -/
  bidSpread : α
  /-- How far the ask lies above the mid price, as a fraction of it. -/
  askSpread : α
  /-- The report of the floor, where the spread was below it. -/
  floorClamp : Option (FloorClamp α)

/-- The fields of a quote. -/
def Quote.fields (q : Quote α) : List (String × Value α) :=
  [("reservationPrice", .number q.reservationPrice), ("optimalSpread", .number q.optimalSpread),
    ("bidPrice", .number q.bidPrice), ("askPrice", .number q.askPrice),
    ("bidSpread", .number q.bidSpread), ("askSpread", .number q.askSpread)]
    ++ (q.floorClamp.map fun e => [("floorClamp", Value.object e.fields)]).getD []

/-- The price around which the quote is placed. -/
def reservationPrice (midPrice inventory gamma volatility horizonDays : α) : α :=
  midPrice - inventory * gamma * volatility * sqrt horizonDays

/-- The spread that the model asks for. -/
def optimalSpread (gamma volatility horizonDays kappa : α) : α :=
  gamma * (volatility * volatility) * horizonDays + 2 / gamma * ln (1 + gamma / kappa)

/-- The first figure that no quote can be computed from. -/
def fault? (i : Input α) : Option (EngineError α) :=
  if !isPositive i.gamma then some (.invalidRiskFactor i.gamma)
  else if !isPositive i.market.kappa then some (.invalidParameter (.kappa i.market.kappa))
  else if !isPositive i.market.midPrice then some (.invalidParameter (.midPrice i.market.midPrice))
  else if !isFinite i.market.inventory then
    some (.invalidParameter (.inventory i.market.inventory))
  else if !isNonNegative i.volatility then some (.invalidParameter (.volatility i.volatility))
  else if !isNonNegative i.horizonSeconds then
    some (.invalidParameter (.timeHorizon i.horizonSeconds))
  else none

/-- The report of a spread below the floor. -/
def floorClamp? (c : Config α) (i : Input α) (computed : α) : Option (FloorClamp α) :=
  let floorSpread := i.market.midPrice * c.minSpread
  if computed < floorSpread then
    some ⟨computed, floorSpread, i.market.midPrice, i.gamma, i.market.timestamp⟩
  else none

/-- The quote for figures that passed every check. -/
def quoteOf (c : Config α) (i : Input α) : Quote α :=
  let horizonDays := i.horizonSeconds / (secondsPerDay : α)
  let mid := i.market.midPrice
  let reservation := reservationPrice mid i.market.inventory i.gamma i.volatility horizonDays
  let computed := optimalSpread i.gamma i.volatility horizonDays i.market.kappa
  let clamp := floorClamp? c i computed
  let spread := match clamp with
    | some e => e.floorSpread
    | none => computed
  let eta := c.shapeFactor
  let bid := reservation - spread * (eta / (1 + eta))
  let ask := reservation + spread * (1 / (1 + eta))
  let bid := if bid ≤ 0 then mid * 0.999 else bid
  let ask := if ask ≤ 0 then mid * 1.001 else ask
  { reservationPrice := reservation
    optimalSpread := spread
    bidPrice := bid
    askPrice := ask
    bidSpread := (mid - bid) / mid
    askSpread := (ask - mid) / mid
    floorClamp := clamp }

/-- The quote, or the first figure that stands in its way. -/
def compute (c : Config α) (i : Input α) : Except (EngineError α) (Quote α) :=
  match fault? i with
  | some e => .error e
  | none => .ok (quoteOf c i)

/-- The service that the lines of this module are logged for. -/
def service : String := "avellaneda-stoikov"

/-- The lines that a computed quote leaves in the log. -/
def logOf (i : Input α) (q : Quote α) : List (Log.Entry α) :=
  let clamped := match q.floorClamp with
    | none => []
    | some e =>
      [Log.Entry.mk service .warn "Optimal spread below floor, clamping to minimum spread"
        (some e.fields)]
  clamped ++
    [Log.Entry.mk service .debug "Avellaneda-Stoikov quote computed"
      (some [("midPrice", .number i.market.midPrice), ("inventory", .number i.market.inventory),
        ("alpha", .number i.market.alpha), ("kappa", .number i.market.kappa),
        ("gamma", .number i.gamma), ("volatility", .number i.volatility),
        ("reservationPrice", .number q.reservationPrice),
        ("optimalSpread", .number q.optimalSpread)])]

end MarketMaker.Pricing
