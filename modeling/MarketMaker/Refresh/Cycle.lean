import MarketMaker.Refresh.Controller

/-!
# What a cycle does

A cycle fetches bars, computes parameters from them and publishes these when they differ enough from
the published ones. The stages of the computation are functions of their own, each with the
controller that it leaves behind, since callbacks may change the controller in between.

* The mode of a cycle is decided after the market was asked for.
* The source of risk aversion that a cycle asks is the one of that moment; a source that was
  replaced while it was asked stays replaced.
* The published set is labelled with the source in place at the end of the computation.
-/

namespace MarketMaker.Refresh.Controller

open Scalar

variable {α : Type} [Scalar α] [NumberText α]

/-! ## Computing -/

/-- Asks for the market. -/
def askMarket (w : Surroundings α) (bars : List (Bar α)) (c : Controller α) :
    Except (Failure α) (Market α) × Controller α :=
  let r := w.market c.calls.market bars
  ({ c with calls := { c.calls with market := c.calls.market + 1 } }.note
    (.marketAsked bars.length)).react w r

/-- Asks how trading went. -/
def askPerformance (w : Surroundings α) (c : Controller α) :
    Except (Failure α) (Option (Performance α)) × Controller α :=
  match w.performance with
  | none => (.ok none, c)
  | some ask =>
    let r := ask c.calls.performance
    ({ c with calls := { c.calls with performance := c.calls.performance + 1 } }.note
      .performanceAsked).react w r

/-- Tells the listener of a spread below the floor. -/
def tellClamp (w : Surroundings α) (e : Pricing.FloorClamp α) (c : Controller α) :
    Except (Failure α) Unit × Controller α :=
  match w.listeners with
  | none => (.ok (), c)
  | some l =>
    ({ c with calls := { c.calls with clamp := c.calls.clamp + 1 } }.note (.clamped e)).tell w
      (l.onFloorClamp c.calls.clamp e)

/-- Parameters from volatility alone. -/
def sized (config : Config α) (estimate : Volatility.Estimate α) (market : Market α) (now : α) :
    Except (Failure α) (Parameters α) := do
  checkUsable [config.orderRefreshTimeSeconds, config.maxHoldingTimeDays]
  let s ← (Sizing.compute {
    volatility := Volatility.annualize estimate.value
    timeToRefresh := Sizing.secondsToYears config.orderRefreshTimeSeconds
    fillProbability := config.targetFillProbability
    stopLossRiskProbability := config.stopLossRiskProbability
    profitFactor := config.profitFactor
    maxHoldingTime := Sizing.daysToYears config.maxHoldingTimeDays }).mapError (·.failure)
  return {
    bidSpread := s.bidSpread
    askSpread := s.askSpread
    reservationPrice := market.midPrice
    optimalSpread := s.bidSpread + s.askSpread
    profitTakingLong := s.profitTakingLong
    profitTakingShort := s.profitTakingShort
    stopLoss := s.stopLoss
    gammaUsed := none
    source := .known .autoOptimize
    volatilityUsed := estimate.value
    volatilityInterval := estimate.interval
    generatedAt := now
    snapshot := market.snapshot }

/-- The failure of asking a source that is gone for its kind. The mode without risk aversion has
taken it away, or something that is no mode. -/
def sourceGone (mode : Choice Mode α) : Failure α :=
  .unreadable (match mode with
    | .known _ => "null"
    | .given _ => "undefined") "kind"

/-- Parameters from a quote, labelled with the source of a controller. -/
def quoted (c : Controller α) (estimate : Volatility.Estimate α) (market : Market α) (now gamma : α)
    (quote : Pricing.Quote α) : Except (Failure α) (Parameters α) := do
  let config := c.config
  checkUsable [config.profitFactor, config.maxHoldingTimeDays]
  let stopLoss ← (Sizing.stopLossSpread (Volatility.annualize estimate.value)
    (Sizing.daysToYears config.maxHoldingTimeDays)
    config.stopLossRiskProbability).mapError (·.failure)
  let label ← match c.source with
    | some s => .ok (.known s.mode)
    | none => .error (sourceGone c.mode)
  return {
    bidSpread := quote.bidSpread
    askSpread := quote.askSpread
    reservationPrice := quote.reservationPrice
    optimalSpread := quote.optimalSpread / market.midPrice
    profitTakingLong := quote.askSpread * config.profitFactor
    profitTakingShort := quote.bidSpread * config.profitFactor
    stopLoss
    gammaUsed := some gamma
    source := label
    volatilityUsed := estimate.value
    volatilityInterval := estimate.interval
    generatedAt := now }

omit [NumberText α] in
/-- Keeps a source after it was asked, unless it was replaced meanwhile. -/
def keepSource (switches : Nat) (source : Gamma.Source α) (c : Controller α) : Controller α :=
  if c.switches = switches then { c with source := some source } else c

/-- Parameters from a quote around a risk aversion. -/
def price (w : Surroundings α) (estimate : Volatility.Estimate α) (market : Market α)
    (now gamma : α) (c : Controller α) : Except (Failure α) (Parameters α) × Controller α :=
  let input : Pricing.Input α := ⟨market, gamma, estimate.value, c.config.timeHorizonSeconds⟩
  match Pricing.compute c.pricing input with
  | .error e => (.error e.failure, c)
  | .ok quote =>
    let c := c.logAll (Pricing.logOf input quote)
    let (told, after) := match quote.floorClamp with
      | some e => c.tellClamp w e
      | none => (.ok (), c)
    (told.bind fun () => quoted after estimate market now gamma quote, after)

/-- Parameters from a quote around the risk aversion of a source, told what the cycle knows. -/
def computeWith (w : Surroundings α) (source : Gamma.Source α) (estimate : Volatility.Estimate α)
    (market : Market α) (now : α) (c : Controller α) :
    Except (Failure α) (Parameters α) × Controller α :=
  match c.askPerformance w with
  | (.error f, after) => (.error f, after)
  | (.ok performance, after) =>
    let context : Gamma.Context α :=
      ⟨market, estimate.value, now, c.published.map (·.optimalSpread), performance⟩
    if source.canUse context then
      let (gamma, resolved, lines) := source.resolve context
      ((after.keepSource c.switches resolved).logAll lines).price w estimate market now gamma
    else (.error .textless, after)

/-- The parameters for some bars. -/
def compute (w : Surroundings α) (bars : List (Bar α)) (now : α) (c : Controller α) :
    Except (Failure α) (Parameters α) × Controller α :=
  match Volatility.estimate bars c.config.volatilityInterval now with
  | .error f => (.error f, c)
  | .ok estimate =>
    match c.askMarket w bars with
    | (.error f, after) => (.error f, after)
    | (.ok market, after) =>
      match after.source with
      | none => (sized after.config estimate market now, after)
      | some source => after.computeWith w source estimate market now

/-! ## Ending -/

/-- Replaces the published set and tells the listener. -/
def replace (w : Surroundings α) (next : Parameters α) (c : Controller α) :
    Except (Failure α) Unit × Controller α :=
  let record := ChangeRecord.between c.published next
  let after := { c with published := some next, publications := c.publications + 1 }.log .info
    "Quote parameters published" record.fields
  match w.listeners with
  | none => (.ok (), after)
  | some l =>
    ({ after with calls := { c.calls with publish := c.calls.publish + 1 } }.note
      (.published record next)).tell w (l.onPublish c.calls.publish record next)

/-- Whether a computed set is to be published, where that can be told: the first one always is. -/
def isWorthPublishing (next : Parameters α) (c : Controller α) : Except (Failure α) Bool :=
  match c.published with
  | none => .ok true
  | some previous => previous.significance next c.config.significantChangeThreshold

/-- A computed set advances the schedule, and is published when it differs enough. -/
def publish (w : Surroundings α) (next : Parameters α) (now : α) (c : Controller α) :
    Except (Failure α) (Outcome α) × Controller α :=
  let c := { c with
    schedule := { c.schedule with lastUpdate := filled? now, retryNotBefore := none } }
  match c.isWorthPublishing next with
  | .error f => (.error f, c)
  | .ok true =>
    let (told, after) := c.replace w next
    (told.map fun () => .published, after)
  | .ok false =>
    (.ok .unchanged,
      c.log .debug "Recomputed parameters within change threshold, keeping published set"
        [("threshold", .number c.config.significantChangeThreshold)])

/-- The listener is told of a failure, and the cycle comes to it. -/
def tellFailure (w : Surroundings α) (f : Failure α) (c : Controller α) :
    Outcome α × Controller α :=
  match w.listeners with
  | none => (.failed f, c)
  | some l =>
    match ({ c with calls := { c.calls with failure := c.calls.failure + 1 } }.note
      (.failed f)).tell w (l.onFailure c.calls.failure f) with
    | (.ok (), after) => (.failed f, after)
    | (.error e, after) => (.broken e, after)

/-- A failure sets the time of the next attempt, and the listener is told. Where there is no such
time the cycle breaks off. -/
def fail (w : Surroundings α) (f : Failure α) (now : α) (c : Controller α) :
    Outcome α × Controller α :=
  match checkUsable [now, c.config.retryBackoffSeconds] with
  | .error e => (.broken e, c)
  | .ok () =>
    let retryAt := now + c.config.retryBackoffSeconds * 1000
    ({ c with schedule := { c.schedule with retryNotBefore := some retryAt } }.log .warn
      "Parameter refresh failed, keeping last published parameters"
      [("error", .string f.message), ("code", f.code?.getD .undefined),
        ("retryAt", .number retryAt)]).tellFailure w f

/-- What becomes of a cycle in which something was thrown. -/
def caught (w : Surroundings α) (f : Failure α) (now : α) (c : Controller α) :
    Outcome α × Controller α :=
  if f.isCancellation || c.stopped then (.cancelled, c)
  else
    match f.toError with
    | .ok e => c.fail w e now
    | .error e => (.broken e, c)

/-- Warns of a series that is shorter than what was asked for, where the two can be compared. -/
def warnShort (bars : List (Bar α)) (c : Controller α) : Except (Failure α) (Controller α) := do
  checkUsable [c.config.lookback]
  return if (bars.length : α) < c.config.lookback then
    c.log .warn "Market data provider returned fewer bars than requested"
      [("symbol", c.config.symbol), ("requested", .number c.config.lookback),
        ("received", .number (bars.length : α))]
  else c

/-- The rest of a cycle, once its request has come to an outcome. -/
def conclude (w : Surroundings α) (fetched : Except (Failure α) (List (Bar α))) (now : α)
    (c : Controller α) : Outcome α × Controller α :=
  match fetched with
  | .error f => c.caught w f now
  | .ok bars =>
    if c.stopped then (.cancelled, c)
    else
      match c.warnShort bars with
      | .error f => c.caught w f now
      | .ok c =>
        match { c with phase := .computing }.compute w bars now with
        | (.error f, after) => after.caught w f now
        | (.ok next, after) =>
          match { after with phase := .publishing }.publish w next now with
          | (.ok outcome, after) => (outcome, after)
          | (.error f, after) => after.caught w f now

end MarketMaker.Refresh.Controller
