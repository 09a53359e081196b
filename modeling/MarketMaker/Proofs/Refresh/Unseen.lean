import MarketMaker.Proofs.Refresh.Runs

/-!
# What the rest of a cycle does not see

Once a cycle goes on, it never looks at its request again, and neither does a callback: the request
listens no more, so that `stop` passes it by. So the controller may as well have another cycle in
that **seat**, as long as that one is deaf to `stop` too. Everything comes out the same, with the
other cycle in flight.
-/

namespace MarketMaker.Refresh.Controller

open Scalar

variable {α : Type}

/-- A controller with another cycle in flight. -/
def seat (y : Cycle α) (c : Controller α) : Controller α := { c with cycle := some y }

variable {c : Controller α} {y : Cycle α}

theorem seat_busy (hy : y.request.listening = false) (c : Controller α) :
    (c.seat y).Busy := ⟨y, rfl, hy⟩

theorem logAll_seat (entries : List (Log.Entry α)) (c : Controller α) :
    (c.seat y).logAll entries = (c.logAll entries).seat y := by
  induction entries generalizing c with
  | nil => rfl
  | cons e rest ih => exact ih (c.note (.logged e))

variable [Scalar α] [NumberText α]

theorem switched_seat (mode : Choice Mode α) (c : Controller α) :
    (c.seat y).switched mode = ((c.switched mode).1, (c.switched mode).2.seat y) := by
  unfold switched setMode
  cases hvalid : (Config.validate { c.config with mode }).mapError (·.failure) with
  | error e => simp [seat, hvalid, bind, Except.bind]
  | ok config =>
    cases hsource : (Gamma.Source.create mode (sourceSettings c.config)).mapError (·.failure) with
    | error e => simp [seat, hvalid, hsource, bind, Except.bind]
    | ok source => simp [seat, hvalid, hsource, bind, Except.bind, pure, Except.pure, log, note]

variable [Numeric α]

/-! ## Callbacks -/

theorem perform_seat (w : Surroundings α) (hc : c.Busy) (hy : y.request.listening = false)
    (a : Action α) : (c.seat y).perform w a = ((c.perform w a).1, (c.perform w a).2.seat y) := by
  obtain ⟨x, hx, hdeaf⟩ := hc
  cases a with
  | stop =>
    simp only [perform, stop_of_busy w (seat_busy hy c), stop_of_busy w ⟨x, hx, hdeaf⟩]
    rfl
  | setMode mode =>
    simp only [perform, switched_seat]
    rfl
  | tick now =>
    have hseat : (c.seat y).tick now = .ok (c.seat y) := tick_of_held now rfl
    have hheld : c.tick now = .ok c := tick_of_held now (by simp [hx])
    simp only [perform, hseat, hheld]
    rfl
  | refresh now => simp only [perform, refresh_of_busy hx, refresh_of_busy (c := c.seat y) rfl]

theorem performAll_seat (w : Surroundings α) (actions : List (Action α)) (hc : c.Busy)
    (hy : y.request.listening = false) :
    (c.seat y).performAll w actions =
      ((c.performAll w actions).1, (c.performAll w actions).2.seat y) := by
  induction actions generalizing c with
  | nil => rfl
  | cons a rest ih =>
    have hfirst := Aside.perform w hc a
    simp only [performAll, perform_seat w hc hy]
    rcases hp : c.perform w a with ⟨result, after⟩
    rw [hp] at hfirst
    cases result with
    | error f => rfl
    | ok _ => exact ih (hfirst.busy hc)

theorem react_seat {β : Type} (w : Surroundings α) (r : Reaction α β) (hc : c.Busy)
    (hy : y.request.listening = false) :
    (c.seat y).react w r = ((c.react w r).1, (c.react w r).2.seat y) := by
  simp only [react, performAll_seat w r.actions hc hy]

theorem tell_seat (w : Surroundings α) (r : Reaction α Unit) (hc : c.Busy)
    (hy : y.request.listening = false) :
    (c.seat y).tell w r = ((c.tell w r).1, (c.tell w r).2.seat y) := by
  simp only [tell, react_seat w r hc hy]
  rcases c.react w r with ⟨result, after⟩
  cases result with
  | ok _ => rfl
  | error f =>
    dsimp only
    cases f.toError with
    | ok e => rfl
    | error e => rfl

/-! ## Computing -/

theorem askMarket_seat (w : Surroundings α) (bars : List (Bar α)) (hc : c.Busy)
    (hy : y.request.listening = false) :
    (c.seat y).askMarket w bars = ((c.askMarket w bars).1, (c.askMarket w bars).2.seat y) :=
  react_seat w (w.market c.calls.market bars) (c := ({ c with
    calls := { c.calls with market := c.calls.market + 1 } } : Controller α).note
      (.marketAsked bars.length)) hc hy

theorem askPerformance_seat (w : Surroundings α) (hc : c.Busy) (hy : y.request.listening = false) :
    (c.seat y).askPerformance w = ((c.askPerformance w).1, (c.askPerformance w).2.seat y) := by
  unfold askPerformance
  cases w.performance with
  | none => rfl
  | some ask =>
    exact react_seat w (ask c.calls.performance) (c := ({ c with
      calls := { c.calls with performance := c.calls.performance + 1 } } : Controller α).note
        .performanceAsked) hc hy

theorem tellClamp_seat (w : Surroundings α) (e : Pricing.FloorClamp α) (hc : c.Busy)
    (hy : y.request.listening = false) :
    (c.seat y).tellClamp w e = ((c.tellClamp w e).1, (c.tellClamp w e).2.seat y) := by
  unfold tellClamp
  cases w.listeners with
  | none => rfl
  | some l =>
    exact tell_seat w (l.onFloorClamp c.calls.clamp e)
      (c := ({ c with calls := { c.calls with clamp := c.calls.clamp + 1 } } : Controller α).note
        (.clamped e)) hc hy

omit [Scalar α] [NumberText α] [Numeric α] in
theorem keepSource_seat (switches : Nat) (source : Gamma.Source α) (c : Controller α) :
    (c.seat y).keepSource switches source = (c.keepSource switches source).seat y := by
  by_cases h : c.switches = switches
  · simp [keepSource, seat, h]
  · simp [keepSource, seat, h]

theorem price_seat (w : Surroundings α) (estimate : Volatility.Estimate α) (market : Market α)
    (now gamma : α) (hc : c.Busy) (hy : y.request.listening = false) :
    (c.seat y).price w estimate market now gamma =
      ((c.price w estimate market now gamma).1,
        (c.price w estimate market now gamma).2.seat y) := by
  have hsame : (c.seat y).pricing = c.pricing ∧ (c.seat y).config = c.config := ⟨rfl, rfl⟩
  simp only [price, hsame.1, hsame.2, logAll_seat]
  cases Pricing.compute c.pricing ⟨market, gamma, estimate.value, c.config.timeHorizonSeconds⟩ with
  | error e => rfl
  | ok quote =>
    have hlogged := Aside.logAll
      (Pricing.logOf ⟨market, gamma, estimate.value, c.config.timeHorizonSeconds⟩ quote) c
    dsimp only
    cases quote.floorClamp with
    | none => rfl
    | some e =>
      simp only [tellClamp_seat w e (hlogged.busy hc) hy]
      rfl

theorem computeWith_seat (w : Surroundings α) (source : Gamma.Source α)
    (estimate : Volatility.Estimate α) (market : Market α) (now : α) (hc : c.Busy)
    (hy : y.request.listening = false) :
    (c.seat y).computeWith w source estimate market now =
      ((c.computeWith w source estimate market now).1,
        (c.computeWith w source estimate market now).2.seat y) := by
  have hasked := Aside.askPerformance w hc
  simp only [computeWith, askPerformance_seat w hc hy]
  rcases hp : c.askPerformance w with ⟨result, after⟩
  rw [hp] at hasked
  cases result with
  | error f => rfl
  | ok performance =>
    have hsame : (c.seat y).published = c.published ∧ (c.seat y).switches = c.switches := ⟨rfl, rfl⟩
    simp only [hsame.1, hsame.2]
    split
    · generalize source.resolve _ = answer
      obtain ⟨gamma, resolved, lines⟩ := answer
      have hkept := (hasked.trans (.keepSource c.switches resolved after)).trans (.logAll lines _)
      simp only [keepSource_seat, logAll_seat]
      exact price_seat w estimate market now gamma (hkept.busy hc) hy
    · rfl

/-- Callbacks and the computation itself do not look at the request in flight. -/
theorem compute_seat (w : Surroundings α) (bars : List (Bar α)) (now : α) (hc : c.Busy)
    (hy : y.request.listening = false) :
    (c.seat y).compute w bars now =
      ((c.compute w bars now).1, (c.compute w bars now).2.seat y) := by
  have hasked := Aside.askMarket w bars hc
  have hsame : (c.seat y).config = c.config := rfl
  simp only [compute, hsame, askMarket_seat w bars hc hy]
  cases Volatility.estimate bars c.config.volatilityInterval now with
  | error f => rfl
  | ok estimate =>
    dsimp only
    rcases hm : c.askMarket w bars with ⟨result, after⟩
    rw [hm] at hasked
    cases result with
    | error f => rfl
    | ok market =>
      have hsource : (after.seat y).source = after.source := rfl
      simp only [hsource]
      cases after.source with
      | none => rfl
      | some source => exact computeWith_seat w source estimate market now (hasked.busy hc) hy

/-! ## Ending -/

theorem replace_seat (w : Surroundings α) (next : Parameters α) (hc : c.Busy)
    (hy : y.request.listening = false) :
    (c.seat y).replace w next = ((c.replace w next).1, (c.replace w next).2.seat y) := by
  unfold replace
  cases w.listeners with
  | none => rfl
  | some l =>
    exact tell_seat w (l.onPublish c.calls.publish (ChangeRecord.between c.published next) next)
      (c := ({ ({ c with
        published := some next, publications := c.publications + 1 } : Controller α).log .info
          "Quote parameters published" (ChangeRecord.between c.published next).fields with
        calls := { c.calls with publish := c.calls.publish + 1 } } : Controller α).note
          (.published (ChangeRecord.between c.published next) next)) hc hy

theorem publish_seat (w : Surroundings α) (next : Parameters α) (now : α) (hc : c.Busy)
    (hy : y.request.listening = false) :
    (c.seat y).publish w next now =
      ((c.publish w next now).1, (c.publish w next now).2.seat y) := by
  obtain ⟨moved, hmoved⟩ : ∃ moved, moved = ({ c with
      schedule := { c.schedule with lastUpdate := filled? now, retryNotBefore := none } } :
        Controller α) :=
    ⟨_, rfl⟩
  have hseat : ({ c.seat y with schedule := { (c.seat y).schedule with
      lastUpdate := filled? now, retryNotBefore := none } } : Controller α) = moved.seat y := by
    rw [hmoved]
    rfl
  have hbusy : moved.Busy := by
    rw [hmoved]
    exact hc
  have hworth : (moved.seat y).isWorthPublishing next = moved.isWorthPublishing next := rfl
  simp only [publish, hseat, ← hmoved, hworth, replace_seat w next hbusy hy]
  cases moved.isWorthPublishing next with
  | error f => rfl
  | ok worth => cases worth <;> rfl

theorem tellFailure_seat (w : Surroundings α) (f : Failure α) (hc : c.Busy)
    (hy : y.request.listening = false) :
    (c.seat y).tellFailure w f = ((c.tellFailure w f).1, (c.tellFailure w f).2.seat y) := by
  cases hlisteners : w.listeners with
  | none => simp only [tellFailure, hlisteners]
  | some l =>
    obtain ⟨noted, hnoted⟩ : ∃ noted, noted =
        ({ c with calls := { c.calls with failure := c.calls.failure + 1 } } : Controller α).note
          (.failed f) :=
      ⟨_, rfl⟩
    have hbusy : noted.Busy := by
      rw [hnoted]
      exact hc
    have hseat : ({ c.seat y with calls := { (c.seat y).calls with
        failure := (c.seat y).calls.failure + 1 } } : Controller α).note (.failed f) =
          noted.seat y := by
      rw [hnoted]
      rfl
    have hcalls : (c.seat y).calls.failure = c.calls.failure := rfl
    simp only [tellFailure, hlisteners, hseat, ← hnoted]
    simp only [hcalls, tell_seat w _ hbusy hy]
    rcases noted.tell w (l.onFailure c.calls.failure f) with ⟨result, after⟩
    cases result <;> rfl

theorem fail_seat (w : Surroundings α) (f : Failure α) (now : α) (hc : c.Busy)
    (hy : y.request.listening = false) :
    (c.seat y).fail w f now = ((c.fail w f now).1, (c.fail w f now).2.seat y) := by
  simp only [fail, checkUsable_eq_ok]
  exact tellFailure_seat w f (c := ({ c with schedule := { c.schedule with
    retryNotBefore := some (now + c.config.retryBackoffSeconds * 1000) } } : Controller α).log .warn
      "Parameter refresh failed, keeping last published parameters"
      [("error", .string f.message), ("code", f.code?.getD .undefined),
        ("retryAt", .number (now + c.config.retryBackoffSeconds * 1000))]) hc hy

theorem caught_seat (w : Surroundings α) (f : Failure α) (now : α) (hc : c.Busy)
    (hy : y.request.listening = false) :
    (c.seat y).caught w f now = ((c.caught w f now).1, (c.caught w f now).2.seat y) := by
  have hstopped : (c.seat y).stopped = c.stopped := rfl
  simp only [caught, hstopped]
  split
  · rfl
  · cases f.toError with
    | error e => rfl
    | ok e => exact fail_seat w e now hc hy

/-- **A cycle does not look at its request again.** -/
theorem conclude_seat (w : Surroundings α) (fetched : Except (Failure α) (List (Bar α))) (now : α)
    (hc : c.Busy) (hy : y.request.listening = false) :
    (c.seat y).conclude w fetched now =
      ((c.conclude w fetched now).1, (c.conclude w fetched now).2.seat y) := by
  cases fetched with
  | error f => exact caught_seat w f now hc hy
  | ok bars =>
    have hstopped : (c.seat y).stopped = c.stopped := rfl
    have hwarn : (c.seat y).warnShort bars = (c.warnShort bars).map (seat y) := by
      have hconfig : (c.seat y).config = c.config := rfl
      simp only [warnShort, hconfig, checkUsable_eq_ok, bind, Except.bind, pure,
        Except.pure, Except.map]
      split <;> rfl
    obtain ⟨warned, hwarned, hsteady⟩ := warnShort_spec bars c
    have hcomputing := hsteady.trans (.enter .computing warned)
    have hbusy := hcomputing.keeps.busy hc
    have hcompute := compute_seat w bars now hbusy hy
    have haside := Aside.compute w bars now hbusy
    -- Both go through the same phases, each with its own cycle in flight.
    have henter (phase : Phase) (d : Controller α) :
        ({ d.seat y with phase } : Controller α) = ({ d with phase } : Controller α).seat y := rfl
    simp only [conclude, hstopped, hwarn, hwarned, Except.map, henter, hcompute]
    split
    · rfl
    · rcases hr : { warned with phase := .computing }.compute w bars now with ⟨result, computed⟩
      rw [hr] at haside
      simp only [hr]
      have hcomputed := haside.busy hbusy
      cases result with
      | error f => exact caught_seat w f now hcomputed hy
      | ok next =>
        have hpublishing : ({ computed with phase := .publishing } : Controller α).Busy := hcomputed
        have hkeeps := (publish_spec w next now hpublishing).1
        simp only [henter, publish_seat w next now hpublishing hy]
        rcases hp : { computed with phase := .publishing }.publish w next now
          with ⟨published, after⟩
        rw [hp] at hkeeps
        simp only [hp]
        cases published with
        | ok outcome => rfl
        | error f => exact caught_seat w f now (hkeeps.busy hpublishing) hy

end MarketMaker.Refresh.Controller
