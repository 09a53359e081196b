import MarketMaker.Proofs.Guards
import MarketMaker.Proofs.Refresh.Learning

/-!
# Switching modes in the middle of a computation

Once a cycle has consulted its source of risk aversion, the callbacks that follow may still switch
modes. What that does is told by comparing two computations: one among some surroundings, and one
among the same surroundings **settled**, where neither the source of the performance nor the
listener of spreads below the floor switches modes, but everything else happens all the same.

Both come to the same parameters, up to the label (`compute_settled`). The label is that of the
source in place at the end, and where the last switch has left none the computation fails. In
settled surroundings the label is always that of the source that was consulted.
-/

namespace MarketMaker.Refresh

variable {α : Type}

/-- Whether a callback switches modes. -/
def Action.isSwitch : Action α → Bool
  | .setMode _ => true
  | _ => false

/-- What a callback does, but for switching modes. -/
def Reaction.settled {β : Type} (r : Reaction α β) : Reaction α β :=
  { r with actions := r.actions.filter fun a => !a.isSwitch }

/-- Surroundings in which nobody switches modes while a cycle computes, once the market is known. -/
def Surroundings.settled (w : Surroundings α) : Surroundings α :=
  { w with
    performance := w.performance.map fun ask call => (ask call).settled
    listeners := w.listeners.map fun l =>
      { l with onFloorClamp := fun call e => (l.onFloorClamp call e).settled } }

namespace Controller

/-- Two controllers that differ at most in their mode, its source and what was seen. -/
structure Twin (c d : Controller α) : Prop where
  /-- They do not differ in anything that no callback can change. -/
  core : d.core = c.core
  /-- They have called equally often. -/
  calls : d.calls = c.calls

variable {c d e : Controller α}

theorem Twin.refl (c : Controller α) : Twin c c := ⟨rfl, rfl⟩

theorem Twin.symm (h : Twin c d) : Twin d c := ⟨h.core.symm, h.calls.symm⟩

theorem Twin.trans (h₁ : Twin c d) (h₂ : Twin d e) : Twin c e :=
  ⟨h₂.core.trans h₁.core, h₂.calls.trans h₁.calls⟩

theorem Twin.config (h : Twin c d) : d.config = c.config := (congrArg Controller.config h.core :)

theorem Twin.pricing (h : Twin c d) : d.pricing = c.pricing :=
  (congrArg Controller.pricing h.core :)

theorem Twin.busy (h : Twin c d) (hbusy : c.Busy) : d.Busy := hbusy.of_core_eq h.core

theorem Twin.note (o : Occurrence α) (c : Controller α) : Twin c (c.note o) := ⟨rfl, rfl⟩

theorem Twin.logAll (entries : List (Log.Entry α)) (c : Controller α) :
    Twin c (c.logAll entries) := by
  induction entries generalizing c with
  | nil => exact .refl c
  | cons entry rest ih => exact (Twin.note (.logged entry) c).trans (ih _)

theorem Twin.keepSource (switches : Nat) (source : Gamma.Source α) (c : Controller α) :
    Twin c (c.keepSource switches source) := by
  unfold Controller.keepSource
  split
  · exact ⟨rfl, rfl⟩
  · exact .refl c

variable [Scalar α] [NumberText α]

/-! ## Callbacks -/

theorem Twin.perform (w : Surroundings α) (h : c.Busy) (a : Action α) :
    Twin c (c.perform w a).2 := by
  refine ⟨(Aside.perform w h a).core, ?_⟩
  cases a with
  | stop =>
    have hstop : (c.perform w .stop).2 = { c with stopped := true, stopping := c.stopping + 1 } :=
      stop_of_busy w h
    rw [hstop]
  | setMode mode =>
    simp only [Controller.perform, Controller.switched]
    cases hset : c.setMode mode with
    | error e => rfl
    | ok after =>
      obtain ⟨source, -, rfl⟩ := setMode_eq_ok hset
      rfl
  | tick now =>
    obtain ⟨y, hy, -⟩ := h
    cases ht : c.tick now with
    | error f => simp only [Controller.perform, ht]
    | ok after =>
      obtain rfl := eq_of_tick_of_busy (by rw [hy]; rfl) ht
      simp only [Controller.perform, ht]
      rfl
  | refresh now =>
    obtain ⟨y, hy, -⟩ := h
    simp only [Controller.perform, refresh_of_busy hy]

theorem Twin.performAll (w : Surroundings α) (actions : List (Action α)) (h : c.Busy) :
    Twin c (c.performAll w actions).2 := by
  induction actions generalizing c with
  | nil => exact .refl c
  | cons a rest ih =>
    have hfirst := Twin.perform w h a
    unfold Controller.performAll
    rcases hp : c.perform w a with ⟨result, after⟩
    rw [hp] at hfirst
    cases result with
    | error f => exact hfirst
    | ok _ => exact hfirst.trans (ih (hfirst.busy h))

theorem Twin.react {β : Type} (w : Surroundings α) (r : Reaction α β) (h : c.Busy) :
    Twin c (c.react w r).2 :=
  Twin.performAll w r.actions h

theorem Twin.tell (w : Surroundings α) (r : Reaction α Unit) (h : c.Busy) :
    Twin c (c.tell w r).2 := by
  have hreact := Twin.react w r h
  rcases tell_cases w r c with heq | heq | ⟨entry, heq⟩ <;> rw [heq]
  · exact hreact
  · exact hreact
  · exact hreact.trans (.note _ _)

/-- Nothing but a switch replaces the source. -/
theorem switches_performAll (w : Surroundings α) (actions : List (Action α))
    (hnone : ∀ a ∈ actions, a.isSwitch = false) (h : c.Busy) :
    (c.performAll w actions).2.switches = c.switches := by
  induction actions generalizing c with
  | nil => rfl
  | cons a rest ih =>
    have hbusy := (Aside.perform w h a).busy h
    have hfirst : (c.perform w a).2.switches = c.switches := by
      have ha := hnone a List.mem_cons_self
      cases a with
      | setMode mode => cases ha
      | stop =>
        have hstop :
            (c.perform w .stop).2 = { c with stopped := true, stopping := c.stopping + 1 } :=
          stop_of_busy w h
        rw [hstop]
      | tick now =>
        obtain ⟨y, hy, -⟩ := h
        cases ht : c.tick now with
        | error f => simp only [Controller.perform, ht]
        | ok after =>
          obtain rfl := eq_of_tick_of_busy (by rw [hy]; rfl) ht
          simp only [Controller.perform, ht]
          rfl
      | refresh now =>
        obtain ⟨y, hy, -⟩ := h
        simp only [Controller.perform, refresh_of_busy hy]
    unfold Controller.performAll
    rcases hp : c.perform w a with ⟨result, after⟩
    rw [hp] at hfirst hbusy
    cases result with
    | error f => exact hfirst
    | ok _ => exact (ih (fun b hb => hnone b (List.mem_cons_of_mem _ hb)) hbusy).trans hfirst

theorem switches_react_settled {β : Type} (w : Surroundings α) (r : Reaction α β) (h : c.Busy) :
    (c.react w r.settled).2.switches = c.switches := by
  refine switches_performAll w _ (fun a ha => ?_) h
  simpa using (List.mem_filter.mp ha).2

theorem switches_tell_settled (w : Surroundings α) (r : Reaction α Unit) (h : c.Busy) :
    (c.tell w r.settled).2.switches = c.switches := by
  have hreact := switches_react_settled w r h
  rcases tell_cases w r.settled c with heq | heq | ⟨entry, heq⟩ <;> rw [heq] <;> exact hreact

/-- What a callback does in settled surroundings it does in the unsettled ones too. -/
theorem performAll_settled (w : Surroundings α) (actions : List (Action α)) (c : Controller α) :
    c.performAll w.settled actions = c.performAll w actions := by
  induction actions generalizing c with
  | nil => rfl
  | cons a rest ih =>
    have hfirst : c.perform w.settled a = c.perform w a := by cases a <;> rfl
    simp only [Controller.performAll, hfirst, ih]

theorem react_settled {β : Type} (w : Surroundings α) (r : Reaction α β) (c : Controller α) :
    c.react w.settled r = c.react w r := by
  simp only [Controller.react, performAll_settled]

theorem askMarket_settled (w : Surroundings α) (bars : List (Bar α)) (c : Controller α) :
    c.askMarket w.settled bars = c.askMarket w bars :=
  react_settled w _ _

variable [Numeric α]

/-- What a listener throws is all that matters of it. -/
theorem tell_result {w w' : Surroundings α} {r r' : Reaction α Unit} (hr : r'.result = r.result)
    (h : c.Busy) (h' : d.Busy) : (d.tell w' r').1 = (c.tell w r).1 := by
  have hresult := react_result (w := w) r h
  have hresult' := react_result (w := w') r' h'
  rw [hr] at hresult'
  unfold tell
  rcases hp : c.react w r with ⟨result, after⟩
  rcases hp' : d.react w' r' with ⟨result', after'⟩
  rw [hp] at hresult
  rw [hp'] at hresult'
  obtain rfl : result = result' := hresult.trans hresult'.symm
  cases result with
  | ok _ => rfl
  | error f =>
    dsimp only
    cases f.toError with
    | ok e => rfl
    | error e => rfl

/-- The performance that is told is the same in settled surroundings. -/
theorem askPerformance_settled (w : Surroundings α) (h : c.Busy) :
    (c.askPerformance w.settled).1 = (c.askPerformance w).1 ∧
      Twin (c.askPerformance w).2 (c.askPerformance w.settled).2 ∧
      (c.askPerformance w.settled).2.switches = c.switches := by
  cases hask : w.performance with
  | none =>
    have hsettled : w.settled.performance = none := by simp [Surroundings.settled, hask]
    simp only [askPerformance, hask, hsettled]
    exact ⟨trivial, .refl c, trivial⟩
  | some ask =>
    have hsettled : w.settled.performance = some fun call => (ask call).settled := by
      simp [Surroundings.settled, hask]
    obtain ⟨noted, hnoted⟩ : ∃ noted, noted = ({ c with
      calls := { c.calls with performance := c.calls.performance + 1 } } : Controller α).note
        .performanceAsked := ⟨_, rfl⟩
    have hbusy : noted.Busy := by
      rw [hnoted]
      exact h
    simp only [askPerformance, hask, hsettled, ← hnoted, react_settled]
    refine ⟨?_, (Twin.react w _ hbusy).symm.trans (.react w _ hbusy), ?_⟩
    · rw [react_result _ hbusy, react_result _ hbusy]
      rfl
    · rw [switches_react_settled w _ hbusy, hnoted]
      rfl

/-- Telling of a spread below the floor comes to the same in settled surroundings. -/
theorem tellClamp_settled (w : Surroundings α) (event : Pricing.FloorClamp α) (h : c.Busy)
    (htwin : Twin c d) :
    (d.tellClamp w.settled event).1 = (c.tellClamp w event).1 ∧
      Twin (c.tellClamp w event).2 (d.tellClamp w.settled event).2 ∧
      (d.tellClamp w.settled event).2.switches = d.switches := by
  cases hlisteners : w.listeners with
  | none =>
    have hsettled : w.settled.listeners = none := by simp [Surroundings.settled, hlisteners]
    simp only [tellClamp, hlisteners, hsettled]
    exact ⟨trivial, htwin, trivial⟩
  | some l =>
    have hsettled : w.settled.listeners = some { l with
        onFloorClamp := fun call e => (l.onFloorClamp call e).settled } := by
      simp [Surroundings.settled, hlisteners]
    obtain ⟨noted, hnoted⟩ : ∃ noted, noted = ({ c with
      calls := { c.calls with clamp := c.calls.clamp + 1 } } : Controller α).note
        (.clamped event) := ⟨_, rfl⟩
    obtain ⟨noted', hnoted'⟩ : ∃ noted', noted' = ({ d with
      calls := { d.calls with clamp := d.calls.clamp + 1 } } : Controller α).note
        (.clamped event) := ⟨_, rfl⟩
    have hbusy : noted.Busy := by
      rw [hnoted]
      exact h
    have htwin' : Twin noted noted' := by
      have hcore (x : Controller α) (calls : Calls) : (({ x with calls } : Controller α).note
        (.clamped event)).core = { x.core with
          calls := { calls with market := 0, performance := 0, clamp := 0 } } :=
        rfl
      rw [hnoted, hnoted', htwin.calls]
      refine ⟨?_, rfl⟩
      rw [hcore d, hcore c, htwin.core]
    have hbusy' := htwin'.busy hbusy
    simp only [tellClamp, hlisteners, hsettled, ← hnoted, ← hnoted']
    refine ⟨tell_result ?_ hbusy hbusy',
      ((Twin.tell w _ hbusy).symm.trans htwin').trans (.tell w.settled _ hbusy'), ?_⟩
    · rw [htwin.calls]
      rfl
    · rw [switches_tell_settled w.settled _ hbusy', hnoted']
      rfl

/-! ## Computing -/

omit [Scalar α] [NumberText α] [Numeric α] in
/-- Parameters relabelled with the source in place, where there is one. -/
def relabel (c : Controller α) (p : Parameters α) : Except (Failure α) (Parameters α) :=
  match c.source with
  | some s => .ok { p with source := .known s.mode }
  | none => .error (sourceGone c.mode)

omit [Numeric α] in
/-- Parameters from a quote are the figures of the quote, labelled with the source in place. -/
theorem exists_of_quoted {estimate : Volatility.Estimate α} {market : Market α} {now gamma : α}
    {quote : Pricing.Quote α} {p : Parameters α}
    (h : quoted c estimate market now gamma quote = .ok p) :
    ∃ s stopLoss, c.source = some s ∧ p = {
      bidSpread := quote.bidSpread
      askSpread := quote.askSpread
      reservationPrice := quote.reservationPrice
      optimalSpread := quote.optimalSpread / market.midPrice
      profitTakingLong := quote.askSpread * c.config.profitFactor
      profitTakingShort := quote.bidSpread * c.config.profitFactor
      stopLoss
      gammaUsed := some gamma
      source := .known s.mode
      volatilityUsed := estimate.value
      volatilityInterval := estimate.interval
      generatedAt := now } := by
  obtain ⟨_, -, h⟩ := Guards.bind_eq_ok.mp h
  obtain ⟨stopLoss, -, h⟩ := Guards.bind_eq_ok.mp h
  split at h
  · next s hsource =>
    obtain rfl := Except.ok.inj h
    exact ⟨s, stopLoss, hsource, rfl⟩
  · cases h

omit [Numeric α] in
/-- They have the risk aversion of the quote. -/
theorem quoted_label {estimate : Volatility.Estimate α} {market : Market α} {now gamma : α}
    {quote : Pricing.Quote α} {p : Parameters α}
    (h : quoted c estimate market now gamma quote = .ok p) :
    p.gammaUsed = some gamma ∧ ∃ s, c.source = some s ∧ p.source = .known s.mode := by
  obtain ⟨s, stopLoss, hsource, rfl⟩ := exists_of_quoted h
  exact ⟨rfl, s, hsource, rfl⟩

/-- From the same quote come the same parameters, up to their label. -/
theorem quoted_relabel (htwin : Twin c d) (hsource : d.source.isSome = true)
    (estimate : Volatility.Estimate α) (market : Market α) (now gamma : α)
    (quote : Pricing.Quote α) :
    quoted c estimate market now gamma quote =
      (quoted d estimate market now gamma quote).bind c.relabel := by
  obtain ⟨s, hs⟩ := Option.isSome_iff_exists.mp hsource
  unfold quoted
  rw [htwin.config, hs]
  simp only [checkUsable_eq_ok, bind, Except.bind]
  cases (Sizing.stopLossSpread (Volatility.annualize estimate.value)
    (Sizing.daysToYears c.config.maxHoldingTimeDays) c.config.stopLossRiskProbability).mapError
    (·.failure) with
  | error f => rfl
  | ok stopLoss =>
    cases hc : c.source with
    | none => simp [relabel, hc, pure, Except.pure]
    | some s' => simp [relabel, hc, pure, Except.pure]

/-- What becomes of a quote where the source that was asked is still in place, and where it may not
be. -/
theorem quoted_settled (htwin : Twin c d) {source : Gamma.Source α}
    (hsource : d.source = some source) (estimate : Volatility.Estimate α) (market : Market α)
    (now gamma : α) (quote : Pricing.Quote α) :
    quoted c estimate market now gamma quote =
      (quoted d estimate market now gamma quote).bind c.relabel ∧
    ∀ p, quoted d estimate market now gamma quote = .ok p →
      p.gammaUsed = some gamma ∧ p.source = .known source.mode := by
  refine ⟨quoted_relabel htwin (by rw [hsource]; rfl) estimate market now gamma quote,
    fun p hp => ?_⟩
  obtain ⟨hgamma, s, hs, hlabel⟩ := quoted_label hp
  obtain rfl := Option.some.inj (hsource.symm.trans hs)
  exact ⟨hgamma, hlabel⟩

/-- A quote around the same risk aversion comes to the same in settled surroundings, up to its
label. -/
theorem price_settled (w : Surroundings α) (estimate : Volatility.Estimate α) (market : Market α)
    (now gamma : α) (h : c.Busy) (htwin : Twin c d) {source : Gamma.Source α}
    (hsource : d.source = some source) :
    (c.price w estimate market now gamma).1 =
      (d.price w.settled estimate market now gamma).1.bind
        (c.price w estimate market now gamma).2.relabel ∧
    ∀ p, (d.price w.settled estimate market now gamma).1 = .ok p →
      p.gammaUsed = some gamma ∧ p.source = .known source.mode := by
  unfold price
  simp only [htwin.config, htwin.pricing]
  cases Pricing.compute c.pricing ⟨market, gamma, estimate.value, c.config.timeHorizonSeconds⟩ with
  | error e => exact ⟨rfl, nofun⟩
  | ok quote =>
    dsimp only
    generalize Pricing.logOf ⟨market, gamma, estimate.value,
      c.config.timeHorizonSeconds⟩ quote = entries
    have hlogged : Twin (c.logAll entries) (d.logAll entries) :=
      ((Twin.logAll entries c).symm.trans htwin).trans (.logAll entries d)
    have hkept : (d.logAll entries).source = some source :=
      (source_logAll entries d).1.trans hsource
    cases quote.floorClamp with
    | none => exact quoted_settled hlogged hkept estimate market now gamma quote
    | some event =>
      have hbusy := (Twin.logAll entries c).busy h
      obtain ⟨hresult, htold, hswitches⟩ := tellClamp_settled w event hbusy hlogged
      have hkept' : ((d.logAll entries).tellClamp w.settled event).2.source = some source :=
        ((Learns.tellClamp w.settled event (hlogged.busy hbusy)).source_eq hswitches).trans hkept
      dsimp only
      rw [hresult]
      cases ((c.logAll entries).tellClamp w event).1 with
      | error f => exact ⟨rfl, nofun⟩
      | ok _ => exact quoted_settled htold hkept' estimate market now gamma quote

omit [Scalar α] [Numeric α] in
/-- Numbers can be learnt from. -/
theorem canUse_eq_true [Scalar α] [Numeric α] (source : Gamma.Source α)
    (context : Gamma.Context α) : source.canUse context = true := by
  cases source with
  | fixed => rfl
  | online l =>
    unfold Gamma.Source.canUse
    cases context.performance with
    | none => rfl
    | some p => simp [Gamma.Learner.canUse, Gamma.Learner.canContinue, Numeric.hasText]
  | rules r => simp [Gamma.Source.canUse, Gamma.Rules.canUse, Numeric.hasText]

/-- A controller once its source of risk aversion was asked in a computation. -/
def consulted (w : Surroundings α) (bars : List (Bar α)) (source : Gamma.Source α)
    (context : Gamma.Context α) (c : Controller α) : Controller α :=
  let after := (c.askMarket w bars).2
  let told := (after.askPerformance w).2
  (told.keepSource after.switches (source.resolve context).2.1).logAll (source.resolve context).2.2

omit [Numeric α] in
/-- A source is consulted when the market and the performance are known. -/
theorem consultation?_eq_some {w : Surroundings α} {bars : List (Bar α)} {now : α}
    {source : Gamma.Source α} {context : Gamma.Context α}
    (hconsults : c.consultation? w bars now = some (source, context)) :
    ∃ estimate after performance told, Volatility.estimate bars c.config.volatilityInterval now =
      .ok estimate ∧
      c.askMarket w bars = (.ok context.market, after) ∧ after.source = some source ∧
      after.askPerformance w = (.ok performance, told) ∧
      context = ⟨context.market, estimate.value, now, after.published.map (·.optimalSpread),
        performance⟩ := by
  unfold consultation? at hconsults
  cases hestimate : Volatility.estimate bars c.config.volatilityInterval now with
  | error f =>
    rw [hestimate] at hconsults
    cases hconsults
  | ok estimate =>
    rw [hestimate] at hconsults
    rcases hm : c.askMarket w bars with ⟨result, after⟩
    rw [hm] at hconsults
    cases result with
    | error f => cases hconsults
    | ok market =>
      dsimp only at hconsults
      obtain ⟨asked, hsource, hconsults⟩ := Option.bind_eq_some_iff.mp hconsults
      rcases hp : after.askPerformance w with ⟨result, told⟩
      rw [hp] at hconsults
      cases result with
      | error f => cases hconsults
      | ok performance =>
        obtain ⟨rfl, rfl⟩ := Prod.mk.inj (Option.some.inj hconsults)
        exact ⟨estimate, after, performance, told, rfl, rfl, hsource, hp, rfl⟩

/-- A computation that consults a source comes to a price around its answer. -/
theorem compute_of_consultation (w : Surroundings α) (bars : List (Bar α)) (now : α) (h : c.Busy)
    {source : Gamma.Source α} {context : Gamma.Context α}
    (hconsults : c.consultation? w bars now = some (source, context)) :
    Aside c (c.consulted w bars source context) ∧
      ∃ estimate, Volatility.estimate bars c.config.volatilityInterval now = .ok estimate ∧
        c.compute w bars now =
          (c.consulted w bars source context).price w estimate context.market now
          (source.resolve context).1 := by
  obtain ⟨estimate, after, performance, told, hestimate, hm, hsource, hp, hcontext⟩ :=
    consultation?_eq_some hconsults
  have hmarket := Aside.askMarket w bars h
  have hperformance := Aside.askPerformance w (hmarket.busy h)
  rw [hm] at hmarket hperformance
  rw [hp] at hperformance
  refine ⟨?_, estimate, hestimate, ?_⟩
  · simp only [consulted, hm, hp]
    exact (hmarket.trans hperformance).trans
      ((Aside.keepSource after.switches _ told).trans (.logAll _ _))
  · simp only [compute, computeWith, consulted, hestimate, hm, hsource, hp, ← hcontext,
      canUse_eq_true, if_true]

/-- A source is consulted in the same way in settled surroundings, and is still in place once it was
asked. -/
theorem consulted_settled (w : Surroundings α) (bars : List (Bar α)) (now : α) (h : c.Busy)
    {source : Gamma.Source α} {context : Gamma.Context α}
    (hconsults : c.consultation? w bars now = some (source, context)) :
    c.consultation? w.settled bars now = some (source, context) ∧
      Twin (c.consulted w bars source context) (c.consulted w.settled bars source context) ∧
      (c.consulted w.settled bars source context).source = some (source.resolve context).2.1 := by
  obtain ⟨estimate, after, performance, told, hestimate, hm, hsource, hp, hcontext⟩ :=
    consultation?_eq_some hconsults
  have hmarket := Aside.askMarket w bars h
  rw [hm] at hmarket
  obtain ⟨hresult, htwin, hswitches⟩ := askPerformance_settled w (hmarket.busy h)
  rcases hp' : after.askPerformance w.settled with ⟨result, told'⟩
  rw [hp, hp'] at hresult htwin
  rw [hp'] at hswitches
  obtain rfl : result = .ok performance := hresult
  refine ⟨?_, ?_, ?_⟩
  · simp only [consultation?, hestimate, askMarket_settled, hm, hsource, hp', Option.bind_some,
      ← hcontext]
  · -- The two controllers differ by a source that the first one may not keep.
    simp only [consulted, askMarket_settled, hm, hp, hp']
    have hkept := (Twin.keepSource after.switches (source.resolve context).2.1 told).trans
      (.logAll (source.resolve context).2.2 _)
    have hkept' := (Twin.keepSource after.switches (source.resolve context).2.1 told').trans
      (.logAll (source.resolve context).2.2 _)
    exact (hkept.symm.trans htwin).trans hkept'
  · simp only [consulted, askMarket_settled, hm, hp', (source_logAll _ _).1,
      keepSource, if_pos hswitches]

/-- **Switching modes in the middle of a computation.** A computation that consults a source comes
to what it comes to in settled surroundings, with the label of the source in place at its end;
without one it fails. In settled surroundings the label is always that of the source that was
consulted. -/
theorem compute_settled (w : Surroundings α) (bars : List (Bar α)) (now : α) (h : c.Busy)
    {source : Gamma.Source α} {context : Gamma.Context α}
    (hconsults : c.consultation? w bars now = some (source, context)) :
    (c.compute w bars now).1 =
      (c.compute w.settled bars now).1.bind (c.compute w bars now).2.relabel ∧
    ∀ p, (c.compute w.settled bars now).1 = .ok p →
      p.gammaUsed = some (source.resolve context).1 ∧ p.source = .known source.mode := by
  obtain ⟨hsettled, htwin, hkept⟩ := consulted_settled w bars now h hconsults
  obtain ⟨haside, estimate, hestimate, hcompute⟩ := compute_of_consultation w bars now h hconsults
  obtain ⟨-, estimate', hestimate', hcompute'⟩ :=
    compute_of_consultation w.settled bars now h hsettled
  obtain rfl := Except.ok.inj (hestimate.symm.trans hestimate')
  have hmode : (source.resolve context).2.1.mode = source.mode := source.mode_next context
  rw [hcompute, hcompute', ← hmode]
  exact price_settled w estimate context.market now (source.resolve context).1
    (haside.busy h) htwin hkept

end Controller

end MarketMaker.Refresh
