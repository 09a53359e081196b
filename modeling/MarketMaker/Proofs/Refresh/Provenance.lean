import MarketMaker.Proofs.Refresh.Publishing
import MarketMaker.Proofs.Refresh.Switches

/-!
# Where the published risk aversion comes from

A published set says which risk aversion it was computed with and which source gave it. The risk
aversion is always what the source that the cycle consulted has answered, and there is none exactly
when the label says so.

The label is that of the source in place at the end of the computation. It names the source that was
consulted exactly when the one in place is still of its kind; and a switch in the middle of a
computation makes the cycle fail exactly when it leaves no source in place.
-/

namespace MarketMaker.Refresh.Controller

open Scalar

variable {α : Type} [Scalar α] [NumberText α] [Numeric α]

variable {w : Surroundings α} {c d : Controller α} {y : Cycle α} {bars : List (Bar α)}
  {b : Controller α} {now : α} {p : Parameters α}

/-! ## What a computation comes to -/

/-- Parameters from volatility alone have no risk aversion. -/
theorem sized_label {config : Config α} {estimate : Volatility.Estimate α} {market : Market α}
    (h : sized config estimate market now = .ok p) :
    p.gammaUsed = none ∧ p.source = .known .autoOptimize := by
  simp only [sized, checkUsable_eq_ok, bind, Except.bind] at h
  split at h
  · cases h
  · obtain rfl := Except.ok.inj h
    exact ⟨rfl, rfl⟩

/-- A computation that consults no source comes to no risk aversion. -/
theorem label_of_unconsulted (hnone : b.consultation? w bars now = none)
    (hp : (b.compute w bars now).1 = .ok p) :
    p.gammaUsed = none ∧ p.source = .known .autoOptimize := by
  unfold compute consultation? at *
  cases hestimate : Volatility.estimate bars b.config.volatilityInterval now with
  | error f =>
    rw [hestimate] at hp
    cases hp
  | ok estimate =>
    rw [hestimate] at hnone hp
    rcases hm : b.askMarket w bars with ⟨result, after⟩
    rw [hm] at hnone hp
    cases result with
    | error f => cases hp
    | ok market =>
      dsimp only at hnone hp
      cases hsource : after.source with
      | none =>
        rw [hsource] at hp
        exact sized_label hp
      | some source =>
        -- A source that is there is consulted, unless asking for the performance fails.
        rw [hsource] at hnone hp
        simp only [Option.bind_some, computeWith] at hnone hp
        rcases hperformance : after.askPerformance w with ⟨result, told⟩
        rw [hperformance] at hnone hp
        cases result with
        | error f => cases hp
        | ok performance => cases hnone

/-- Where a set that a computation comes to has its risk aversion and its label from. -/
structure Traced (w : Surroundings α) (bars : List (Bar α)) (now : α) (b : Controller α)
    (p : Parameters α) : Prop where
  /-- The set is without risk aversion exactly if its label is the mode without a source. -/
  gammaUsed : p.gammaUsed = none ↔ p.source = .known .autoOptimize
  /-- Where no source was asked, the set has none. -/
  unconsulted : b.consultation? w bars now = none → p.gammaUsed = none
  /-- Where one was asked, its answer is the risk aversion of the set. -/
  consulted : ∀ source context, b.consultation? w bars now = some (source, context) →
    p.gammaUsed = some (source.resolve context).1
  /-- The label is the mode of that source exactly if a source of the mode is in place afterwards.
  -/
  label : ∀ source context, b.consultation? w bars now = some (source, context) →
    (p.source = .known source.mode ↔
      (b.compute w bars now).2.source.map (·.mode) = some source.mode)

/-- **A set is traced to the computation that came to it.** -/
theorem Traced.of_compute (h : b.Busy) (hp : (b.compute w bars now).1 = .ok p) :
    Traced w bars now b p := by
  cases hconsults : b.consultation? w bars now with
  | none =>
    obtain ⟨hgamma, hlabel⟩ := label_of_unconsulted hconsults hp
    refine ⟨iff_of_true hgamma hlabel, fun _ => hgamma, fun source context hsome => ?_,
      fun source context hsome => ?_⟩
    · rw [hconsults] at hsome
      cases hsome
    · rw [hconsults] at hsome
      cases hsome
  | some consultation =>
    obtain ⟨asked, context⟩ := consultation
    obtain ⟨heq, hsettled⟩ := compute_settled w bars now h hconsults
    obtain ⟨q, hq, hrelabel⟩ : ∃ q, (b.compute w.settled bars now).1 = .ok q ∧
        (b.compute w bars now).2.relabel q = .ok p := by
      rw [heq] at hp
      cases hq : (b.compute w.settled bars now).1 with
      | error f =>
        rw [hq] at hp
        cases hp
      | ok q =>
        rw [hq] at hp
        exact ⟨q, rfl, hp⟩
    obtain ⟨hgamma, -⟩ := hsettled q hq
    cases hsource : (b.compute w bars now).2.source with
    | none =>
      simp only [relabel, hsource] at hrelabel
      cases hrelabel
    | some s =>
      simp only [relabel, hsource] at hrelabel
      obtain rfl := Except.ok.inj hrelabel
      have hmode : s.mode ≠ .autoOptimize := by cases s <;> simp [Gamma.Source.mode]
      refine ⟨?_, fun hnone => ?_, fun source context' hsome => ?_, fun source context' hsome => ?_⟩
      · refine iff_of_false (fun hnone => ?_) fun hlabel => hmode (Choice.known.inj hlabel)
        cases hgamma.symm.trans hnone
      · rw [hconsults] at hnone
        cases hnone
      · obtain ⟨rfl, rfl⟩ := Prod.mk.inj (Option.some.inj (hconsults.symm.trans hsome))
        exact hgamma
      · rw [hsource]
        simp

/-! ## Where nobody listens -/

omit [Numeric α] in
/-- Where nobody listens, a quote that can be computed is all there is to a price. -/
theorem price_unheard (hlisteners : w.listeners = none) {estimate : Volatility.Estimate α}
    {market : Market α} {gamma : α}
    (hfault : Pricing.fault? ⟨market, gamma, estimate.value, c.config.timeHorizonSeconds⟩ = none) :
    ∃ entries quote, c.price w estimate market now gamma =
      (quoted (c.logAll entries) estimate market now gamma quote, c.logAll entries) := by
  let input : Pricing.Input α := ⟨market, gamma, estimate.value, c.config.timeHorizonSeconds⟩
  refine ⟨Pricing.logOf input (Pricing.quoteOf c.pricing input),
    Pricing.quoteOf c.pricing input, ?_⟩
  simp only [price, Pricing.compute, hfault]
  split
  · simp only [tellClamp, hlisteners]
    rfl
  · rfl

/-- What becomes of a quote while the risk of a loss is a probability: it takes a source to label
it. -/
theorem quoted_eq (hrisk : Sizing.isProbability c.config.stopLossRiskProbability = true)
    (estimate : Volatility.Estimate α) (market : Market α) (gamma : α) (quote : Pricing.Quote α) :
    (∀ s, c.source = some s → ∃ p, quoted c estimate market now gamma quote = .ok p ∧
      p.source = .known s.mode) ∧
      (c.source = none →
        quoted c estimate market now gamma quote = .error (sourceGone c.mode)) := by
  unfold quoted
  simp only [Sizing.stopLossSpread, Sizing.checkProbability, hrisk, checkUsable_eq_ok, bind,
    Except.bind, pure, Except.pure, if_true, Except.mapError]
  refine ⟨fun s hs => ?_, fun hs => ?_⟩
  · rw [hs]
    exact ⟨_, rfl, rfl⟩
  · rw [hs]

omit [Scalar α] [NumberText α] [Numeric α] in
theorem stopped_logAll (entries : List (Log.Entry α)) (c : Controller α) :
    (c.logAll entries).stopped = c.stopped := by
  induction entries generalizing c with
  | nil => rfl
  | cons e rest ih => exact ih (c.note (.logged e))

/-- Where nobody listens and every figure is in order, a computation that consults a source comes to
parameters with the label of the source that is left in place, and fails where none is. -/
theorem compute_of_unheard (h : b.Busy) (hlisteners : w.listeners = none) {source : Gamma.Source α}
    {context : Gamma.Context α} (hconsults : b.consultation? w bars now = some (source, context))
    (hfault : ∀ estimate, Volatility.estimate bars b.config.volatilityInterval now = .ok estimate →
      Pricing.fault? ⟨context.market, (source.resolve context).1, estimate.value,
        b.config.timeHorizonSeconds⟩ = none)
    (hrisk : Sizing.isProbability b.config.stopLossRiskProbability = true) :
    (∀ s, (b.consulted w bars source context).source = some s →
        ∃ p, (b.compute w bars now).1 = .ok p ∧ p.source = .known s.mode) ∧
      ((b.consulted w bars source context).source = none →
        ∃ mode, (b.compute w bars now).1 = .error (sourceGone mode) ∧
          (b.compute w bars now).2.stopped = (b.consulted w bars source context).stopped) := by
  obtain ⟨haside, estimate, hestimate, hcompute⟩ := compute_of_consultation w bars now h hconsults
  generalize b.consulted w bars source context = asked at haside hcompute ⊢
  rw [← haside.config] at hfault hrisk
  obtain ⟨entries, quote, hprice⟩ :=
    price_unheard hlisteners (hfault estimate (haside.config ▸ hestimate))
  rw [← (Aside.logAll entries asked).config] at hrisk
  obtain ⟨hlabelled, hgone⟩ :=
    quoted_eq hrisk estimate context.market (source.resolve context).1 quote
  rw [(source_logAll entries asked).1] at hlabelled hgone
  rw [hcompute, hprice]
  exact ⟨hlabelled, fun hnone => ⟨_, hgone hnone, stopped_logAll entries asked⟩⟩

/-! ## Runs -/

/-- A cycle that goes on leaves the published set, or publishes what it comes to. -/
theorem GoesOn.published {fetched : Except (Failure α) (List (Bar α))} (h : GoesOn c y fetched)
    (hbusy : c.Busy) (w : Surroundings α) :
    (c.conclude w fetched y.startedAt).2.published = c.published ∨
      ∃ next, (c.conclude w fetched y.startedAt).2.published = some next ∧ ComesTo w c next := by
  rcases h.settles hbusy w with ⟨huntouched, -⟩ |
    ⟨next, hcomes, -, ⟨-, hretained, -⟩ | ⟨-, hreplaced, -⟩⟩
  · exact .inl huntouched.published
  · exact .inl hretained.published
  · exact .inr ⟨next, hreplaced.published, hcomes⟩

/-- The first set that a cycle comes to is published. -/
theorem Computes.published_first (h : Computes c y bars b) (horderly : c.Orderly fun _ _ => True)
    (hfirst : c.published = none) (hok : (b.compute w bars y.startedAt).1 = .ok p) :
    (c.resume w).published = some p := by
  have hbusy := (horderly.busy h.cycle h.fetched).2
  obtain ⟨-, heq⟩ := h.toGoesOn.resume horderly w
  rw [heq]
  rcases (h.settles hbusy hok).2 with ⟨hkept, -, -⟩ | ⟨-, hreplaced, -⟩
  · rw [isWorthPublishing_eq, hfirst] at hkept
    cases hkept
  · exact hreplaced.published

/-- A cycle that finds its source gone fails, unless it is stopped. -/
theorem Computes.failed_of_sourceGone (h : Computes c y bars b)
    (horderly : c.Orderly fun _ _ => True) (hlisteners : w.listeners = none) {mode : Choice Mode α}
    (herror : (b.compute w bars y.startedAt).1 = .error (sourceGone mode))
    (hstopped : (b.compute w bars y.startedAt).2.stopped = false) :
    (c.resume w).outcomes[y.number]?.any Outcome.isFailure = true := by
  have hwords : (sourceGone mode).hasWords = true := by cases mode <;> rfl
  obtain ⟨e, he⟩ := exists_toError hwords
  rw [h.toGoesOn.outcomes_resume horderly w, ← horderly.length_outcomes h.cycle h.running,
    List.getElem?_concat_length, h.conclude_eq w]
  rcases hcompute : b.compute w bars y.startedAt with ⟨result, computed⟩
  rw [hcompute] at herror hstopped
  obtain rfl : result = .error (sourceGone mode) := herror
  have hheeded : ((sourceGone mode).isCancellation || computed.stopped) = false := by
    rw [hstopped]
    rfl
  simp only [caught, hheeded, he, fail, checkUsable_eq_ok, tellFailure, hlisteners]
  rfl

/-- A published set was there before, or a cycle came to it. -/
theorem published_run (horderly : c.Orderly fun _ _ => True) (w : Surroundings α)
    (events : List (Event α)) (hp : (c.run w events).published = some p) :
    c.published = some p ∨
      ∃ before rest, events = before ++ .resume :: rest ∧ ComesTo w (c.run w before) p := by
  induction events generalizing c with
  | nil => exact .inl hp
  | cons event rest ih =>
    have hstep := horderly.event w event
    rcases ih hstep hp with hbefore | ⟨first, later, rfl, hcomes⟩
    · rcases step_cases w c event with hlull | ⟨-, ticked, time, heq⟩ | ⟨rfl, y, fetched, hgoes⟩
      · exact .inl (hlull.untouched.published.symm.trans hbefore)
      · rw [heq] at hbefore
        exact .inl hbefore
      · obtain ⟨-, heq⟩ := hgoes.resume horderly w
        have hbusy := (horderly.busy hgoes.cycle hgoes.fetched).2
        simp only [step, heq] at hbefore
        rcases hgoes.published hbusy w with hsame | ⟨next, hnext, hcomes⟩
        · exact .inl (hsame.symm.trans hbefore)
        · obtain rfl := Option.some.inj (hnext.symm.trans hbefore)
          exact .inr ⟨[], rest, rfl, hcomes⟩
    · exact .inr ⟨event :: first, later, rfl, hcomes⟩

/-- **Where the published risk aversion comes from.** Every published set was computed by a cycle
that went on at some moment of the run, and is traced to it. A cycle that has consulted a source
comes to parameters exactly when it does in settled surroundings and some source is in place at the
end. -/
theorem published_traced_iff {config : Config α} {c₀ : Controller α}
    (hcreate : create config = .ok c₀) (w : Surroundings α) (events : List (Event α)) :
    (∀ p, (c₀.run w events).published = some p →
      ∃ before rest y bars b, events = before ++ .resume :: rest ∧
      Computes (c₀.run w before) y bars b ∧ (b.compute w bars y.startedAt).1 = .ok p ∧
      Traced w bars y.startedAt b p) ∧
    ∀ y bars b source context, Computes (c₀.run w events) y bars b →
      b.consultation? w bars y.startedAt = some (source, context) →
      ((∃ p, (b.compute w bars y.startedAt).1 = .ok p) ↔
        (∃ p, (b.compute w.settled bars y.startedAt).1 = .ok p) ∧
          (b.compute w bars y.startedAt).2.source.isSome = true) := by
  have hrun (events : List (Event α)) : (c₀.run w events).Orderly fun _ _ => True :=
    orderly_run hcreate (fun _ _ _ => trivial) (fun _ _ _ => trivial)
  have hbusy {events : List (Event α)} {y : Cycle α} {bars : List (Bar α)} {b : Controller α}
      (hb : Computes (c₀.run w events) y bars b) : b.Busy :=
    hb.prepares.keeps.busy ((hrun events).busy hb.cycle hb.fetched).2
  constructor
  · intro p hp
    rcases published_run (.create hcreate) w events hp with hbefore |
      ⟨before, rest, hsplit, y, bars, b, hb, hnext⟩
    · obtain ⟨pricing, source, rfl⟩ := create_spec hcreate
      cases hbefore
    · exact ⟨before, rest, y, bars, b, hsplit, hb, hnext, .of_compute (hbusy hb) hnext⟩
  · intro y bars b source context hb hconsults
    obtain ⟨heq, -⟩ := compute_settled w bars y.startedAt (hbusy hb) hconsults
    rw [heq]
    cases (b.compute w.settled bars y.startedAt).1 with
    | error f => exact iff_of_false (by rintro ⟨p, ⟨⟩⟩) (by rintro ⟨⟨p, ⟨⟩⟩, -⟩)
    | ok q =>
      cases hsource : (b.compute w bars y.startedAt).2.source with
      | none => simp [relabel, hsource, Except.bind]
      | some s => simp [relabel, hsource, Except.bind]

/-! ## Switching at hand -/

/-- The controller of the sample with a constant risk aversion. -/
def fixedSample : Controller Float :=
  { sample with
    config := { sampleConfig with mode := .known .fixed }
    mode := .known .fixed
    source := some (.fixed 1 0.001 10) }

theorem create_fixedSample :
    create { sampleConfig with mode := .known .fixed } = .ok fixedSample := rfl

/-- Surroundings with two bars, in which whoever is asked for the performance switches to a mode. -/
def switching (mode : Mode) : Surroundings Float :=
  { answering (.now (.ok sampleBars)) with
    performance := some fun _ => ⟨[.setMode (.known mode)], .ok none⟩ }

/-- The market that those surroundings answer with. -/
def sampleMarket : Market Float :=
  { midPrice := 100, inventory := 0, alpha := 1, kappa := 1, timestamp := 0 }

/-- The first cycle of that controller consults the constant, whatever mode is switched to
meanwhile. It publishes a set with the label of the source that is left, and fails where none is. -/
theorem switching_spec (mode : Mode) :
    let w := switching mode
    let r := fixedSample.run w [.refresh 1, .make, .deliver]
    let b := r.beginShort sampleBars
    ∃ y context, Computes r y sampleBars b ∧
      b.consultation? w sampleBars y.startedAt = some (.fixed 1 0.001 10, context) ∧
      (∀ s, (b.consulted w sampleBars (.fixed 1 0.001 10) context).source = some s →
        ∃ p, (r.step w .resume).published = some p ∧ p.gammaUsed = some 1 ∧
          p.source = .known s.mode) ∧
      ((b.consulted w sampleBars (.fixed 1 0.001 10) context).source = none →
        (b.consulted w sampleBars (.fixed 1 0.001 10) context).stopped = false →
        (r.step w .resume).outcomes[y.number]?.any Outcome.isFailure = true) := by
  intro w r b
  have horderly : r.Orderly fun _ _ => True :=
    orderly_run create_fixedSample (fun _ _ _ => trivial) (fun _ _ _ => trivial)
  obtain ⟨y, hgoes, hstarted⟩ : ∃ y, GoesOn r y (.ok sampleBars) ∧ y.startedAt = 1 :=
    ⟨_, ⟨rfl, rfl, nofun, rfl⟩, rfl⟩
  have hshort : (sampleBars.length : Float) < fixedSample.config.lookback := by decide +kernel
  have hcomputes : Computes r y sampleBars b := hgoes.computes_short rfl hshort
  have hbusy : b.Busy :=
    hcomputes.prepares.keeps.busy (horderly.busy hcomputes.cycle hcomputes.fetched).2
  obtain ⟨context, hconsults, hmarket⟩ : ∃ context,
      b.consultation? w sampleBars y.startedAt = some (.fixed 1 0.001 10, context) ∧
        context.market = sampleMarket := by
    rw [hstarted]
    exact ⟨_, rfl, rfl⟩
  have hrisk : Sizing.isProbability fixedSample.config.stopLossRiskProbability = true := by
    decide +kernel
  have hfault (estimate : Volatility.Estimate Float)
      (hestimate : Volatility.estimate sampleBars fixedSample.config.volatilityInterval
        y.startedAt = .ok estimate) :
      Pricing.fault? ⟨context.market, 1, estimate.value,
        fixedSample.config.timeHorizonSeconds⟩ = none := by
    -- The two bars do not move.
    have hall :
      (Volatility.estimate sampleBars fixedSample.config.volatilityInterval 1).toOption.all
        (fun e =>
        (Pricing.fault? ⟨sampleMarket, 1, e.value, fixedSample.config.timeHorizonSeconds⟩).isNone) =
          true := by
      decide +kernel
    rw [hstarted] at hestimate
    rw [hestimate] at hall
    rw [hmarket]
    exact Option.isNone_iff_eq_none.mp hall
  obtain ⟨hlabelled, hgone⟩ := compute_of_unheard hbusy rfl hconsults hfault hrisk
  refine ⟨y, context, hcomputes, hconsults, fun s hs => ?_, fun hnone hstopped => ?_⟩
  · obtain ⟨p, hp, hlabel⟩ := hlabelled s hs
    exact ⟨p, hcomputes.published_first horderly rfl hp,
      (Traced.of_compute hbusy hp).consulted _ _ hconsults, hlabel⟩
  · obtain ⟨mode, herror, hstopped'⟩ := hgone hnone
    exact hcomputes.failed_of_sourceGone horderly rfl herror (hstopped'.trans hstopped)

/-- Whoever is asked for the performance of the first cycle switches to the rules. The set that is
published all the same is traced to the computation. -/
theorem published_traced_iff_switching :
    let w := switching .ruleAdaptive
    let events : List (Event Float) := [.refresh 1, .make, .deliver, .resume]
    create { sampleConfig with mode := .known .fixed } = .ok fixedSample ∧
      ∃ p, (fixedSample.run w events).published = some p ∧
        ∃ before rest y bars b, events = before ++ .resume :: rest ∧
          Computes (fixedSample.run w before) y bars b ∧ Traced w bars y.startedAt b p := by
  intro w events
  obtain ⟨y, context, -, -, hlabelled, -⟩ := switching_spec .ruleAdaptive
  obtain ⟨p, hpublished, -⟩ := hlabelled _ rfl
  obtain ⟨htraced, -⟩ := published_traced_iff create_fixedSample w events
  obtain ⟨before, rest, z, bars, b, hsplit, hb, -, htraces⟩ := htraced p hpublished
  exact ⟨create_fixedSample, p, hpublished, before, rest, z, bars, b, hsplit, hb, htraces⟩

/-- Whoever is asked for the performance switches modes. Switched to the rules, the set that is
published has the constant for its risk aversion and yet the rules for its source. Switched to the
mode without risk aversion, the cycle fails. -/
theorem published_not_traced_switching :
    (let w := switching .ruleAdaptive
     let r := fixedSample.run w [.refresh 1, .make, .deliver]
     ∃ y b context p, Computes r y sampleBars b ∧
       b.consultation? w sampleBars y.startedAt = some (.fixed 1 0.001 10, context) ∧
       (r.step w .resume).published = some p ∧ p.gammaUsed = some 1 ∧
       p.source = .known .ruleAdaptive) ∧
    let w := switching .autoOptimize
    let r := fixedSample.run w [.refresh 1, .make, .deliver]
    ∃ y b context, Computes r y sampleBars b ∧
      b.consultation? w sampleBars y.startedAt = some (.fixed 1 0.001 10, context) ∧
      (b.consulted w sampleBars (.fixed 1 0.001 10) context).mode = .known .autoOptimize ∧
      (r.step w .resume).outcomes[y.number]?.any Outcome.isFailure = true := by
  constructor
  · obtain ⟨y, context, hcomputes, hconsults, hlabelled, -⟩ := switching_spec .ruleAdaptive
    obtain ⟨p, hpublished, hgamma, hlabel⟩ := hlabelled _ rfl
    exact ⟨y, _, context, p, hcomputes, hconsults, hpublished, hgamma, hlabel⟩
  · obtain ⟨y, context, hcomputes, hconsults, -, hgone⟩ := switching_spec .autoOptimize
    exact ⟨y, _, context, hcomputes, hconsults, rfl, hgone rfl rfl⟩

end MarketMaker.Refresh.Controller
