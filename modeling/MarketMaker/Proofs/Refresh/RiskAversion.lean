import MarketMaker.Proofs.Binary64
import MarketMaker.Proofs.Refresh.Provenance
import MarketMaker.Proofs.Refresh.Serving

/-!
# Risk aversion is always usable

The source in place serves the configuration, so that what it answers is a risk aversion that can be
priced with.

A step of a cycle is **priceable** when it does not fail because the risk aversion is refused,
unless such a refusal was thrown by the source of the market or of the performance. Every step is
priceable, and so is the whole of a computation (`compute_priceable`). What the source of bars
answers aside, no cycle fails for its risk aversion (`GoesOn.refused`).
-/

namespace MarketMaker

open Scalar

variable {α : Type} [Scalar α]

/-! ## Failures about the risk aversion -/

/-- Whether a cause is a risk aversion that nothing can be priced with. -/
def EngineError.refusesGamma : EngineError α → Bool
  | .invalidRiskFactor _ => true
  | _ => false

/-- Whether a failure is that a risk aversion was refused. -/
def Failure.refusesGamma : Failure α → Bool
  | .engine e _ => e.refusesGamma
  | _ => false

/-- A failure that the market or the performance was answered with. -/
def Refresh.Surroundings.Throws (w : Refresh.Surroundings α) (f : Failure α) : Prop :=
  (∃ call bars, (w.market call bars).result = .error f) ∨
    ∃ ask call, w.performance = some ask ∧ (ask call).result = .error f

/-- Whether the failure, if there is one, is none about the risk aversion, or was thrown by the
surroundings. -/
def Priceable {β : Type} (w : Refresh.Surroundings α) (x : Except (Failure α) β) : Prop :=
  ∀ f, x = .error f → f.refusesGamma = false ∨ w.Throws f

variable {w : Refresh.Surroundings α} {β γ : Type}

omit [Scalar α] in
theorem Priceable.ok (b : β) : Priceable w (.ok b : Except (Failure α) β) := nofun

omit [Scalar α] in
theorem Priceable.error {f : Failure α} (h : f.refusesGamma = false) :
    Priceable w (.error f : Except (Failure α) β) := by
  rintro g ⟨⟩
  exact .inl h

omit [Scalar α] in
/-- What was thrown is thrown on. -/
theorem Priceable.onward {f : Failure α} (h : Priceable w (.error f : Except (Failure α) β)) :
    Priceable w (.error f : Except (Failure α) γ) := by
  rintro g ⟨⟩
  exact h f rfl

omit [Scalar α] in
theorem Priceable.bind {x : Except (Failure α) β} {g : β → Except (Failure α) γ}
    (hx : Priceable w x) (hg : ∀ b, Priceable w (g b)) : Priceable w (x >>= g) := by
  cases x with
  | ok b => exact hg b
  | error f => exact hx.onward

variable [NumberText α]

omit [Scalar α] in
theorem Priceable.checkUsable (figures : List α) : Priceable w (checkUsable figures) := by
  unfold MarketMaker.checkUsable
  split
  · exact .ok ()
  · exact .error rfl

omit [Scalar α] in
theorem EngineError.refusesGamma_failure {e : EngineError α} (h : e.refusesGamma = false) :
    e.failure.refusesGamma = false := by
  unfold failure
  split
  · exact h
  · rfl

omit [Scalar α] in
theorem Priceable.mapError {x : Except (EngineError α) β}
    (h : ∀ e, x = .error e → e.refusesGamma = false) : Priceable w (x.mapError (·.failure)) := by
  cases x with
  | ok b => exact .ok b
  | error e => exact .error (EngineError.refusesGamma_failure (h e rfl))

theorem Volatility.estimate_priceable (bars : List (Bar α)) (interval : Choice Interval α)
    (now : α) : Priceable w (estimate bars interval now) := by
  unfold estimate
  split
  · next f hf =>
    apply Priceable.error
    unfold failure? at hf
    split at hf
    · obtain rfl := Option.some.inj hf
      exact EngineError.refusesGamma_failure rfl
    · obtain ⟨bar, -, rfl⟩ := Option.map_eq_some_iff.mp hf
      unfold barFailure
      split
      · rfl
      · exact EngineError.refusesGamma_failure rfl
  · split
    · exact .ok _
    · exact .error rfl

omit [NumberText α] in
theorem Sizing.refusesGamma_of_stopLossSpread {volatility time risk : α} {e : EngineError α}
    (h : stopLossSpread volatility time risk = .error e) : e.refusesGamma = false := by
  unfold stopLossSpread checkProbability at h
  split at h
  · cases h
  · obtain rfl := Except.error.inj h
    rfl

omit [NumberText α] in
theorem Sizing.refusesGamma_of_compute {i : Input α} {e : EngineError α}
    (h : compute i = .error e) : e.refusesGamma = false := by
  unfold compute at h
  split at h
  · next fault hfault =>
    obtain rfl := Except.error.inj h
    unfold fault? at hfault
    repeat' split at hfault
    all_goals first | (obtain rfl := Option.some.inj hfault; rfl) | cases hfault
  · cases h

omit [NumberText α] in
/-- The pricing engine does not refuse a risk aversion that is finite and above zero. -/
theorem Pricing.refusesGamma_of_compute {c : Config α} {i : Input α} {e : EngineError α}
    (hgamma : isPositive i.gamma = true) (h : compute c i = .error e) : e.refusesGamma = false := by
  unfold compute at h
  split at h
  · next fault hfault =>
    obtain rfl := Except.error.inj h
    simp only [fault?, hgamma, Bool.not_true, Bool.false_eq_true, if_false] at hfault
    repeat' split at hfault
    all_goals first | (obtain rfl := Option.some.inj hfault; rfl) | cases hfault
  · cases h

namespace Refresh.Controller

variable [LawfulScalar α] [Numeric α] {c d : Controller α}

/-! ## Pricing -/

omit [LawfulScalar α] [Numeric α] in
/-- What a listener throws goes no further, unless there are no words for it. -/
theorem tell_priceable (r : Reaction α Unit) (c : Controller α) : Priceable w (c.tell w r).1 := by
  rcases tell_cases w r c with heq | heq | ⟨entry, heq⟩ <;> rw [heq]
  · exact .ok ()
  · exact .error rfl
  · exact .ok ()

omit [LawfulScalar α] [Numeric α] in
theorem tellClamp_priceable (e : Pricing.FloorClamp α) (c : Controller α) :
    Priceable w (c.tellClamp w e).1 := by
  unfold tellClamp
  cases w.listeners with
  | none => exact .ok ()
  | some l => exact tell_priceable _ _

omit [LawfulScalar α] [Numeric α] in
theorem sized_priceable (config : Config α) (estimate : Volatility.Estimate α) (market : Market α)
    (now : α) : Priceable w (sized config estimate market now) :=
  .bind (.checkUsable _) fun _ =>
    .bind (.mapError fun _ => Sizing.refusesGamma_of_compute) fun _ => .ok _

omit [LawfulScalar α] [Numeric α] in
theorem quoted_priceable (c : Controller α) (estimate : Volatility.Estimate α) (market : Market α)
    (now gamma : α) (quote : Pricing.Quote α) :
    Priceable w (quoted c estimate market now gamma quote) := by
  refine .bind (.checkUsable _) fun _ =>
    .bind (.mapError fun _ => Sizing.refusesGamma_of_stopLossSpread) fun _ => ?_
  dsimp only
  cases c.source with
  | none => exact .error rfl
  | some s => exact .ok _

omit [LawfulScalar α] [Numeric α] in
/-- A price around a risk aversion that is finite and above zero. -/
theorem price_priceable (estimate : Volatility.Estimate α) (market : Market α) (now : α) {gamma : α}
    (hgamma : isPositive gamma = true) (c : Controller α) :
    Priceable w (c.price w estimate market now gamma).1 := by
  unfold price
  dsimp only
  split
  · next e he =>
      exact .error (EngineError.refusesGamma_failure (Pricing.refusesGamma_of_compute hgamma he))
  · next quote _ =>
    cases quote.floorClamp with
    | none => exact quoted_priceable _ _ _ _ _ _
    | some e => exact .bind (tellClamp_priceable _ _) fun _ => quoted_priceable _ _ _ _ _ _

omit [LawfulScalar α] in
theorem askMarket_priceable (bars : List (Bar α)) (h : c.Busy) :
    Priceable w (c.askMarket w bars).1 := by
  rw [askMarket_result w bars h]
  exact fun f hf => .inr (.inl ⟨_, _, hf⟩)

omit [LawfulScalar α] in
theorem askPerformance_priceable (h : c.Busy) : Priceable w (c.askPerformance w).1 := by
  cases hask : w.performance with
  | none =>
    simp only [askPerformance, hask]
    exact .ok none
  | some ask =>
    rw [askPerformance_result hask h]
    exact fun f hf => .inr (.inr ⟨ask, _, hask, hf⟩)

/-- **No computation is refused its risk aversion**, unless whoever is asked for the market or for
the performance throws such a refusal. -/
theorem compute_priceable (w : Surroundings α) (bars : List (Bar α)) (now : α) (h : c.Busy)
    (hserved : Served c) : Priceable w (c.compute w bars now).1 := by
  have hasked := askMarket_priceable (w := w) bars h
  have hmarket := Learns.askMarket w bars h
  have haside := Aside.askMarket w bars h
  unfold compute
  cases hestimate : Volatility.estimate bars c.config.volatilityInterval now with
  | error f =>
    have hpriceable := Volatility.estimate_priceable (w := w) bars c.config.volatilityInterval now
    rw [hestimate] at hpriceable
    exact hpriceable.onward
  | ok estimate =>
    dsimp only
    rcases hm : c.askMarket w bars with ⟨result, after⟩
    rw [hm] at hasked hmarket haside
    cases result with
    | error f => exact hasked.onward
    | ok market =>
      dsimp only
      cases hsource : after.source with
      | none => exact sized_priceable _ _ _ _
      | some source =>
        -- Whoever was asked for the market may have replaced the source, but only by one for the
        -- same settings.
        have hafter := hserved.learns hmarket
        have hperformance := askPerformance_priceable (w := w) (haside.busy h)
        unfold computeWith
        rcases hp : after.askPerformance w with ⟨result, told⟩
        rw [hp] at hperformance
        cases result with
        | error f => exact hperformance.onward
        | ok performance =>
          simp only [canUse_eq_true, if_true]
          exact price_priceable _ _ _
            ((hafter.serves source hsource).isPositive_resolve hafter.valid _) _

/-! ## The failure of a cycle -/

omit [Scalar α] [LawfulScalar α] [Numeric α] in
/-- A failure that refuses the risk aversion is an error already. -/
theorem eq_of_toError [Scalar α] {f g : Failure α} (h : g.toError = .ok f)
    (hf : f.refusesGamma = true) : g = f := by
  unfold Failure.toError at h
  split at h
  · cases h
  · split at h
    · obtain rfl := Except.ok.inj h
      cases hf
    · exact Except.ok.inj h

omit [LawfulScalar α] in
/-- A cycle that fails because something was thrown comes to that, as an error. -/
theorem toError_of_failed {f g : Failure α} {now : α} (h : c.Busy)
    (hfailed : (c.caught w g now).1 = .failed f) : g.toError = .ok f := by
  unfold Controller.caught at hfailed
  split at hfailed
  · cases hfailed
  · cases he : g.toError with
    | error e =>
      simp only [he] at hfailed
      cases hfailed
    | ok e =>
      simp only [he, fail, checkUsable_eq_ok] at hfailed
      generalize hdated : log .warn _ _ _ = dated at hfailed
      have hbusy : dated.Busy := by
        rw [← hdated]
        exact h
      exact congrArg Except.ok (tellFailure_reports hbusy hfailed).1

omit [LawfulScalar α] in
/-- A cycle that was refused its risk aversion has had that refusal thrown at it. -/
theorem caught_refused {f g : Failure α} {now : α} (h : c.Busy)
    (hfailed : (c.caught w g now).1 = .failed f) (hf : f.refusesGamma = true) : g = f :=
  eq_of_toError (toError_of_failed h hfailed) hf

omit [LawfulScalar α] [Numeric α] in
theorem replace_priceable (next : Parameters α) (c : Controller α) :
    Priceable w (c.replace w next).1 := by
  unfold replace
  cases w.listeners with
  | none => exact .ok ()
  | some l => exact tell_priceable _ _

omit [LawfulScalar α] in
theorem publish_priceable (next : Parameters α) (now : α) (c : Controller α) :
    Priceable w (c.publish w next now).1 := by
  unfold publish
  dsimp only
  split
  · next f hf =>
    obtain ⟨worth, hworth⟩ := isWorthPublishing_eq_ok next
      ({ c with schedule := { c.schedule with
        lastUpdate := filled? now, retryNotBefore := none } } : Controller α)
    cases hworth.symm.trans hf
  · exact .bind (replace_priceable next _) fun _ => .ok _
  · exact .ok _

/-- **No cycle fails because its risk aversion is refused**, unless the source of bars, of the
market or of the performance throws such a refusal. -/
theorem GoesOn.refused {y : Cycle α} {fetched : Except (Failure α) (List (Bar α))}
    (h : GoesOn c y fetched) (hbusy : c.Busy) (hserved : Served c) {f : Failure α}
    (hfailed : (c.conclude w fetched y.startedAt).1 = .failed f) (hf : f.refusesGamma = true) :
    fetched = .error f ∨ w.Throws f := by
  have hthrown {β : Type} {x : Except (Failure α) β} (hx : Priceable w x)
      (heq : x = .error f) : w.Throws f :=
    (hx f heq).resolve_left (by simp [hf])
  cases fetched with
  | error g =>
    obtain rfl := caught_refused hbusy hfailed hf
    exact .inl rfl
  | ok bars =>
    refine .inr ?_
    cases hstopped : c.stopped with
    | true =>
      rw [conclude_of_stopped w _ _ hstopped] at hfailed
      cases hfailed
    | false =>
      obtain ⟨b, hb⟩ := h.computes hstopped
      have hbegun := hb.prepares
      have hbusy' := hbegun.keeps.busy hbusy
      have hpriceable := compute_priceable w bars y.startedAt hbusy' (hserved.learns hbegun.learns)
      have haside := Aside.compute w bars y.startedAt hbusy'
      rw [hb.conclude_eq w] at hfailed
      rcases hcompute : b.compute w bars y.startedAt with ⟨result, computed⟩
      rw [hcompute] at hpriceable haside
      simp only [hcompute] at hfailed
      cases result with
      | error g =>
        obtain rfl := caught_refused (haside.busy hbusy') hfailed hf
        exact hthrown hpriceable rfl
      | ok next =>
        have hpublishing : ({ computed with phase := .publishing } : Controller α).Busy :=
          haside.busy hbusy'
        have hpriceable' :=
          publish_priceable (w := w) next y.startedAt { computed with phase := .publishing }
        obtain ⟨hkeeps, -, -, hresult⟩ := publish_spec w next y.startedAt hpublishing
        rcases hp : { computed with phase := .publishing }.publish w next y.startedAt
          with ⟨published, after⟩
        rw [hp] at hkeeps hresult hpriceable'
        simp only [hp] at hfailed
        cases published with
        | ok outcome =>
          -- A set that was published is no failure.
          obtain rfl : outcome = .failed f := hfailed
          cases hresult
        | error g =>
          obtain rfl := caught_refused (hkeeps.busy hpublishing) hfailed hf
          exact hthrown hpriceable' rfl

/-! ## The whole of it -/

/-- **Risk aversion is always usable.** Take any configuration that holds together and a source that
can be built for it. Whatever modes a controller with that source is switched to, and whatever the
sources are told in between, the one in place is usable and reports its last answer, or what it
started from.

So it is in every run of a controller that was created: the source in place is usable at every
moment, and so is every source that a cycle consults. No computation and no cycle fails because the
risk aversion is refused, unless such a refusal is thrown from outside. -/
theorem gamma_usable {config : Config α} {source : Option (Gamma.Source α)}
    (hcheck : config.check = .ok ())
    (hsource : Gamma.Source.create config.mode (sourceSettings config) = .ok source) :
    (∀ c : Controller α, c.config = config → c.source = source → ∀ turns placed,
      (Answered.run ⟨c, none⟩ turns).controller.source = some placed →
        placed.Usable (sourceSettings config) ∧ placed.state.currentValue =
          (Answered.run ⟨c, none⟩ turns).answer.getD (placed.start (sourceSettings config))) ∧
    ∀ c₀, create config = .ok c₀ → ∀ w events,
      (∀ placed, (c₀.run w events).source = some placed → placed.Usable (sourceSettings config)) ∧
      (∀ y bars b, Computes (c₀.run w events) y bars b →
        (∀ asked context, b.consultation? w bars y.startedAt = some (asked, context) →
          asked.Usable (sourceSettings config)) ∧
        ∀ f, (b.compute w bars y.startedAt).1 = .error f → f.refusesGamma = true → w.Throws f) ∧
      ∀ y fetched f, GoesOn (c₀.run w events) y fetched →
        ((c₀.run w events).conclude w fetched y.startedAt).1 = .failed f → f.refusesGamma = true →
          fetched = .error f ∨ w.Throws f := by
  refine ⟨?_, ?_⟩
  · rintro c rfl rfl turns placed hplaced
    have hreports : Answered.Reports c.config ⟨c, none⟩ := by
      refine ⟨rfl, .of_created hcheck hsource, ?_⟩
      rintro first heq
      rw [heq] at hsource
      exact (Gamma.Source.Serves.create (valid_of_check hcheck) hsource).2
    have hrun := hreports.run turns
    have hserves := hrun.served.serves placed hplaced
    rw [hrun.configured] at hserves
    exact ⟨hserves.usable (valid_of_check hcheck), hrun.current placed hplaced⟩
  · intro c₀ hcreate w events
    obtain ⟨hconfig, hserved⟩ := served_run hcreate w events
    have horderly : (c₀.run w events).Orderly fun _ _ => True :=
      orderly_run hcreate (fun _ _ _ => trivial) (fun _ _ _ => trivial)
    have husable {d : Controller α} {asked : Nat} (hlearns : Learns asked (c₀.run w events) d)
        {placed : Gamma.Source α} (hplaced : d.source = some placed) :
        placed.Usable (sourceSettings config) := by
      have hserves := (hserved.learns hlearns).serves placed hplaced
      rw [hlearns.config, hconfig] at hserves
      exact hserves.usable (valid_of_check hcheck)
    refine ⟨fun placed hplaced => husable (.refl _) hplaced, fun y bars b hb => ⟨?_, ?_⟩, ?_⟩
    · intro asked context hconsults
      have hbusy := hb.prepares.keeps.busy (horderly.busy hb.cycle hb.fetched).2
      obtain ⟨estimate, after, performance, told, -, hm, hplaced, -⟩ :=
        consultation?_eq_some hconsults
      have hmarket := Learns.askMarket w bars hbusy
      rw [hm] at hmarket
      exact husable (hb.prepares.learns.before hmarket) hplaced
    · intro f hfails hf
      have hbusy := hb.prepares.keeps.busy (horderly.busy hb.cycle hb.fetched).2
      have hpriceable :=
        compute_priceable w bars y.startedAt hbusy (hserved.learns hb.prepares.learns)
      exact (hpriceable f hfails).resolve_left (by simp [hf])
    · intro y fetched f hgoes hfailed hf
      exact hgoes.refused (horderly.busy hgoes.cycle hgoes.fetched).2 hserved hfailed hf

/-- The configuration of the sample with a constant risk aversion. -/
def fixedConfig : Config Float := { sampleConfig with mode := .known .fixed }

/-- A context of which no figure is a number. -/
def nanContext : Gamma.Context Float where
  market := ⟨nan, nan, nan, nan, nan, none, none⟩
  volatility := nan
  timestamp := nan
  currentSpread := some nan
  performance := none

/-- A controller with a constant risk aversion is switched to the rules, which are then told of
figures that are not numbers. They answer all the same, and what they answer is reported. And in a
run of that controller the constant is consulted for a price. -/
theorem gamma_usable_fixedConfig :
    let turns : List (Turn Float) := [.switch (.known .ruleAdaptive), .ask nanContext]
    let w := switching .ruleAdaptive
    (fixedConfig.check = .ok () ∧
      Gamma.Source.create fixedConfig.mode (sourceSettings fixedConfig) = .ok fixedSample.source ∧
      create fixedConfig = .ok fixedSample) ∧
    (∃ placed, (Answered.run ⟨fixedSample, none⟩ turns).controller.source = some placed ∧
      placed.mode = .ruleAdaptive ∧ placed.Usable (sourceSettings fixedConfig)) ∧
    ∃ y b asked context, Computes (fixedSample.run w [.refresh 1, .make, .deliver]) y sampleBars b ∧
      b.consultation? w sampleBars y.startedAt = some (asked, context) ∧
      asked.Usable (sourceSettings fixedConfig) := by
  intro turns w
  have hcheck : fixedConfig.check = .ok () := rfl
  have hsource : Gamma.Source.create fixedConfig.mode (sourceSettings fixedConfig) =
      .ok fixedSample.source := rfl
  obtain ⟨hturns, hruns⟩ := gamma_usable hcheck hsource
  refine ⟨⟨hcheck, hsource, create_fixedSample⟩,
    ⟨_, rfl, rfl, (hturns fixedSample rfl rfl turns _ rfl).1⟩, ?_⟩
  obtain ⟨y, context, hcomputes, hconsults, -⟩ := switching_spec .ruleAdaptive
  obtain ⟨-, hcomputing, -⟩ := hruns fixedSample create_fixedSample w [.refresh 1, .make, .deliver]
  exact ⟨y, _, _, context, hcomputes, hconsults, (hcomputing y _ _ hcomputes).1 _ _ hconsults⟩

end Refresh.Controller

end MarketMaker
