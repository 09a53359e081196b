import MarketMaker.Proofs.Refresh.RiskAversion

/-!
# What a computation yields

A computation over a known interval yields parameters or a failure. `Yields` lists every way there
is, each with all that the computation knows by then, and `compute_yields` says that the list is
complete. What is said elsewhere about the failures and the figures of a computation is said by
cases on it.

* A series without a volatility is refused before anybody is asked.
* What is thrown by those who are asked is thrown on.
* Without a source of risk aversion, spreads are sized. Whether they can be does not depend on the
  market.
* With a source, the market is priced, or the first figure that stands in the way of a quote is
  refused.
* A listener makes a difference only by throwing something that cannot be put in words.
-/

namespace MarketMaker.Refresh.Controller

open Scalar

variable {α : Type} [Scalar α] [NumberText α] {w : Surroundings α} {bars : List (Bar α)} {now : α}
  {b c : Controller α}

/-- The series of a computation has a volatility, and the market was answered. -/
structure Informed (w : Surroundings α) (bars : List (Bar α)) (b : Controller α)
    (market : Market α) : Prop where
  /-- A volatility can be measured on the series. -/
  series : Volatility.failure? bars = none
  /-- The source of the market returns its state. -/
  answer : (w.market b.calls.market bars).result = .ok market

/-- The source of risk aversion in place once the market was asked for. -/
def placed (w : Surroundings α) (bars : List (Bar α)) (b : Controller α) :
    Option (Gamma.Source α) :=
  (b.askMarket w bars).2.source

/-- The volatility that a computation measures. -/
def measured (bars : List (Bar α)) (now : α) (b : Controller α) : Volatility.Estimate α :=
  Volatility.measure bars b.config.volatilityInterval now

/-- What a computation prices, once it has a risk aversion. -/
def priced (bars : List (Bar α)) (now : α) (b : Controller α) (market : Market α) (gamma : α) :
    Pricing.Input α :=
  ⟨market, gamma, (b.measured bars now).value, b.config.timeHorizonSeconds⟩

/-- What a computation comes to, and what it knows by then. -/
inductive Yields (w : Surroundings α) (bars : List (Bar α)) (now : α) (b : Controller α) :
    Except (Failure α) (Parameters α) → Prop where
  /-- No volatility can be measured on the series. -/
  | unmeasured {f : Failure α} (hseries : Volatility.failure? bars = some f) :
    Yields w bars now b (.error f)
  /-- The source of the market throws. -/
  | unanswered {f : Failure α} (hmarket : (w.market b.calls.market bars).result = .error f) :
    Yields w bars now b (.error f)
  /-- Without a source, spreads are sized. -/
  | sized {market : Market α} (hinformed : Informed w bars b market)
    (hplaced : b.placed w bars = none) :
    Yields w bars now b (sized b.config (b.measured bars now) market now)
  /-- The tracker of performance throws. -/
  | untold {market : Market α} {f : Failure α} (hinformed : Informed w bars b market)
    (hplaced : (b.placed w bars).isSome = true) {ask : Nat → Reaction α (Option (Performance α))}
    {call : Nat} (hask : w.performance = some ask) (hthrown : (ask call).result = .error f) :
    Yields w bars now b (.error f)
  /-- The model refuses what a quote is computed from. -/
  | refused {market : Market α} {gamma : α} {e : EngineError α}
    (hinformed : Informed w bars b market) (hplaced : (b.placed w bars).isSome = true)
    (hgamma : isPositive gamma = true)
    (hfault : Pricing.fault? (b.priced bars now market gamma) = some e) :
    Yields w bars now b (.error e.failure)
  /-- Something that has to be logged has no text. -/
  | unsaid {market : Market α} {gamma : α} (hinformed : Informed w bars b market)
    (hplaced : (b.placed w bars).isSome = true) (hgamma : isPositive gamma = true)
    (hfault : Pricing.fault? (b.priced bars now market gamma) = none) :
    Yields w bars now b (.error .textless)
  /-- Spreads are quoted for a risk aversion. -/
  | quoted {market : Market α} {gamma : α} {after : Controller α}
    (hinformed : Informed w bars b market) (hplaced : (b.placed w bars).isSome = true)
    (hgamma : isPositive gamma = true)
    (hfault : Pricing.fault? (b.priced bars now market gamma) = none)
    (hconfig : after.config = b.config) :
    Yields w bars now b (quoted after (b.measured bars now) market now gamma
      (Pricing.quoteOf b.pricing (b.priced bars now market gamma)))

/-! ## Asking and telling -/

/-- What a listener throws goes no further, unless there are no words for it. -/
theorem eq_textless_of_tell {r : Reaction α Unit} {f : Failure α} (h : (c.tell w r).1 = .error f) :
    f = .textless := by
  rcases tell_cases w r c with heq | heq | ⟨entry, heq⟩ <;> rw [heq] at h
  · cases h
  · exact (Except.error.inj h).symm
  · cases h

theorem eq_textless_of_tellClamp {event : Pricing.FloorClamp α} {f : Failure α}
    (h : (c.tellClamp w event).1 = .error f) : f = .textless := by
  unfold tellClamp at h
  cases hlisteners : w.listeners with
  | none => simp [hlisteners] at h
  | some l =>
    simp only [hlisteners] at h
    exact eq_textless_of_tell h

/-- What was thrown instead of a performance was thrown by whoever was asked. -/
theorem thrown_of_askPerformance [Numeric α] (h : c.Busy) {f : Failure α}
    (hf : (c.askPerformance w).1 = .error f) :
    ∃ ask call, w.performance = some ask ∧ (ask call).result = .error f := by
  cases hask : w.performance with
  | none => simp [askPerformance, hask] at hf
  | some ask => exact ⟨ask, c.calls.performance, rfl, (askPerformance_result hask h).symm.trans hf⟩

/-! ## The stages of a computation -/

/-- A price around a risk aversion is refused, or quoted by a controller of the same
configuration. -/
theorem price_yields {d : Controller α} (hd : Aside b d) (hbusy : b.Busy) {market : Market α}
    (hinformed : Informed w bars b market) (hplaced : (b.placed w bars).isSome = true) {gamma : α}
    (hgamma : isPositive gamma = true) :
    Yields w bars now b (d.price w (b.measured bars now) market now gamma).1 := by
  have hpricing : d.pricing = b.pricing := (congrArg Controller.pricing hd.core :)
  have hpriced : (⟨market, gamma, (b.measured bars now).value,
    d.config.timeHorizonSeconds⟩ : Pricing.Input α) =
      b.priced bars now market gamma := by rw [hd.config, priced]
  unfold price
  simp only [hpriced, hpricing, Pricing.compute]
  cases hfault : Pricing.fault? (b.priced bars now market gamma) with
  | some e => exact .refused hinformed hplaced hgamma hfault
  | none =>
    dsimp only
    have hlogged := hd.trans (.logAll (Pricing.logOf (b.priced bars now market gamma)
      (Pricing.quoteOf b.pricing (b.priced bars now market gamma))) d)
    generalize logAll _ d = logged at hlogged ⊢
    cases (Pricing.quoteOf b.pricing (b.priced bars now market gamma)).floorClamp with
    | none => exact .quoted hinformed hplaced hgamma hfault hlogged.config
    | some event =>
      have htold := hlogged.trans (.tellClamp w event (hlogged.busy hbusy))
      dsimp only
      rcases ht : logged.tellClamp w event with ⟨result, after⟩
      rw [ht] at htold
      cases result with
      | ok _ => exact .quoted hinformed hplaced hgamma hfault htold.config
      | error f =>
        obtain rfl := eq_textless_of_tellClamp (congrArg Prod.fst ht)
        exact .unsaid hinformed hplaced hgamma hfault

variable [Numeric α]

/-! ## The tuning of the quote -/

omit [Scalar α] [NumberText α] [Numeric α] in
theorem Keeps.pricing {d : Controller α} (h : Keeps c d) : d.pricing = c.pricing :=
  (congrArg Controller.pricing h.frame :)

omit [Numeric α] in
/-- A created controller tunes its quotes by its configuration. -/
theorem pricing_of_create {config : Config α} (hcreate : create config = .ok c) :
    c.pricing = ⟨config.minSpread, config.orderAmountShapeFactor⟩ := by
  obtain ⟨_, -, hcreate⟩ := Guards.bind_eq_ok.mp hcreate
  obtain ⟨tuning, htuning, hcreate⟩ := Guards.bind_eq_ok.mp hcreate
  obtain ⟨_, -, hcreate⟩ := Guards.bind_eq_ok.mp hcreate
  obtain ⟨_, -, hcreate⟩ := Guards.bind_eq_ok.mp hcreate
  obtain rfl := Except.ok.inj hcreate
  have haccepted := Guards.mapError_eq_ok.mp htuning
  unfold Pricing.Config.accept at haccepted
  split at haccepted
  · cases haccepted
  · exact (Except.ok.inj haccepted).symm

/-- Quotes are tuned by the configuration throughout a run. -/
theorem pricing_run {config : Config α} {c₀ : Controller α} (hcreate : create config = .ok c₀)
    (w : Surroundings α) (events : List (Event α)) :
    (c₀.run w events).pricing = ⟨config.minSpread, config.orderAmountShapeFactor⟩ := by
  have hsame : (c₀.run w events).pricing = c₀.pricing := by
    -- No step touches the tuning.
    let holds (c d : Controller α) : Prop := d.pricing = c.pricing
    change holds c₀ _
    refine (Orderly.create hcreate).relates_run w (fun d => show holds d d from rfl) ?_
      (fun d event hd => ?_) events
    · exact fun h₁ h₂ => h₂.trans h₁
    · rcases step_cases w d event with hlull | ⟨-, ticked, now, heq⟩ | ⟨rfl, y, fetched, hgoes⟩
      · exact (congrArg Controller.pricing hlull.lasting :)
      · rw [heq]
        rfl
      · obtain ⟨hconcludes, heq⟩ := hgoes.resume hd w
        simp only [step, heq]
        exact hconcludes.keeps.pricing
  exact hsame.trans (pricing_of_create hcreate)

/-- A cycle computes with the configuration and the tuning of its controller. -/
theorem Computes.settings {y : Cycle α} (h : Computes c y bars b) :
    b.config = c.config ∧ b.pricing = c.pricing :=
  ⟨h.prepares.keeps.config, h.prepares.keeps.pricing⟩

/-- A cycle begins to compute unstopped and with the source that was in place. -/
theorem Computes.beginning {y : Cycle α} (h : Computes c y bars b) :
    b.source = c.source ∧ b.stopped = false := by
  rw [← h.stopped]
  obtain ⟨warned, hwarned, rfl⟩ := h.begun
  simp only [warnShort, checkUsable_eq_ok, bind, Except.bind, pure, Except.pure] at hwarned
  obtain rfl := Except.ok.inj hwarned
  split
  · exact ⟨rfl, rfl⟩
  · exact ⟨rfl, rfl⟩

/-! ## The whole of a computation -/

/-- **What a computation yields.** There is no other way for it to end. -/
theorem compute_yields [LawfulScalar α] (w : Surroundings α) (bars : List (Bar α))
    (now : α) (hbusy : b.Busy) (hserved : Served b) {i : Interval}
    (hinterval : b.config.volatilityInterval = .known i) :
    Yields w bars now b (b.compute w bars now).1 := by
  have hanswer := askMarket_result w bars hbusy
  have haside := Aside.askMarket w bars hbusy
  have hmarket := Learns.askMarket w bars hbusy
  -- The cases follow the stages in their order; each of them may be the last.
  unfold compute Volatility.estimate
  cases hseries : Volatility.failure? bars with
  | some f => exact .unmeasured hseries
  | none =>
    have htext : b.config.volatilityInterval.value.hasText = true := by rw [hinterval]; rfl
    simp only [htext, if_true]
    rcases hm : b.askMarket w bars with ⟨result, after⟩
    rw [hm] at hanswer haside hmarket
    cases result with
    | error f => exact .unanswered hanswer.symm
    | ok market =>
      have hinformed : Informed w bars b market := ⟨hseries, hanswer.symm⟩
      have hplace : b.placed w bars = after.source := by rw [placed, hm]
      dsimp only
      cases hsource : after.source with
      | none =>
        rw [haside.config]
        exact .sized hinformed (hplace.trans hsource)
      | some source =>
        have hplaced : (b.placed w bars).isSome = true := by rw [hplace, hsource]; rfl
        have hserves := (hserved.learns hmarket).serves source hsource
        have hvalid := (hserved.learns hmarket).valid
        have hperformance := haside.trans (.askPerformance w (haside.busy hbusy))
        unfold computeWith
        rcases hp : after.askPerformance w with ⟨result, told⟩
        rw [hp] at hperformance
        cases result with
        | error f =>
          obtain ⟨ask, call, hask, hthrown⟩ :=
            thrown_of_askPerformance (haside.busy hbusy) (congrArg Prod.fst hp)
          exact .untold hinformed hplaced hask hthrown
        | ok performance =>
          simp only [canUse_eq_true, if_true]
          refine price_yields ?_ hbusy hinformed hplaced (hserves.isPositive_resolve hvalid _)
          exact hperformance.trans ((Aside.keepSource after.switches _ told).trans (.logAll _ _))

/-- Every cycle of a run that computes over a known interval has its computation yield something. -/
theorem yields_run [LawfulScalar α] {config : Config α} {c₀ : Controller α}
    (hcreate : create config = .ok c₀) {events : List (Event α)} {y : Cycle α}
    (h : Computes (c₀.run w events) y bars b) {i : Interval}
    (hinterval : config.volatilityInterval = .known i) :
    b.config = config ∧ b.pricing = ⟨config.minSpread, config.orderAmountShapeFactor⟩ ∧
      (c₀.run w events).Busy ∧ Yields w bars y.startedAt b (b.compute w bars y.startedAt).1 := by
  have horderly : (c₀.run w events).Orderly fun _ _ => True :=
    orderly_run hcreate (fun _ _ _ => trivial) (fun _ _ _ => trivial)
  have hbusy := (horderly.busy h.cycle h.fetched).2
  obtain ⟨hconfig, hserved⟩ := served_run hcreate w events
  obtain ⟨hconfig', hpricing⟩ := h.settings
  have hsame : b.config = config := hconfig'.trans hconfig
  refine ⟨hsame, hpricing.trans (pricing_run hcreate w events), hbusy, ?_⟩
  exact compute_yields w bars y.startedAt (h.prepares.keeps.busy hbusy)
    (hserved.learns h.prepares.learns) (hsame ▸ hinterval)

/-! ## Sizing and quoting -/

/-- What a computation sizes spreads from. -/
def sizes (config : Config α) (estimate : Volatility.Estimate α) : Sizing.Input α where
  volatility := Volatility.annualize estimate.value
  timeToRefresh := Sizing.secondsToYears config.orderRefreshTimeSeconds
  fillProbability := config.targetFillProbability
  stopLossRiskProbability := config.stopLossRiskProbability
  profitFactor := config.profitFactor
  maxHoldingTime := Sizing.daysToYears config.maxHoldingTimeDays

variable {config : Config α} {estimate : Volatility.Estimate α} {market : Market α}
  {p : Parameters α}

/-- Spreads are sized unless a figure stands in their way. -/
theorem sized_eq : sized config estimate market now =
    match Sizing.fault? (sizes config estimate) with
    | some e => .error e.failure
    | none => .ok {
        bidSpread := (Sizing.spreadsOf (sizes config estimate)).bidSpread
        askSpread := (Sizing.spreadsOf (sizes config estimate)).askSpread
        reservationPrice := market.midPrice
        optimalSpread := (Sizing.spreadsOf (sizes config estimate)).bidSpread +
          (Sizing.spreadsOf (sizes config estimate)).askSpread
        profitTakingLong := (Sizing.spreadsOf (sizes config estimate)).profitTakingLong
        profitTakingShort := (Sizing.spreadsOf (sizes config estimate)).profitTakingShort
        stopLoss := (Sizing.spreadsOf (sizes config estimate)).stopLoss
        gammaUsed := none
        source := .known .autoOptimize
        volatilityUsed := estimate.value
        volatilityInterval := estimate.interval
        generatedAt := now
        snapshot := market.snapshot } := by
  simp only [sized, checkUsable_eq_ok, bind, Except.bind, Sizing.compute]
  rw [← sizes]
  cases Sizing.fault? (sizes config estimate) <;> rfl

/-- A quote becomes a set as soon as there is a source to label it. -/
theorem quoted_eq_ok {gamma : α} {quote : Pricing.Quote α}
    (hrisk : Sizing.isProbability c.config.stopLossRiskProbability = true) :
    quoted c estimate market now gamma quote =
      match c.source with
      | none => .error (sourceGone c.mode)
      | some source => .ok {
          bidSpread := quote.bidSpread
          askSpread := quote.askSpread
          reservationPrice := quote.reservationPrice
          optimalSpread := quote.optimalSpread / market.midPrice
          profitTakingLong := quote.askSpread * c.config.profitFactor
          profitTakingShort := quote.bidSpread * c.config.profitFactor
          stopLoss := Sizing.stopLossDistance (Volatility.annualize estimate.value)
            (Sizing.daysToYears c.config.maxHoldingTimeDays) c.config.stopLossRiskProbability
          gammaUsed := some gamma
          source := .known source.mode
          volatilityUsed := estimate.value
          volatilityInterval := estimate.interval
          generatedAt := now } := by
  simp only [quoted, checkUsable_eq_ok, bind, Except.bind, Sizing.stopLossSpread,
    Sizing.checkProbability, hrisk]
  cases c.source <;> rfl

omit [Numeric α] in
/-- Without a source of risk aversion, what an informed computation yields is sized. -/
theorem Yields.eq_sized {result : Except (Failure α) (Parameters α)}
    (h : Yields w bars now b result) (hinformed : Informed w bars b market)
    (hplaced : b.placed w bars = none) :
    result = Controller.sized b.config (b.measured bars now) market now := by
  cases h with
  | unmeasured hseries => cases hinformed.series.symm.trans hseries
  | unanswered hmarket => cases hinformed.answer.symm.trans hmarket
  | sized hinformed' _ =>
    obtain rfl := Except.ok.inj (hinformed.answer.symm.trans hinformed'.answer)
    rfl
  | untold _ hsome | refused _ hsome | unsaid _ hsome | quoted _ hsome =>
    rw [hplaced] at hsome
    cases hsome

/-! ## The failure of a computation -/

/-- **Why a computation fails**, while the risk of a loss is a probability. What is left at the end
of the list are failures that the engine does not report itself: a text is missing, or a source of
risk aversion. -/
theorem Yields.error_cases {f : Failure α} (h : Yields w bars now b (.error f))
    (hrisk : Sizing.isProbability b.config.stopLossRiskProbability = true) :
    Volatility.failure? bars = some f ∨ (w.market b.calls.market bars).result = .error f ∨
      (∃ ask call, w.performance = some ask ∧ (ask call).result = .error f) ∨
      (∃ market e, Informed w bars b market ∧ b.placed w bars = none ∧
        Sizing.fault? (sizes b.config (b.measured bars now)) = some e ∧ f = e.failure) ∨
      (∃ market gamma e, Informed w bars b market ∧ (b.placed w bars).isSome = true ∧
        isPositive gamma = true ∧
        Pricing.fault? (b.priced bars now market gamma) = some e ∧ f = e.failure) ∨
      ∃ kind text, f = .foreign kind text {} := by
  generalize hresult : (Except.error f : Except (Failure α) (Parameters α)) = result at h
  cases h with
  | unmeasured hseries =>
    obtain rfl := Except.error.inj hresult
    exact .inl hseries
  | unanswered hmarket =>
    obtain rfl := Except.error.inj hresult
    exact .inr (.inl hmarket)
  | untold _ _ hask hthrown =>
    obtain rfl := Except.error.inj hresult
    exact .inr (.inr (.inl ⟨_, _, hask, hthrown⟩))
  | sized hinformed hplaced =>
    rw [sized_eq] at hresult
    split at hresult
    · next e he =>
        exact .inr (.inr (.inr (.inl ⟨_, e, hinformed, hplaced, he, Except.error.inj hresult⟩)))
    · cases hresult
  | refused hinformed hplaced hgamma hfault =>
    exact .inr (.inr (.inr (.inr (.inl ⟨_, _, _, hinformed, hplaced, hgamma, hfault,
      Except.error.inj hresult⟩))))
  | unsaid => exact .inr (.inr (.inr (.inr (.inr ⟨_, _, Except.error.inj hresult⟩))))
  | quoted _ _ _ _ hconfig =>
    rw [← hconfig] at hrisk
    rw [quoted_eq_ok hrisk] at hresult
    split at hresult
    · exact .inr (.inr (.inr (.inr (.inr ⟨_, _, Except.error.inj hresult⟩))))
    · cases hresult

omit [Scalar α] [Numeric α] in
theorem isCancellation_failure (e : EngineError α) : e.failure.isCancellation = false := by
  unfold EngineError.failure
  split <;> rfl

omit [Numeric α] in
/-- A series without a volatility does not cancel anything. -/
theorem isCancellation_of_failure? {f : Failure α} (h : Volatility.failure? bars = some f) :
    f.isCancellation = false := by
  unfold Volatility.failure? at h
  split at h
  · obtain rfl := Option.some.inj h
    exact isCancellation_failure _
  · obtain ⟨bar, -, rfl⟩ := Option.map_eq_some_iff.mp h
    unfold Volatility.barFailure
    split
    · rfl
    · exact isCancellation_failure _

/-- A computation is cancelled only by those who are asked. -/
theorem Yields.not_cancellation {f : Failure α} (h : Yields w bars now b (.error f))
    (hrisk : Sizing.isProbability b.config.stopLossRiskProbability = true)
    (hcancels : ∀ f, w.Throws f → f.isCancellation = false) : f.isCancellation = false := by
  rcases h.error_cases hrisk with
    hseries | hmarket | hthrown | ⟨_, e, -, -, -, rfl⟩ | ⟨_, _, e, -, -, -, -, rfl⟩ | ⟨_, _, rfl⟩
  · exact isCancellation_of_failure? hseries
  · exact hcancels f (.inl ⟨_, _, hmarket⟩)
  · exact hcancels f (.inr hthrown)
  · exact isCancellation_failure e
  · exact isCancellation_failure e
  · rfl

/-! ## The failure of a cycle -/

variable {y : Cycle α}

omit [Scalar α] [Numeric α] in
/-- An engine error is none that was made of something else. -/
theorem eq_of_toError_engine [Scalar α] {g : Failure α} {e : EngineError α} {labels : Labels α}
    (h : g.toError = .ok (.engine e labels)) : g = .engine e labels := by
  unfold Failure.toError at h
  split at h
  · cases h
  · split at h
    · cases Except.ok.inj h
    · exact Except.ok.inj h

/-- What keeps a set from being published can only be a want of words. -/
theorem eq_textless_of_publish {next : Parameters α} {f : Failure α}
    (h : (c.publish w next now).1 = .error f) : f = .textless := by
  rcases publish_cases w next now c with ⟨-, heq⟩ | ⟨-, heq⟩
  · rw [heq] at h
    cases htold : ((c.dated now).replace w next).1 with
    | ok _ =>
      rw [htold] at h
      cases h
    | error g =>
      rw [htold] at h
      obtain rfl : g = f := Except.error.inj h
      unfold replace at htold
      cases hlisteners : w.listeners with
      | none => simp [hlisteners] at htold
      | some l =>
        simp only [hlisteners] at htold
        exact eq_textless_of_tell htold
  · rw [heq] at h
    cases h

/-- **An engine error that a cycle fails with** is what its computation failed with. -/
theorem Computes.eq_error_of_failed (h : Computes c y bars b) (hbusy : c.Busy) {e : EngineError α}
    {labels : Labels α}
    (hfailed : (c.conclude w (.ok bars) y.startedAt).1 = .failed (.engine e labels)) :
    (b.compute w bars y.startedAt).1 = .error (.engine e labels) := by
  have hbegun := h.prepares.keeps.busy hbusy
  have haside := Aside.compute w bars y.startedAt hbegun
  rw [h.conclude_eq w] at hfailed
  rcases hcompute : b.compute w bars y.startedAt with ⟨result, computed⟩
  rw [hcompute] at haside
  simp only [hcompute] at hfailed
  cases result with
  | error g => rw [eq_of_toError_engine (toError_of_failed (haside.busy hbegun) hfailed)]
  | ok next =>
    have hpublishing : ({ computed with phase := .publishing } : Controller α).Busy :=
      haside.busy hbegun
    obtain ⟨hkeeps, -, -, hresult⟩ := publish_spec w next y.startedAt hpublishing
    rcases hp : { computed with phase := .publishing }.publish w next y.startedAt
      with ⟨published, after⟩
    rw [hp] at hkeeps hresult
    simp only [hp] at hfailed
    cases published with
    | ok outcome =>
      -- A set that was published is no failure.
      obtain rfl : outcome = .failed (.engine e labels) := hfailed
      cases hresult
    | error g =>
      have hthrown := eq_of_toError_engine (toError_of_failed (hkeeps.busy hpublishing) hfailed)
      cases hthrown.symm.trans (eq_textless_of_publish (congrArg Prod.fst hp))

/-- Among articulate surroundings a cycle whose computation fails comes to that failure, unless it
is stopped or cancelled. -/
theorem Computes.failed_of_error (h : Computes c y bars b) (hbusy : c.Busy) (hw : w.Articulate)
    {f : Failure α} (herror : (b.compute w bars y.startedAt).1 = .error f)
    (hwords : f.hasWords = true) (hcancels : f.isCancellation = false)
    (hstopped : (b.compute w bars y.startedAt).2.stopped = false) :
    ∃ e, f.toError = .ok e ∧ (c.conclude w (.ok bars) y.startedAt).1 = .failed e := by
  have hbegun := h.prepares.keeps.busy hbusy
  have haside := Aside.compute w bars y.startedAt hbegun
  obtain ⟨e, he⟩ := exists_toError hwords
  refine ⟨e, he, ?_⟩
  rw [h.conclude_eq w]
  rcases hcompute : b.compute w bars y.startedAt with ⟨result, computed⟩
  rw [hcompute] at herror hstopped haside
  obtain rfl : result = .error f := herror
  have hheeded : (f.isCancellation || computed.stopped) = false := by
    rw [hcancels]
    exact hstopped
  simp only [caught, hheeded, he, fail, checkUsable_eq_ok]
  refine tellFailure_eq_failed hw e ?_
  exact haside.busy hbegun

end MarketMaker.Refresh.Controller
