import MarketMaker.Proofs.Refresh.Figures

/-!
# What is found out at startup

An accepted configuration may hold infinite numbers, and some of these are refused further on. The
learner takes no infinite learning rate, so a controller that learns cannot be created with one.
What spreads are sized by, and the horizon of a quote, has to be finite, and that is found out in
every cycle anew: the cycle fails, and so will every later attempt. In an exact analysis there is
nothing else in an accepted configuration that is refused after startup.
-/

namespace MarketMaker

open Scalar

variable {α : Type} [Scalar α]

/-! ## Faults that stay -/

section

variable [NumberText α] [Numeric α]

omit [Scalar α] [Numeric α] in
/-- An error that can be put in words is thrown as it is, and says itself whether it stays. -/
theorem isTransient?_failure {e : EngineError α} (hwords : e.hasWords = true) :
    e.failure.isTransient? = some e.isTransient := by
  rw [EngineError.failure, if_pos hwords]
  rfl

omit [Scalar α] [NumberText α] [Numeric α] in
/-- Only the engine's own errors say whether they stay. -/
theorem exists_engine_of_stays {f : Failure α} (h : f.isTransient? = some false) :
    ∃ e labels, f = .engine e labels := by
  cases f with
  | engine e labels => exact ⟨e, labels, rfl⟩
  | _ => cases h

/-- A figure that spreads cannot be sized by stays one. -/
theorem Sizing.isTransient_of_fault? {i : Input α} {e : EngineError α} (h : fault? i = some e) :
    e.failure.isTransient? = some false := by
  unfold fault? at h
  split_ifs at h
  all_goals
    obtain rfl := Option.some.inj h
    exact isTransient?_failure (by simp [EngineError.hasWords, Numeric.hasText])

/-- A figure that a quote cannot be computed from stays one. -/
theorem Pricing.isTransient_of_fault? {i : Input α} {e : EngineError α} (h : fault? i = some e) :
    e.failure.isTransient? = some false := by
  unfold fault? at h
  split_ifs at h
  all_goals
    obtain rfl := Option.some.inj h
    exact isTransient?_failure (by simp [EngineError.hasWords, Numeric.hasText])

end

namespace Refresh.Controller

variable [NumberText α] [Numeric α] [StrictScalar α] {value : α → ℝ}
  (hexact : IsExactAnalysis value)

variable {w : Surroundings α} {bars : List (Bar α)} {now : α} {b c : Controller α}
  {market : Market α}

/-- The settings that a computation insists on being finite: the horizon of a quote, or what spreads
are sized by. -/
def insisted (w : Surroundings α) (bars : List (Bar α)) (b : Controller α) : List Config.Setting :=
  if (b.placed w bars).isSome then [.timeHorizonSeconds]
  else [.orderRefreshTimeSeconds, .maxHoldingTimeDays, .profitFactor]

/-- The settings that a computation insists on are finite. -/
def Contented (w : Surroundings α) (bars : List (Bar α)) (b : Controller α) : Prop :=
  ∀ s ∈ b.insisted w bars, isFinite (b.config.number s) = true

omit [Numeric α] [StrictScalar α] in
/-- Finite numbers content every computation. -/
theorem contented_of_finite (h : b.config.Finite) : b.Contented w bars := by
  intro s hs
  refine h s ?_
  unfold insisted at hs
  split at hs <;> simp only [List.mem_cons, List.not_mem_nil, or_false] at hs
  · rw [hs]
    rfl
  · rcases hs with rfl | rfl | rfl <;> rfl

section

include hexact

omit [Numeric α] in
/-- Spreads can be sized exactly where a computation is content. -/
theorem sizes_fault?_iff_contented (haccepted : b.config.Accepted)
    (hseries : Volatility.failure? bars = none) (hplaced : b.placed w bars = none) :
    Sizing.fault? (sizes b.config (b.measured bars now)) = none ↔ b.Contented w bars := by
  rw [sizes_fault?_eq_none_iff hexact haccepted (isNonNegative_measured hexact haccepted hseries)]
  simp [Contented, insisted, hplaced, Config.number]

omit [Numeric α] in
/-- A market that can be quoted for can be priced exactly where a computation is content. -/
theorem priced_fault?_iff_contented (haccepted : b.config.Accepted)
    (hseries : Volatility.failure? bars = none) (hplaced : (b.placed w bars).isSome = true)
    (hquotable : market.Quotable) {gamma : α} (hgamma : isPositive gamma = true) :
    Pricing.fault? (b.priced bars now market gamma) = none ↔ b.Contented w bars := by
  rw [priced_fault?_eq_none_iff hexact haccepted hseries hgamma]
  simp [Contented, insisted, hplaced, Config.number, hquotable]

variable {f : Failure α}

/-- A computation on valid data that is content fails for good only with what was thrown. -/
theorem Yields.throws_of_contented (h : Yields w bars now b (.error f))
    (haccepted : b.config.Accepted) (hinformed : Informed w bars b market)
    (hquotable : market.Quotable) (hcontented : b.Contented w bars)
    (hstays : f.isTransient? = some false) :
    ∃ ask call, w.performance = some ask ∧ (ask call).result = .error f := by
  rcases h.error_cases (Config.check_eq_ok_iff.mp haccepted.check).2.2.1 with
    hseries | hmarket | hthrown | ⟨_, e, -, hplaced, hfault, -⟩ |
      ⟨other, gamma, e, hanswered, hplaced, hgamma, hfault, -⟩ | ⟨_, _, rfl⟩
  · cases hinformed.series.symm.trans hseries
  · cases hinformed.answer.symm.trans hmarket
  · exact hthrown
  · rw [(sizes_fault?_iff_contented hexact haccepted hinformed.series hplaced).mpr hcontented]
      at hfault
    cases hfault
  · obtain rfl : market = other := Except.ok.inj (hinformed.answer.symm.trans hanswered.answer)
    have hpriced : Pricing.fault? (b.priced bars now market gamma) = none :=
      (priced_fault?_iff_contented hexact haccepted hinformed.series hplaced hquotable hgamma).mpr
        hcontented
    cases hpriced.symm.trans hfault
  · cases hstays

/-- A computation on valid data that is not content fails for good, unless something is thrown. -/
theorem Yields.exists_error {result : Except (Failure α) (Parameters α)}
    (h : Yields w bars now b result) (haccepted : b.config.Accepted)
    (hinformed : Informed w bars b market) (hquotable : market.Quotable)
    (htells : ∀ ask, w.performance = some ask → ∀ call f, (ask call).result ≠ .error f)
    (hnot : ¬ b.Contented w bars) :
    ∃ e : EngineError α, result = .error e.failure ∧ e.failure.isTransient? = some false := by
  -- The market is answered once, so it is the one that can be quoted for.
  have hpriced (hplaced : (b.placed w bars).isSome = true) {other : Market α}
      (hanswered : Informed w bars b other) {gamma : α} (hgamma : isPositive gamma = true) :
      Pricing.fault? (b.priced bars now other gamma) ≠ none := by
    obtain rfl : market = other := Except.ok.inj (hinformed.answer.symm.trans hanswered.answer)
    exact mt (priced_fault?_iff_contented hexact haccepted hinformed.series hplaced
      hquotable hgamma).mp hnot
  cases h with
  | unmeasured hseries => cases hinformed.series.symm.trans hseries
  | unanswered hmarket => cases hinformed.answer.symm.trans hmarket
  | sized _ hplaced =>
    rw [sized_eq]
    cases hfault : Sizing.fault? (sizes b.config (b.measured bars now)) with
    | none =>
      exact absurd
        ((sizes_fault?_iff_contented hexact haccepted hinformed.series hplaced).mp hfault) hnot
    | some e => exact ⟨e, rfl, Sizing.isTransient_of_fault? hfault⟩
  | untold _ _ hask hthrown => exact absurd hthrown (htells _ hask _ _)
  | refused _ _ _ hfault => exact ⟨_, rfl, Pricing.isTransient_of_fault? hfault⟩
  | unsaid hanswered hplaced hgamma hfault => exact absurd hfault (hpriced hplaced hanswered hgamma)
  | quoted hanswered hplaced hgamma hfault => exact absurd hfault (hpriced hplaced hanswered hgamma)

/-! ## Runs -/

variable {config : Config α} {c₀ : Controller α} {events : List (Event α)} {y : Cycle α}

/-- A cycle on valid data whose computation is not content fails for good. -/
theorem Computes.exists_failed (hb : Computes (c₀.run w events) y bars b)
    (haccepted : config.Accepted) (hcreate : create config = .ok c₀)
    (hinformed : Informed w bars b market) (hquotable : market.Quotable)
    (hnot : ¬ b.Contented w bars) (hw : w.Articulate)
    (htells : ∀ ask, w.performance = some ask → ∀ call f, (ask call).result ≠ .error f)
    (hstopped : (b.compute w bars y.startedAt).2.stopped = false) :
    ∃ f, ((c₀.run w events).conclude w (.ok bars) y.startedAt).1 = .failed f ∧
      f.isTransient? = some false := by
  obtain ⟨i, hinterval⟩ := haccepted.interval
  obtain ⟨rfl, -, hbusy, hyields⟩ := yields_run hcreate hb hinterval
  obtain ⟨e, herror, hstays⟩ :=
    hyields.exists_error hexact haccepted hinformed hquotable htells hnot
  obtain ⟨f, hf, hfailed⟩ := hb.failed_of_error hbusy hw herror (EngineError.hasWords_failure e)
    (isCancellation_failure e) hstopped
  -- An error of the engine is no other after it was caught.
  obtain ⟨cause, labels, he⟩ := exists_engine_of_stays hstays
  rw [he] at hf hstays
  obtain rfl := Except.ok.inj hf
  exact ⟨_, hfailed, hstays⟩

/-- **How far startup goes.** Take what was accepted.

A controller can be created for it, unless it is to learn with a learning rate that is infinite.

In any run of that controller, take a cycle that computes from valid data: the series has two bars
at least, with close prices that are finite and above zero (`Volatility.failure?_eq_none_iff`), and
the market can be quoted for. Where the settings that its computation insists on are finite, it
fails for good only with what was thrown by whoever was asked for the performance. Where one of them
is infinite it does fail for good, among articulate surroundings that tell the performance, unless
it is stopped. -/
theorem startup_sufficient_iff {input : Value α} {config : Config α}
    (hparse : Config.parse input = .ok config) :
    ((∃ c₀, create config = .ok c₀) ↔
      (config.mode = .known .onlineAdaptive → isFinite config.learningRate = true)) ∧
    ∀ c₀, create config = .ok c₀ → ∀ w events y bars b market, Computes (c₀.run w events) y bars b →
      Informed w bars b market → market.Quotable →
        (b.Contented w bars →
          ∀ f, ((c₀.run w events).conclude w (.ok bars) y.startedAt).1 = .failed f →
          f.isTransient? = some false → ∃ ask call, w.performance = some ask ∧
          (ask call).result = .error f) ∧
        (¬ b.Contented w bars → w.Articulate →
          (∀ ask, w.performance = some ask → ∀ call f, (ask call).result ≠ .error f) →
          (b.compute w bars y.startedAt).2.stopped = false →
          ∃ f, ((c₀.run w events).conclude w (.ok bars) y.startedAt).1 = .failed f ∧
            f.isTransient? = some false) := by
  have := hexact.standard
  have haccepted := Config.accepted_of_parse hparse
  obtain ⟨mode, hmode⟩ := haccepted.mode
  obtain ⟨i, hinterval⟩ := haccepted.interval
  refine ⟨?_, fun c₀ hcreate w events y bars b market hb hinformed hquotable => ?_⟩
  · rw [exists_create_iff haccepted hmode, hmode, Choice.known.injEq]
  · obtain ⟨rfl, -, hbusy, hyields⟩ := yields_run hcreate hb hinterval
    refine ⟨fun hcontented f hfailed hstays => ?_,
      hb.exists_failed hexact haccepted hcreate hinformed hquotable⟩
    obtain ⟨e, labels, rfl⟩ := exists_engine_of_stays hstays
    rw [hb.eq_error_of_failed hbusy hfailed] at hyields
    exact hyields.throws_of_contented hexact haccepted hinformed hquotable hcontented hstays

end

/-- With nothing but defaults, the first cycle in a quiet market does not fail for good. -/
theorem startup_sufficient_iff_defaults :
    let w : Surroundings Extended := steady evenBars (quietMarket 100)
    ∃ config c₀ y b, Config.parse (.object [("mode", .string "fixed")]) = .ok config ∧
      create config = .ok c₀ ∧
      Computes (c₀.run w [.refresh 1, .make, .deliver]) y evenBars b ∧
      ∀ f, ((c₀.run w [.refresh 1, .make, .deliver]).conclude w (.ok evenBars) y.startedAt).1 =
        .failed f → f.isTransient? ≠ some false := by
  intro w
  have hexact := Extended.isExactAnalysis
  obtain ⟨hparse, -, -⟩ := exists_create_preset hexact .fixed
  obtain ⟨hcreates, hcycles⟩ := startup_sufficient_iff hexact hparse
  obtain ⟨c₀, hcreate⟩ := hcreates.mpr nofun
  obtain ⟨-, y, b, hb, -, hinformed, -⟩ :=
    computes_steady hcreate (failure?_evenBars hexact) (quietMarket 100) 1
  have hcontented : b.Contented w evenBars := by
    refine contented_of_finite ?_
    rw [(yields_run hcreate hb rfl).1]
    exact hexact.finite_preset .fixed
  obtain ⟨hfine, -⟩ :=
    hcycles c₀ hcreate w [.refresh 1, .make, .deliver] y evenBars b (quietMarket 100) hb hinformed
      (quotable_quietMarket hexact (hexact.isPositive_natCast (n := 100) (by decide)))
  refine ⟨_, c₀, y, b, hparse, hcreate, hb, fun f hfailed hstays => ?_⟩
  obtain ⟨_, _, hask, -⟩ := hfine hcontented f hfailed hstays
  cases hask

/-- An infinite learning rate is accepted, but no controller can be created with it. An infinite
horizon is accepted and a controller created with it, but its first cycle in a quiet market fails
for good. -/
theorem startup_not_sufficient_infinite :
    let w : Surroundings Extended := steady evenBars (quietMarket 100)
    (∃ config : Config Extended,
      Config.parse (.object [("mode", .string "online_adaptive"),
        ("learningRate", .number infinity)]) = .ok config ∧ ∀ c, create config ≠ .ok c) ∧
      ∃ config c₀ y b f,
        Config.parse (.object [("timeHorizonSeconds", .number infinity)]) = .ok config ∧
        create config = .ok c₀ ∧ Computes (c₀.run w [.refresh 1, .make, .deliver]) y evenBars b ∧
        Informed w evenBars b (quietMarket 100) ∧ (quietMarket 100 : Market Extended).Quotable ∧
        ((c₀.run w [.refresh 1, .make, .deliver]).conclude w (.ok evenBars) y.startedAt).1 =
          .failed f ∧
        f.isTransient? = some false := by
  intro w
  have hexact := Extended.isExactAnalysis
  constructor
  · let config : Config Extended := { Config.preset .onlineAdaptive with learningRate := infinity }
    have hparse : Config.parse (.object [("mode", .string "online_adaptive"),
      ("learningRate", .number infinity)]) = .ok config :=
      Config.parse_number (s := .learningRate) (hexact.complaints_infinity (by decide)) rfl rfl
        (hexact.check_preset .onlineAdaptive)
    refine ⟨config, hparse, fun c hcreate => ?_⟩
    have hrate : isFinite config.learningRate = true :=
      (exists_create_iff (Config.accepted_of_parse hparse) rfl).mp ⟨c, hcreate⟩ rfl
    cases StrictScalar.isFinite_infinity.symm.trans hrate
  · let config : Config Extended := { Config.preset .fixed with timeHorizonSeconds := infinity }
    have hparse : Config.parse (.object [("timeHorizonSeconds", .number infinity)]) = .ok config :=
      Config.parse_number (s := .timeHorizonSeconds)
        (hexact.complaints_infinity (by decide)) rfl rfl (hexact.check_preset .fixed)
    have haccepted := Config.accepted_of_parse hparse
    obtain ⟨c₀, hcreate⟩ := (exists_create_iff haccepted rfl).mpr nofun
    obtain ⟨-, y, b, hb, -, hinformed, hplaced, hstopped⟩ :=
      computes_steady hcreate (failure?_evenBars hexact) (quietMarket 100) 1
    have hquotable := quotable_quietMarket hexact (hexact.isPositive_natCast (n := 100) (by decide))
    have hsome : (b.placed w evenBars).isSome = true := by
      obtain ⟨-, hsource⟩ := check_of_create hcreate
      obtain ⟨-, -, hsource⟩ := Guards.bind_eq_ok.mp hsource
      rw [hplaced, ← Except.ok.inj hsource]
      rfl
    have hnot : ¬ b.Contented w evenBars := by
      intro hcontented
      have hhorizon := hcontented .timeHorizonSeconds (by simp [insisted, hsome])
      rw [(yields_run hcreate hb rfl).1] at hhorizon
      cases StrictScalar.isFinite_infinity.symm.trans hhorizon
    obtain ⟨f, hfailed, hstays⟩ :=
      hb.exists_failed hexact haccepted hcreate hinformed hquotable hnot
      (articulate_steady _ _) nofun hstopped
    exact ⟨config, c₀, y, b, f, hparse, hcreate, hb, hinformed, hquotable, hfailed, hstays⟩

end Refresh.Controller

end MarketMaker
