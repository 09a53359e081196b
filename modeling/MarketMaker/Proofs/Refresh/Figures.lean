import MarketMaker.Proofs.Pricing.Finiteness
import MarketMaker.Proofs.Refresh.Creation
import MarketMaker.Proofs.Refresh.Stages

/-!
# The figures of a published set

A set of parameters is **sound** when its numbers are finite and, if it was sized without risk
aversion, its price is above zero. In an exact analysis a set that a cycle comes to is sound, with
one exception. A quote is refused unless the mid price of the market is finite and above zero; sized
spreads do not depend on the market, and their set passes the mid price on as it is.
-/

namespace MarketMaker

open Scalar

variable {α : Type} [Scalar α]

/-- The numbers of a set beside its price and its time. -/
def Parameters.figures (p : Parameters α) : List α :=
  p.spreads ++ [p.optimalSpread, p.volatilityUsed] ++ p.gammaUsed.toList

/-- All numbers of a set are finite, and the price of one without risk aversion is above zero. -/
structure Parameters.Sound (p : Parameters α) : Prop where
  /-- The figures beside its price and its time are finite. -/
  figures : ∀ x ∈ p.figures, isFinite x = true
  /-- The time is finite. -/
  generatedAt : isFinite p.generatedAt = true
  /-- The price is finite. -/
  reservationPrice : isFinite p.reservationPrice = true
  /-- Without risk aversion, the price is above zero. -/
  positive : p.source = .known .autoOptimize → 0 < p.reservationPrice

/-- A market that a quote is computed for. -/
structure Market.Quotable (m : Market α) : Prop where
  /-- The depth of the book is finite and above zero. -/
  kappa : isPositive m.kappa = true
  /-- The mid price is finite and above zero. -/
  midPrice : isPositive m.midPrice = true
  /-- The inventory is finite. -/
  inventory : isFinite m.inventory = true

namespace Refresh.Controller

variable [NumberText α] [Numeric α] [StrictScalar α] {value : α → ℝ}
  (hexact : IsExactAnalysis value)

variable {w : Surroundings α} {bars : List (Bar α)} {now : α} {b c : Controller α}
  {p : Parameters α} {market : Market α} {estimate : Volatility.Estimate α}

/-! ## Surroundings at hand -/

/-- Surroundings in which one series and one market are there at once, and that keep out of
everything else. -/
def steady (bars : List (Bar α)) (market : Market α) : Surroundings α where
  reply _ := .now (.ok bars)
  stopsOnSettling _ := false
  market _ _ := ⟨[], .ok market⟩
  performance := none
  listeners := none

omit [Scalar α] [Numeric α] [StrictScalar α] in
theorem articulate_steady (bars : List (Bar α)) (market : Market α) :
    (steady bars market).Articulate where
  market _ _ := .ok _
  performance _ h := by cases h
  onPublish _ h := by cases h
  onFloorClamp _ h := by cases h
  onFailure _ h := by cases h

/-- Two bars with one price. -/
def evenBars : List (Bar α) := [⟨0, 100, 100, 100, 100, none⟩, ⟨60000, 100, 100, 100, 100, none⟩]

/-- A quiet market with a mid price. -/
def quietMarket (midPrice : α) : Market α :=
  { midPrice, inventory := 0, alpha := 1, kappa := 1, timestamp := 0 }

section

include hexact

/-! ## What stands in the way of a set -/

omit [Numeric α] in
/-- The volatility that a computation for an accepted configuration measures. -/
theorem isNonNegative_measured (haccepted : b.config.Accepted)
    (hseries : Volatility.failure? bars = none) :
    isNonNegative (b.measured bars now).value = true := by
  obtain ⟨i, hinterval⟩ := haccepted.interval
  rw [measured, hinterval]
  exact Volatility.isNonNegative_measure hexact hseries i

omit [NumberText α] [Numeric α] in
/-- Of what is accepted, only infinite numbers keep spreads from being sized. -/
theorem sizes_fault?_eq_none_iff {config : Config α} (haccepted : config.Accepted)
    (hvolatility : isNonNegative estimate.value = true) :
    Sizing.fault? (sizes config estimate) = none ↔ isFinite config.orderRefreshTimeSeconds = true ∧
      isFinite config.maxHoldingTimeDays = true ∧ isFinite config.profitFactor = true := by
  obtain ⟨-, hfill, hrisk, -⟩ := Config.check_eq_ok_iff.mp haccepted.check
  have hrefresh : 0 < config.orderRefreshTimeSeconds :=
    haccepted.pos (s := .orderRefreshTimeSeconds) rfl (by decide)
  have hholding : 0 ≤ config.maxHoldingTimeDays :=
    haccepted.atLeast (s := .maxHoldingTimeDays) rfl (by decide)
  have hprofit : 0 < config.profitFactor := haccepted.pos (s := .profitFactor) rfl (by decide)
  rw [Sizing.fault?_eq_none_iff]
  simp only [sizes, hfill, hrisk, Volatility.isNonNegative_annualize hexact hvolatility, true_and,
    Sizing.isNonNegative_secondsToYears_iff hexact (LawfulScalar.le_of_lt hrefresh),
    Sizing.isNonNegative_daysToYears_iff hexact hholding, isPositive, hprofit,
    decide_true, Bool.and_true]

omit [Numeric α] in
/-- Of what is accepted, only an infinite horizon keeps a quote from being computed, or the market
does. -/
theorem priced_fault?_eq_none_iff (haccepted : b.config.Accepted)
    (hseries : Volatility.failure? bars = none) {gamma : α} (hgamma : isPositive gamma = true) :
    Pricing.fault? (b.priced bars now market gamma) = none ↔
      market.Quotable ∧ isFinite b.config.timeHorizonSeconds = true := by
  have hhorizon : 0 ≤ b.config.timeHorizonSeconds :=
    haccepted.atLeast (s := .timeHorizonSeconds) rfl (by decide)
  have hmeasured : isNonNegative (b.measured bars now).value = true :=
    isNonNegative_measured hexact haccepted hseries
  rw [Pricing.sound_iff_fault?, ← isNonNegative_iff_isFinite hhorizon]
  exact ⟨fun h => ⟨⟨h.kappa, h.midPrice, h.inventory⟩, h.horizon⟩,
    fun ⟨h, hfinite⟩ => ⟨hgamma, h.kappa, h.midPrice, h.inventory, hmeasured, hfinite⟩⟩

/-! ## Sized and quoted sets -/

/-- A sized set has finite figures beside the mid price that it passes on. -/
theorem figures_sized {config : Config α} (hvolatility : isNonNegative estimate.value = true)
    (h : sized config estimate market now = .ok p) :
    (∀ x ∈ p.figures, isFinite x = true) ∧ p.generatedAt = now ∧ p.source = .known .autoOptimize ∧
      p.reservationPrice = market.midPrice := by
  rw [sized_eq] at h
  split at h
  · cases h
  · next hfault =>
    obtain rfl := Except.ok.inj h
    obtain ⟨hbid, hask, hlong, hshort, hloss⟩ := Sizing.isNonNegative_spreadsOf hexact hfault
    have hwidth := hexact.isNonNegative_add hbid hask
    refine ⟨?_, rfl, rfl, rfl⟩
    simp [Parameters.figures, Parameters.spreads, isFinite_of_isNonNegative, *]

/-- A quoted set has finite figures. -/
theorem figures_quoted {gamma : α} {quote : Pricing.Quote α} (haccepted : c.config.Accepted)
    (hfinite : c.config.Finite) (hvolatility : isNonNegative estimate.value = true)
    (hgamma : isPositive gamma = true) (hmid : isPositive market.midPrice = true)
    (hquote : quote.Finite) (h : quoted c estimate market now gamma quote = .ok p) :
    (∀ x ∈ p.figures, isFinite x = true) ∧ p.generatedAt = now ∧ p.source ≠ .known .autoOptimize ∧
      isFinite p.reservationPrice = true := by
  have hrisk := (Config.check_eq_ok_iff.mp haccepted.check).2.2.1
  rw [quoted_eq_ok hrisk] at h
  split at h
  · cases h
  · next source _ =>
    obtain rfl := Except.ok.inj h
    have hprofit : isFinite c.config.profitFactor = true := hfinite .profitFactor rfl
    have hholding : isNonNegative (Sizing.daysToYears c.config.maxHoldingTimeDays) = true :=
      (Sizing.isNonNegative_daysToYears_iff hexact
        (haccepted.atLeast (s := .maxHoldingTimeDays) rfl (by decide))).mpr
        (hfinite .maxHoldingTimeDays rfl)
    have hloss := Sizing.isNonNegative_stopLossDistance hexact
      (Volatility.isNonNegative_annualize hexact hvolatility) hholding hrisk
    obtain ⟨mid, hdenotes, hpos⟩ := hexact.isPositive_iff.mp hmid
    have hwidth := (hexact.div (denotes_value value hquote.optimalSpread) hdenotes hpos.ne').finite
    have hlong := hexact.isFinite_mul hquote.askSpread hprofit
    have hshort := hexact.isFinite_mul hquote.bidSpread hprofit
    refine ⟨?_, rfl, ?_, hquote.reservationPrice⟩
    · simp [Parameters.figures, Parameters.spreads, isFinite_of_isNonNegative,
        isFinite_of_isPositive, hquote.bidSpread, hquote.askSpread, *]
    · cases source <;> simp [Gamma.Source.mode]

/-! ## Sets that a computation comes to -/

omit [Numeric α] [StrictScalar α] hexact in
/-- A controller that was created with a finite floor and shape factor tunes its quotes soundly. -/
theorem sound_tuning {config : Config α} {c₀ : Controller α} (hcreate : create config = .ok c₀)
    (hfloor : isFinite config.minSpread = true)
    (hshape : isFinite config.orderAmountShapeFactor = true) :
    (⟨config.minSpread, config.orderAmountShapeFactor⟩ : Pricing.Config α).Sound := by
  obtain ⟨-, hpos⟩ := nonneg_of_create hcreate
  exact ⟨hfloor, by simp [isPositive, hpos, hshape]⟩

/-- **Whether a set is sound** is for the market to say that its computation was answered. With a
source of risk aversion in place the market is one that can be quoted for. -/
theorem Yields.sound_iff (h : Yields w bars now b (.ok p)) (haccepted : b.config.Accepted)
    (hfinite : b.config.Finite) (htuned : b.pricing.Sound) :
    ∃ market, Informed w bars b market ∧ ((b.placed w bars).isSome = true → market.Quotable) ∧
      (p.Sound ↔
        isFinite now = true ∧ (b.placed w bars = none → isPositive market.midPrice = true)) := by
  generalize hresult : (Except.ok p : Except (Failure α) (Parameters α)) = result at h
  cases h with
  | unmeasured | unanswered | untold | refused | unsaid => cases hresult
  | @sized market hinformed hplaced =>
    have hmeasured : isNonNegative (b.measured bars now).value = true :=
      isNonNegative_measured hexact haccepted hinformed.series
    obtain ⟨hfigures, htime, hsource, hprice⟩ := figures_sized hexact hmeasured hresult.symm
    refine ⟨market, hinformed, by simp [hplaced], ?_⟩
    -- The price is the only figure of the set that nothing has checked.
    rw [isPositive, ← hprice, ← htime]
    constructor
    · intro hsound
      exact ⟨hsound.generatedAt,
        fun _ => by simp [hsound.reservationPrice, hsound.positive hsource]⟩
    · rintro ⟨hdated, hpositive⟩
      obtain ⟨hprice, hpos⟩ := Bool.and_eq_true_iff.mp (hpositive hplaced)
      exact ⟨hfigures, hdated, hprice, fun _ => of_decide_eq_true hpos⟩
  | @quoted market gamma after hinformed hplaced hgamma hfault hconfig =>
    -- Whatever a quote could go wrong by was refused before.
    have hsound := Pricing.sound_iff_fault?.mp hfault
    have hquote := (Pricing.quoteOf_denotes hexact htuned hsound).finite
    rw [← hconfig] at haccepted hfinite
    obtain ⟨hfigures, htime, hsource, hprice⟩ :=
      figures_quoted hexact haccepted hfinite hsound.volatility hgamma
      hsound.midPrice hquote hresult.symm
    refine ⟨market, hinformed, fun _ => ⟨hsound.kappa, hsound.midPrice, hsound.inventory⟩, ?_⟩
    rw [← htime]
    constructor
    · intro h
      exact ⟨h.generatedAt, fun hnone => by simp [hnone] at hplaced⟩
    · rintro ⟨hdated, -⟩
      exact ⟨hfigures, hdated, hprice, fun h => absurd h hsource⟩

/-! ## First cycles -/

omit [NumberText α] [Numeric α] in
/-- A quiet market with a positive mid price can be quoted for. -/
theorem quotable_quietMarket {mid : α} (hmid : isPositive mid = true) :
    (quietMarket mid).Quotable where
  kappa := hexact.isPositive_natCast (n := 1) (by decide)
  midPrice := hmid
  inventory := hexact.zero.finite

omit [Numeric α] in
theorem failure?_evenBars : Volatility.failure? (evenBars : List (Bar α)) = none := by
  have hclose : isPositive (100 : α) = true := hexact.isPositive_natCast (n := 100) (by decide)
  exact Volatility.failure?_eq_none_iff.mpr ⟨le_rfl, by simp [evenBars, hclose]⟩

omit [Numeric α] [StrictScalar α] hexact in
/-- The market is answered, and nothing else happens. -/
theorem askMarket_steady (bars : List (Bar α)) (market : Market α) (b : Controller α) :
    b.askMarket (steady bars market) bars = (.ok market,
      { b with calls := { b.calls with market := b.calls.market + 1 } }.note
      (.marketAsked bars.length)) := rfl

omit [StrictScalar α] hexact in
/-- Surroundings that keep out of everything do not stop a computation. -/
theorem stopped_compute_steady (bars : List (Bar α)) (market : Market α) (now : α)
    (b : Controller α) : (b.compute (steady bars market) bars now).2.stopped = b.stopped := by
  have hprice (estimate : Volatility.Estimate α) (gamma : α) (c : Controller α) :
      (c.price (steady bars market) estimate market now gamma).2.stopped = c.stopped := by
    unfold price
    dsimp only
    split
    · rfl
    · split
      · exact stopped_logAll _ c
      · exact stopped_logAll _ c
  unfold compute
  split
  · rfl
  · rw [askMarket_steady]
    dsimp only
    split
    · rfl
    · simp only [computeWith, askPerformance, steady, canUse_eq_true, if_true]
      refine (hprice _ _ _).trans ((stopped_logAll _ _).trans ?_)
      unfold keepSource
      split <;> rfl

omit [StrictScalar α] hexact in
/-- The first cycle in such surroundings goes on with the series and finds the controller as it was
created. -/
theorem goesOn_steady {config : Config α} {c₀ : Controller α} (hcreate : create config = .ok c₀)
    (bars : List (Bar α)) (market : Market α) (now : α) :
    let r := c₀.run (steady bars market) [.refresh now, .make, .deliver]
    ∃ y, GoesOn r y (.ok bars) ∧ y.startedAt = now ∧ r.source = c₀.source ∧ r.stopped = false ∧
      r.published = none := by
  have hbegun : (Request.start config.fetchTimeoutMs false : Request α (List (Bar α))) =
      .begun := by
    simp [Request.start, Numeric.hasText]
  obtain ⟨pricing, source, rfl⟩ := create_spec hcreate
  simp only [run, step, refresh, start, hbegun, List.foldl_cons, List.foldl_nil]
  exact ⟨⟨0, false, now, (Request.begun.make.answer (.ok bars)).deliver, some 0, none⟩,
    ⟨rfl, rfl, (fun h => by cases h), rfl⟩, rfl, rfl, rfl, rfl⟩

omit [StrictScalar α] hexact in
/-- It computes from the series and the market, with the source that was created. -/
theorem computes_steady {config : Config α} {c₀ : Controller α} (hcreate : create config = .ok c₀)
    (hseries : Volatility.failure? bars = none) (market : Market α) (now : α) :
    let w := steady bars market
    let r := c₀.run w [.refresh now, .make, .deliver]
    r.published = none ∧ ∃ y b, Computes r y bars b ∧ y.startedAt = now ∧ Informed w bars b market ∧
      b.placed w bars = c₀.source ∧ (b.compute w bars y.startedAt).2.stopped = false := by
  intro w r
  obtain ⟨y, hgoes, hstarted, hsource, hstopped, hfresh⟩ := goesOn_steady hcreate bars market now
  obtain ⟨b, hb⟩ := hgoes.computes hstopped
  obtain ⟨hplaced, hbegun⟩ := hb.beginning
  exact ⟨hfresh, y, b, hb, hstarted, ⟨hseries, rfl⟩, hplaced.trans hsource,
    (stopped_compute_steady bars market y.startedAt b).trans hbegun⟩

omit [Scalar α] [NumberText α] [Numeric α] [StrictScalar α] hexact in
/-- The first cycle goes on once. -/
theorem eq_of_single_cycle {now : α} {before rest : List (Event α)}
    (h : [.refresh now, .make, .deliver, .resume] = before ++ .resume :: rest) :
    before = [.refresh now, .make, .deliver] ∧ rest = [] := by
  rcases before with _ | ⟨_, _ | ⟨_, _ | ⟨_, _ | ⟨_, _⟩⟩⟩⟩ <;> simp_all

/-- The first cycle without risk aversion publishes the price that it was answered, whatever that
is. -/
theorem published_steady {config : Config α} (haccepted : config.Accepted) (hfinite : config.Finite)
    (hmode : config.mode = .known .autoOptimize) {c₀ : Controller α}
    (hcreate : create config = .ok c₀) (hseries : Volatility.failure? bars = none)
    (market : Market α) (now : α) :
    ∃ y b p, Computes (c₀.run (steady bars market) [.refresh now, .make, .deliver]) y bars b ∧
      y.startedAt = now ∧
      (c₀.run (steady bars market) [.refresh now, .make, .deliver, .resume]).published = some p ∧
      p.reservationPrice = market.midPrice := by
  obtain ⟨i, hinterval⟩ := haccepted.interval
  have horderly :
      (c₀.run (steady bars market) [.refresh now, .make, .deliver]).Orderly fun _ _ => True :=
    orderly_run hcreate (fun _ _ _ => trivial) (fun _ _ _ => trivial)
  have hnone : c₀.source = none := by
    obtain ⟨-, hsource⟩ := check_of_create hcreate
    rw [hmode] at hsource
    obtain ⟨-, -, hsource⟩ := Guards.bind_eq_ok.mp hsource
    exact (Except.ok.inj hsource).symm
  obtain ⟨hfresh, y, b, hb, hstarted, hinformed, hplaced, -⟩ :=
    computes_steady hcreate hseries market now
  rw [hnone] at hplaced
  obtain ⟨rfl, -, -, hyields⟩ := yields_run hcreate hb hinterval
  have hresult := hyields.eq_sized hinformed hplaced
  have hmeasured : isNonNegative (b.measured bars y.startedAt).value = true :=
    isNonNegative_measured hexact haccepted hseries
  have hfault := (sizes_fault?_eq_none_iff hexact haccepted hmeasured).mpr
    ⟨hfinite .orderRefreshTimeSeconds rfl, hfinite .maxHoldingTimeDays rfl,
      hfinite .profitFactor rfl⟩
  rw [sized_eq, hfault] at hresult
  exact ⟨y, b, _, hb, hstarted, hb.published_first horderly hfresh hresult, rfl⟩

/-! ## Runs -/

/-- **Whether what is published is sound.** Take any run of a controller for an accepted
configuration of finite numbers.

A published set is one that a cycle has come to. It is sound exactly when the time of that cycle was
finite and, if the cycle found no source of risk aversion in place, the mid price that it was
answered is finite and above zero. The series that it was computed from has a volatility; and with a
source in place, the market can be quoted for.

A cycle that comes to no set fails, among articulate surroundings that do not cancel anything,
unless it is stopped. -/
theorem published_sound_iff {input : Value α} {config : Config α}
    (hparse : Config.parse input = .ok config) (hfinite : config.Finite) {c₀ : Controller α}
    (hcreate : create config = .ok c₀) (w : Surroundings α) (events : List (Event α)) :
    (∀ p, (c₀.run w events).published = some p →
      ∃ before rest y bars b market, events = before ++ .resume :: rest ∧
      Computes (c₀.run w before) y bars b ∧ (b.compute w bars y.startedAt).1 = .ok p ∧
      Informed w bars b market ∧ ((b.placed w bars).isSome = true → market.Quotable) ∧
      (p.Sound ↔ isFinite y.startedAt = true ∧
        (b.placed w bars = none → isPositive market.midPrice = true))) ∧
    ∀ y bars b, Computes (c₀.run w events) y bars b →
      (∀ p, (b.compute w bars y.startedAt).1 ≠ .ok p) →
      w.Articulate → (∀ f, w.Throws f → f.isCancellation = false) →
      (b.compute w bars y.startedAt).2.stopped = false →
      ∃ f, ((c₀.run w events).conclude w (.ok bars) y.startedAt).1 = .failed f := by
  have := hexact.standard
  have haccepted := Config.accepted_of_parse hparse
  obtain ⟨i, hinterval⟩ := haccepted.interval
  constructor
  · intro p hp
    rcases published_run (.create hcreate) w events hp with hbefore |
      ⟨before, rest, hsplit, y, bars, b, hb, hok⟩
    · obtain ⟨pricing, source, rfl⟩ := create_spec hcreate
      cases hbefore
    · obtain ⟨rfl, htuning, -, hyields⟩ := yields_run hcreate hb hinterval
      rw [hok] at hyields
      have htuned : b.pricing.Sound :=
        htuning ▸ sound_tuning hcreate (hfinite .minSpread rfl)
          (hfinite .orderAmountShapeFactor rfl)
      obtain ⟨market, hinformed, hquotable, hsound⟩ :=
        hyields.sound_iff hexact haccepted hfinite htuned
      exact ⟨before, rest, y, bars, b, market, hsplit, hb, hok, hinformed, hquotable, hsound⟩
  · intro y bars b hb hnone hw hcancels hstopped
    obtain ⟨rfl, -, hbusy, hyields⟩ := yields_run hcreate hb hinterval
    cases hresult : (b.compute w bars y.startedAt).1 with
    | ok p => exact absurd hresult (hnone p)
    | error f =>
      have hwords := compute_worded hw bars y.startedAt (hb.prepares.keeps.busy hbusy) f hresult
      rw [hresult] at hyields
      have hnot :=
        hyields.not_cancellation (Config.check_eq_ok_iff.mp haccepted.check).2.2.1 hcancels
      obtain ⟨e, -, hfailed⟩ := hb.failed_of_error hbusy hw hresult hwords hnot hstopped
      exact ⟨e, hfailed⟩

end

/-- Spreads are sized for a market with a mid price of 100, and the set that is published is
sound. -/
theorem published_sound_iff_quiet :
    let w : Surroundings Extended := steady evenBars (quietMarket 100)
    ∃ config c₀ p, Config.parse (.object [("mode", .string "auto_optimize")]) = .ok config ∧
      config.Finite ∧ create config = .ok c₀ ∧
      (c₀.run w [.refresh 1, .make, .deliver, .resume]).published = some p ∧ p.Sound := by
  intro w
  have hexact := Extended.isExactAnalysis
  obtain ⟨hparse, haccepted, c₀, hcreate⟩ := exists_create_preset hexact .autoOptimize
  have hfinite := hexact.finite_preset .autoOptimize
  obtain ⟨y, b, p, hb, hstarted, hpublished, -⟩ :=
    published_steady hexact haccepted hfinite rfl hcreate
    (failure?_evenBars hexact) (quietMarket 100) 1
  obtain ⟨hsound, -⟩ :=
    published_sound_iff hexact hparse hfinite hcreate w [.refresh 1, .make, .deliver, .resume]
  obtain ⟨before, rest, z, bars, d, market, hsplit, hd, -, hinformed, -, hiff⟩ :=
    hsound p hpublished
  -- There is one cycle, and one market.
  obtain ⟨rfl, rfl⟩ := eq_of_single_cycle hsplit
  obtain ⟨rfl, -, -⟩ := hb.eq hd
  obtain rfl : market = quietMarket 100 := Except.ok.inj hinformed.answer.symm
  refine ⟨_, c₀, p, hparse, hfinite, hcreate, hpublished, hiff.mpr ⟨?_, fun _ => ?_⟩⟩
  · rw [hstarted]
    exact hexact.one.finite
  · exact hexact.isPositive_natCast (n := 100) (by decide)

/-- Spreads are sized for a market without a mid price, too, and a set without a price is
published. -/
theorem published_not_sound_priceless :
    let w : Surroundings Extended := steady evenBars (quietMarket .undefined)
    ∃ config c₀ p, Config.parse (.object [("mode", .string "auto_optimize")]) = .ok config ∧
      config.Finite ∧ create config = .ok c₀ ∧
      (c₀.run w [.refresh 1, .make, .deliver, .resume]).published = some p ∧
      isFinite p.reservationPrice = false := by
  intro w
  have hexact := Extended.isExactAnalysis
  obtain ⟨hparse, haccepted, c₀, hcreate⟩ := exists_create_preset hexact .autoOptimize
  have hfinite := hexact.finite_preset .autoOptimize
  obtain ⟨-, -, p, -, -, hpublished, hprice⟩ :=
    published_steady hexact haccepted hfinite rfl hcreate
    (failure?_evenBars hexact) (quietMarket .undefined) 1
  refine ⟨_, c₀, p, hparse, hfinite, hcreate, hpublished, ?_⟩
  rw [hprice]
  rfl

end Refresh.Controller

end MarketMaker
