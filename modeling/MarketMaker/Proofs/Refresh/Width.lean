import MarketMaker.Proofs.Pricing.Width
import MarketMaker.Proofs.Refresh.Figures

/-!
# The total width of a published set

A set has the spread of its bid, the spread of its ask, and a total width. Sized spreads are added
up to their total. A quoted total is the spread that the prices were to lie apart before one of them
was looked at, while its sides are measured from the prices that were left. So the total is out by
what the replacement of a price has moved it.
-/

namespace MarketMaker.Refresh.Controller

open Scalar

variable {α : Type} [Scalar α] [NumberText α] [Numeric α] {value : α → ℝ}

variable {w : Surroundings α} {bars : List (Bar α)} {now : α} {b c : Controller α}
  {p : Parameters α} {market : Market α} {estimate : Volatility.Estimate α} {config : Config α}
  {c₀ : Controller α}

/-! ## The width of a set -/

/-- A sized total is a sum. -/
theorem width_of_sized (h : sized config estimate market now = .ok p) :
    Sizing.fault? (sizes config estimate) = none ∧ p.gammaUsed = none ∧
      p.bidSpread = (Sizing.spreadsOf (sizes config estimate)).bidSpread ∧
      p.askSpread = (Sizing.spreadsOf (sizes config estimate)).askSpread ∧
      p.optimalSpread = p.bidSpread + p.askSpread := by
  rw [sized_eq] at h
  split at h
  · cases h
  · next hfault =>
    obtain rfl := Except.ok.inj h
    exact ⟨hfault, rfl, rfl, rfl, rfl⟩

omit [Numeric α] in
/-- A quoted total is the spread of the quote as a fraction of the mid price. -/
theorem width_of_quoted {gamma : α} {quote : Pricing.Quote α}
    (h : quoted c estimate market now gamma quote = .ok p) :
    p.gammaUsed = some gamma ∧ p.bidSpread = quote.bidSpread ∧ p.askSpread = quote.askSpread ∧
      p.optimalSpread = quote.optimalSpread / market.midPrice := by
  obtain ⟨s, stopLoss, -, rfl⟩ := exists_of_quoted h
  exact ⟨rfl, rfl, rfl, rfl⟩

section

variable [StrictScalar α] (hexact : IsExactAnalysis value)

include hexact

/-- **Whether a set is as wide as its sides.** Its three spreads are real numbers. The total of a
set without risk aversion is the sum of the sides. With one, it is as long as the quote kept its
bid; otherwise it is only by chance. -/
theorem Yields.width_iff (h : Yields w bars now b (.ok p)) (htuned : b.pricing.Sound) :
    ∃ market, Informed w bars b market ∧ ∃ bid ask width, Denotes value p.bidSpread bid ∧
      Denotes value p.askSpread ask ∧ Denotes value p.optimalSpread width ∧
      (p.gammaUsed = none → width = bid + ask) ∧
      ∀ gamma, p.gammaUsed = some gamma →
        let tuning := b.pricing.real value
        let i := (b.priced bars now market gamma).real value
        (width = bid + ask ↔ 0 < Pricing.plainBid tuning i ∨ (Pricing.plainAsk tuning i ≤ 0 ∧
          (Pricing.quoteOf tuning i).optimalSpread = i.market.midPrice * (2 / 1000))) := by
  generalize hresult : (Except.ok p : Except (Failure α) (Parameters α)) = result at h
  cases h with
  | unmeasured | unanswered | untold | refused | unsaid => cases hresult
  | @sized market hinformed =>
    obtain ⟨hfault, hnone, hbid, hask, htotal⟩ := width_of_sized hresult.symm
    obtain ⟨hbidFinite, haskFinite, -⟩ := Sizing.isNonNegative_spreadsOf hexact hfault
    have hbidSpread := denotes_value value (hbid ▸ isFinite_of_isNonNegative hbidFinite)
    have haskSpread := denotes_value value (hask ▸ isFinite_of_isNonNegative haskFinite)
    refine ⟨market, hinformed, _, _, _, hbidSpread, haskSpread,
      htotal ▸ hexact.add hbidSpread haskSpread, fun _ => rfl, ?_⟩
    simp [hnone]
  | @quoted market gamma after hinformed _ _ hfault =>
    obtain ⟨hgamma, hbid, hask, htotal⟩ := width_of_quoted hresult.symm
    have hsound := Pricing.sound_iff_fault?.mp hfault
    have hvalid := hsound.valid hexact
    have hquote := Pricing.quoteOf_denotes hexact htuned hsound
    have hwidth := hexact.div hquote.optimalSpread hsound.denotes_midPrice hvalid.midPrice_pos.ne'
    refine ⟨market, hinformed, _, _, _, hbid ▸ hquote.bidSpread, hask ▸ hquote.askSpread,
      htotal ▸ hwidth, by simp [hgamma], fun gamma' hgamma' => ?_⟩
    obtain rfl := Option.some.inj (hgamma.symm.trans hgamma')
    exact Pricing.spread_eq_sides_iff (htuned.shapeFactor_pos hexact) hvalid

/-! ## First quotes -/

omit [Numeric α] [StrictScalar α] in
/-- Two bars with one price do not vary. -/
theorem denotes_measured_evenBars {i : Interval}
    (hinterval : b.config.volatilityInterval = .known i) :
    Denotes value (b.measured evenBars now).value 0 := by
  have hproduct :=
    hexact.mul hexact.zero (hexact.sqrt (hexact.natCast i.periodsPerDay) (Nat.cast_nonneg _))
  rw [zero_mul] at hproduct
  rw [measured, hinterval]
  exact hproduct

omit [Numeric α] [StrictScalar α] hexact in
/-- A series without a fault is measured. -/
theorem estimate_eq_measured (hseries : Volatility.failure? bars = none) {i : Interval}
    (hinterval : b.config.volatilityInterval = .known i) :
    Volatility.estimate bars b.config.volatilityInterval now = .ok (b.measured bars now) := by
  rw [measured, hinterval]
  exact Volatility.estimate_known hseries i

omit [Numeric α] [StrictScalar α] hexact in
/-- In surroundings that keep out of everything the source in place is consulted, and stays in
place. -/
theorem consults_steady (hseries : Volatility.failure? bars = none) {i : Interval}
    (hinterval : b.config.volatilityInterval = .known i) {source : Gamma.Source α}
    (hsource : b.source = some source) (market : Market α) (now : α) :
    ∃ context, context.market = market ∧
      b.consultation? (steady bars market) bars now = some (source, context) ∧
      (b.consulted (steady bars market) bars source context).source =
        some (source.resolve context).2.1 := by
  refine ⟨⟨market, (b.measured bars now).value, now, b.published.map (·.optimalSpread), none⟩,
    rfl, ?_, ?_⟩
  · simp only [consultation?, estimate_eq_measured hseries hinterval, askMarket_steady,
      note, hsource]
    rfl
  · simp only [consulted, askPerformance, steady, keepSource, if_true]
    exact (source_logAll _ _).1

/-- The first cycle with a constant risk aversion publishes a quote for the market that it was
answered. -/
theorem published_steady_fixed (haccepted : config.Accepted) (hfinite : config.Finite)
    (hmode : config.mode = .known .fixed) (hcreate : create config = .ok c₀)
    (hseries : Volatility.failure? bars = none) (hquotable : market.Quotable) (now : α) :
    let w := steady bars market
    ∃ y b p, Computes (c₀.run w [.refresh now, .make, .deliver]) y bars b ∧
      (b.compute w bars y.startedAt).1 = .ok p ∧ p.gammaUsed = some config.riskFactor ∧
      (c₀.run w [.refresh now, .make, .deliver, .resume]).published = some p := by
  intro w
  obtain ⟨i, hinterval⟩ := haccepted.interval
  have horderly : (c₀.run w [.refresh now, .make, .deliver]).Orderly fun _ _ => True :=
    orderly_run hcreate (fun _ _ _ => trivial) (fun _ _ _ => trivial)
  let source : Gamma.Source α := .fixed config.riskFactor config.gammaMin config.gammaMax
  have hsource : c₀.source = some source := by
    obtain ⟨-, hsource⟩ := check_of_create hcreate
    rw [hmode] at hsource
    obtain ⟨-, -, hsource⟩ := Guards.bind_eq_ok.mp hsource
    exact (Except.ok.inj hsource).symm
  obtain ⟨hfresh, y, b, hb, -, hinformed, hplaced, -⟩ := computes_steady hcreate hseries market now
  rw [hsource] at hplaced
  obtain ⟨rfl, -, hbusy, -⟩ := yields_run hcreate hb hinterval
  have hbegun := hb.prepares.keeps.busy hbusy
  obtain ⟨hrisk, -, hprobability, -⟩ := Config.check_eq_ok_iff.mp haccepted.check
  obtain ⟨context, rfl, hconsults, hkept⟩ :=
    consults_steady hseries hinterval hplaced market y.startedAt
  have hfault (estimate : Volatility.Estimate α)
      (h : Volatility.estimate bars b.config.volatilityInterval y.startedAt = .ok estimate) :
      Pricing.fault? ⟨context.market, b.config.riskFactor, estimate.value,
        b.config.timeHorizonSeconds⟩ = none := by
    obtain rfl := Except.ok.inj ((estimate_eq_measured hseries hinterval).symm.trans h)
    exact (priced_fault?_eq_none_iff hexact haccepted hseries hrisk).mpr ⟨hquotable,
      hfinite .timeHorizonSeconds rfl⟩
  obtain ⟨hlabelled, -⟩ := compute_of_unheard hbegun rfl hconsults hfault hprobability
  obtain ⟨p, hp, -⟩ := hlabelled source hkept
  exact ⟨y, b, p, hb, hp, (Traced.of_compute hbegun hp).consulted _ _ hconsults,
    hb.published_first horderly hfresh hp⟩

omit [Numeric α] [StrictScalar α] in
/-- The plain prices of the first quote with the defaults. -/
theorem plain_quietMarket (hconfig : b.config = .preset .fixed)
    (hpricing : b.pricing = ⟨(Config.preset .fixed).minSpread,
      (Config.preset .fixed).orderAmountShapeFactor⟩)
    (mid : α) :
    let tuning := b.pricing.real value
    let i := (b.priced evenBars now (quietMarket mid) (Config.preset .fixed).riskFactor).real value
    let spread := max (2 * Real.log 2) (value mid * (5 / 10 ^ 5))
    Pricing.plainBid tuning i = value mid - spread / 2 ∧
    Pricing.plainAsk tuning i = value mid + spread / 2 := by
  intro tuning i spread
  have hone : value (1 : α) = 1 := hexact.value_one
  have hinterval : b.config.volatilityInterval = .known .oneMinute := by
    rw [hconfig]
    rfl
  have hmeasured : Denotes value (b.measured evenBars now).value 0 :=
    denotes_measured_evenBars hexact hinterval
  have hfloor : tuning.minSpread = 5 / 10 ^ 5 := by
    simp only [tuning, hpricing]
    exact (hexact.decimal 5 5).value_eq
  have hshape : tuning.shapeFactor = 1 := by
    simp only [tuning, hpricing]
    exact hone
  have hplain := Pricing.plain_flat hshape (show i.gamma = 1 from hone) hone hexact.value_zero
    (show i.volatility = 0 from hmeasured.value_eq)
  rw [hfloor] at hplain
  exact hplain

/-! ## Runs -/

/-- **Whether the total of a published set is the sum of its sides.** Take any run of a controller
that was created with a finite floor and a finite shape factor.

A published set is one that a cycle has come to, and its three spreads are real numbers. If the set
has no risk aversion its total is the sum of its sides. Otherwise it was quoted, and its total is
the sum exactly when the plain bid was above zero, so that neither price was replaced, or when both
were replaced and the spread was a fifth of a percent of the mid price before they were. -/
theorem published_width_iff (hcreate : create config = .ok c₀) {interval : Interval}
    (hinterval : config.volatilityInterval = .known interval)
    (hfloor : isFinite config.minSpread = true)
    (hshape : isFinite config.orderAmountShapeFactor = true) (w : Surroundings α)
    (events : List (Event α)) (hp : (c₀.run w events).published = some p) :
    ∃ before rest y bars b market, events = before ++ .resume :: rest ∧
      Computes (c₀.run w before) y bars b ∧
      (b.compute w bars y.startedAt).1 = .ok p ∧ Informed w bars b market ∧
      ∃ bid ask width, Denotes value p.bidSpread bid ∧ Denotes value p.askSpread ask ∧
        Denotes value p.optimalSpread width ∧
        (p.gammaUsed = none → width = bid + ask) ∧
        ∀ gamma, p.gammaUsed = some gamma →
          let tuning := b.pricing.real value
          let i := (b.priced bars y.startedAt market gamma).real value
          (width = bid + ask ↔ 0 < Pricing.plainBid tuning i ∨ (Pricing.plainAsk tuning i ≤ 0 ∧
            (Pricing.quoteOf tuning i).optimalSpread = i.market.midPrice * (2 / 1000))) := by
  rcases published_run (.create hcreate) w events hp with hbefore |
    ⟨before, rest, hsplit, y, bars, b, hb, hok⟩
  · obtain ⟨pricing, source, rfl⟩ := create_spec hcreate
    cases hbefore
  · obtain ⟨-, htuning, -, hyields⟩ := yields_run hcreate hb hinterval
    rw [hok] at hyields
    obtain ⟨market, hinformed, hwidth⟩ :=
      hyields.width_iff hexact (htuning ▸ sound_tuning hcreate hfloor hshape)
    exact ⟨before, rest, y, bars, b, market, hsplit, hb, hok, hinformed, hwidth⟩

end

/-- A quote for a mid price of 100 keeps both prices, and the set that is published is as wide as
its sides. -/
theorem published_width_iff_quiet :
    let w : Surroundings Extended := steady evenBars (quietMarket 100)
    ∃ config c₀ p bid ask, Config.parse (.object [("mode", .string "fixed")]) = .ok config ∧
      create config = .ok c₀ ∧
      (c₀.run w [.refresh 1, .make, .deliver, .resume]).published = some p ∧
      Denotes Extended.value p.bidSpread bid ∧ Denotes Extended.value p.askSpread ask ∧
      Denotes Extended.value p.optimalSpread (bid + ask) := by
  intro w
  have hexact := Extended.isExactAnalysis
  have hfinite := hexact.finite_preset .fixed
  obtain ⟨hparse, haccepted, c₀, hcreate⟩ := exists_create_preset hexact .fixed
  obtain ⟨y, b, p, hb, -, hgamma, hpublished⟩ :=
    published_steady_fixed hexact haccepted hfinite rfl hcreate
    (failure?_evenBars hexact)
      (quotable_quietMarket hexact (hexact.isPositive_natCast (n := 100) (by decide))) 1
  obtain ⟨before, rest, z, bars, d, market, hsplit, hd, -, hinformed, bid, ask, width, hbid,
      hask, hwidth, -, hiff⟩ :=
    published_width_iff hexact hcreate rfl (hfinite .minSpread rfl)
      (hfinite .orderAmountShapeFactor rfl) w [.refresh 1, .make, .deliver, .resume] hpublished
  -- There is one cycle, and one market.
  obtain ⟨rfl, rfl⟩ := eq_of_single_cycle hsplit
  obtain ⟨rfl, rfl, rfl⟩ := hb.eq hd
  obtain rfl : market = quietMarket 100 := Except.ok.inj hinformed.answer.symm
  obtain ⟨hconfig, hpricing, -, -⟩ := yields_run hcreate hd rfl
  obtain ⟨hplain, -⟩ := plain_quietMarket hexact hconfig hpricing 100
  have hmid : Extended.value 100 = 100 := hexact.value_natCast 100
  rw [hmid] at hplain
  have hkept : width = bid + ask := by
    refine (hiff _ hgamma).mpr (.inl (hplain ▸ ?_))
    have hspread : max (2 * Real.log 2) ((100 : ℝ) * (5 / 10 ^ 5)) ≤ 2 :=
      max_le (by linarith [Real.log_two_lt_d9]) (by norm_num)
    linarith
  exact ⟨_, c₀, p, bid, ask, hparse, hcreate, hpublished, hbid, hask, hkept ▸ hwidth⟩

/-- A quote for a mid price of a half has its bid replaced, and the total that is published is that
of before. -/
theorem published_width_ne_sides_low :
    let w : Surroundings Extended := steady evenBars (quietMarket 0.5)
    ∃ config c₀ p bid ask width, Config.parse (.object [("mode", .string "fixed")]) = .ok config ∧
      create config = .ok c₀ ∧
      (c₀.run w [.refresh 1, .make, .deliver, .resume]).published = some p ∧
      Denotes Extended.value p.bidSpread bid ∧ Denotes Extended.value p.askSpread ask ∧
      Denotes Extended.value p.optimalSpread width ∧ width ≠ bid + ask := by
  intro w
  have hexact := Extended.isExactAnalysis
  have hfinite := hexact.finite_preset .fixed
  have hmid : Denotes Extended.value (0.5 : Extended) (1 / 2) := by
    have hdecimal : Denotes Extended.value (0.5 : Extended) ((5 : ℕ) / 10 ^ 1) := hexact.decimal 5 1
    norm_num at hdecimal
    exact hdecimal
  obtain ⟨hparse, haccepted, c₀, hcreate⟩ := exists_create_preset hexact .fixed
  obtain ⟨y, b, p, hb, hok, hgamma, hpublished⟩ :=
    published_steady_fixed hexact haccepted hfinite rfl hcreate
    (failure?_evenBars hexact) (quotable_quietMarket hexact (hexact.isPositive_iff.mpr ⟨_,
      hmid, by norm_num⟩)) 1
  obtain ⟨hconfig, hpricing, -, hyields⟩ := yields_run hcreate hb rfl
  rw [hok] at hyields
  obtain ⟨market, hinformed, bid, ask, width, hbid, hask, hwidth, -, hiff⟩ :=
    hyields.width_iff hexact
    (hpricing ▸ sound_tuning hcreate (hfinite .minSpread rfl) (hfinite .orderAmountShapeFactor rfl))
  obtain rfl : market = quietMarket 0.5 := Except.ok.inj hinformed.answer.symm
  obtain ⟨hplainBid, hplainAsk⟩ := plain_quietMarket hexact hconfig hpricing 0.5
  refine ⟨_, c₀, p, bid, ask, width, hparse, hcreate, hpublished, hbid, hask, hwidth, ?_⟩
  rw [hmid.value_eq] at hplainBid hplainAsk
  -- The plain bid is below zero, and the plain ask is not.
  have hspread : 2 * Real.log 2 ≤ max (2 * Real.log 2) (1 / 2 * (5 / 10 ^ 5)) := le_max_left _ _
  have hlog := Real.log_two_gt_d9
  refine mt (hiff _ hgamma).mp ?_
  rintro (hbid | ⟨hask, -⟩)
  · rw [hplainBid] at hbid
    linarith
  · rw [hplainAsk] at hask
    linarith

end MarketMaker.Refresh.Controller
