import MarketMaker.Proofs.Pricing.Formulas

/-!
# When the spread grows with risk aversion

Of the two terms of the optimal spread, the one for diffusion grows with risk aversion `γ` and the
one for depth shrinks with it. How fast the second one shrinks lies between two fractions,

  `-1 / (κ (κ + γ))  ≤  2 / (γ (κ + γ)) - (2 / γ²) ln (1 + γ / κ)  ≤  -2 / ((κ + γ) (2κ + γ))`,

because the logarithm lies between two fractions itself. Both tend to `-1 / κ²` as the risk aversion
tends to zero. So the spread grows throughout when the variance over the horizon is at least
`1 / κ²`, and for a smaller variance it does not: this regime is the whole of it.

The floor of a quote does not depend on risk aversion, so the spread of a quote grows with that of
the model.
-/

namespace MarketMaker.Pricing

open Scalar

/-! ## The logarithm between two fractions -/

/-- A number is at most its hyperbolic sine, and the logarithm turns that into a fraction. -/
theorem log_le_half_sub_inv {t : ℝ} (ht : 1 ≤ t) : Real.log t ≤ (t - t⁻¹) / 2 := by
  rw [← Real.sinh_log (by positivity)]
  exact Real.self_le_sinh_iff.mpr (Real.log_nonneg ht)

/-- How fast the term for depth changes with risk aversion. -/
noncomputable def depthSlope (gamma kappa : ℝ) : ℝ :=
  2 / (gamma * (kappa + gamma)) - 2 / gamma ^ 2 * Real.log (1 + gamma / kappa)

variable {gamma kappa volatility horizonDays : ℝ}

theorem le_depthSlope (hgamma : 0 < gamma) (hkappa : 0 < kappa) :
    -(1 / (kappa * (kappa + gamma))) ≤ depthSlope gamma kappa := by
  have hlog := log_le_half_sub_inv (t := 1 + gamma / kappa) (by simp; positivity)
  have hscaled : 2 / gamma ^ 2 * Real.log (1 + gamma / kappa) ≤
      2 / gamma ^ 2 * ((1 + gamma / kappa - (1 + gamma / kappa)⁻¹) / 2) :=
    mul_le_mul_of_nonneg_left hlog (by positivity)
  have hfraction : 2 / gamma ^ 2 * ((1 + gamma / kappa - (1 + gamma / kappa)⁻¹) / 2) =
      2 / (gamma * (kappa + gamma)) + 1 / (kappa * (kappa + gamma)) := by
    have hne : kappa + gamma ≠ 0 := by positivity
    field_simp
    ring
  unfold depthSlope
  linarith

theorem depthSlope_le (hgamma : 0 < gamma) (hkappa : 0 < kappa) :
    depthSlope gamma kappa ≤ -(2 / ((kappa + gamma) * (2 * kappa + gamma))) := by
  have hlog := Real.le_log_one_add_of_nonneg (x := gamma / kappa) (by positivity)
  have hscaled : 2 / gamma ^ 2 * (2 * (gamma / kappa) / (gamma / kappa + 2)) ≤
      2 / gamma ^ 2 * Real.log (1 + gamma / kappa) :=
    mul_le_mul_of_nonneg_left hlog (by positivity)
  have hfraction : 2 / gamma ^ 2 * (2 * (gamma / kappa) / (gamma / kappa + 2)) =
      2 / (gamma * (kappa + gamma)) + 2 / ((kappa + gamma) * (2 * kappa + gamma)) := by
    field_simp
    ring
  unfold depthSlope
  linarith

/-! ## The spread along the risk aversion -/

theorem hasDerivAt_optimalSpread (volatility horizonDays : ℝ) (hgamma : 0 < gamma)
    (hkappa : 0 < kappa) :
    HasDerivAt (fun gamma => optimalSpread gamma volatility horizonDays kappa)
      (volatility * volatility * horizonDays + depthSlope gamma kappa) gamma := by
  have hsum : (1 : ℝ) + gamma / kappa ≠ 0 := by positivity
  have hlog := (((hasDerivAt_id' gamma).div_const kappa).const_add 1).log hsum
  have hdepth :=
    ((hasDerivAt_const gamma (2 : ℝ)).fun_div (hasDerivAt_id' gamma) hgamma.ne').fun_mul hlog
  have hdiffusion :=
    ((hasDerivAt_id' gamma).mul_const (volatility * volatility)).mul_const horizonDays
  simp only [optimalSpread_eq]
  refine (hdiffusion.add hdepth).congr_deriv ?_
  unfold depthSlope
  field_simp
  ring

theorem monotoneOn_optimalSpread (hkappa : 0 < kappa)
    (hregime : 1 / kappa ^ 2 ≤ volatility ^ 2 * horizonDays) :
    MonotoneOn (fun gamma => optimalSpread gamma volatility horizonDays kappa) (Set.Ioi 0) := by
  have hslope {gamma : ℝ} (hgamma : gamma ∈ Set.Ioi 0) :=
    hasDerivAt_optimalSpread volatility horizonDays (Set.mem_Ioi.mp hgamma) hkappa
  refine monotoneOn_of_hasDerivWithinAt_nonneg (convex_Ioi 0)
    (fun gamma hgamma => (hslope hgamma).continuousAt.continuousWithinAt)
    (fun gamma hgamma => (hslope (interior_subset hgamma)).hasDerivWithinAt) fun gamma hgamma => ?_
  have hpos : 0 < gamma := Set.mem_Ioi.mp (interior_subset hgamma)
  have hdepth := le_depthSlope hpos hkappa
  have hshrinks : 1 / (kappa * (kappa + gamma)) ≤ 1 / kappa ^ 2 := by
    refine one_div_le_one_div_of_le (by positivity) ?_
    nlinarith
  linarith

/-- What the spread does near zero takes the regime to be what it is. -/
theorem regime_of_monotoneOn (hkappa : 0 < kappa)
    (hmono :
      MonotoneOn (fun gamma => optimalSpread gamma volatility horizonDays kappa) (Set.Ioi 0)) :
    1 / kappa ^ 2 ≤ volatility ^ 2 * horizonDays := by
  have hbound (gamma : ℝ) (hgamma : gamma ∈ Set.Ioi 0) :
      2 / ((kappa + gamma) * (2 * kappa + gamma)) ≤ volatility ^ 2 * horizonDays := by
    have hpos : 0 < gamma := Set.mem_Ioi.mp hgamma
    have hslope := hmono.derivWithin_nonneg (x := gamma)
    rw [derivWithin_of_isOpen isOpen_Ioi hgamma,
      (hasDerivAt_optimalSpread volatility horizonDays hpos hkappa).deriv] at hslope
    have hdepth := depthSlope_le hpos hkappa
    linarith
  -- The fraction is continuous, and at zero it is the bound of the regime.
  have hlimit : Filter.Tendsto (fun gamma => 2 / ((kappa + gamma) * (2 * kappa + gamma)))
      (nhdsWithin 0 (Set.Ioi 0)) (nhds (2 / ((kappa + 0) * (2 * kappa + 0)))) := by
    refine ContinuousAt.tendsto ?_ |>.mono_left nhdsWithin_le_nhds
    exact continuousAt_const.div (by fun_prop) (by positivity)
  have hle := le_of_tendsto hlimit (Filter.eventually_of_mem self_mem_nhdsWithin hbound)
  have hzero : 2 / ((kappa + 0) * (2 * kappa + 0)) = 1 / kappa ^ 2 := by
    field_simp
    ring
  rwa [hzero] at hle

/-! ## Quotes -/

/-- An input with another risk aversion. -/
def Input.withGamma (i : Input ℝ) (gamma : ℝ) : Input ℝ := { i with gamma }

theorem Input.Valid.withGamma {i : Input ℝ} (h : i.Valid) {gamma : ℝ} (hgamma : 0 < gamma) :
    (i.withGamma gamma).Valid :=
  ⟨hgamma, h.kappa_pos, h.midPrice_pos, h.volatility_nonneg, h.horizon_nonneg⟩

/-- **The regime in which the spread grows with risk aversion.** The spread of the model never
shrinks, at whatever two risk aversions, exactly when the variance over the horizon is at least
`1 / κ²`. In that regime the spread of a quote does not shrink either, after the floor. -/
theorem optimalSpread_grows_iff :
    (∀ volatility horizonDays kappa : ℝ, 0 < kappa →
      ((∀ gamma gamma' : ℝ, 0 < gamma → gamma ≤ gamma' →
          optimalSpread gamma volatility horizonDays kappa ≤
            optimalSpread gamma' volatility horizonDays kappa) ↔
        1 / kappa ^ 2 ≤ volatility ^ 2 * horizonDays)) ∧
    ∀ (c : Config ℝ) (i : Input ℝ) (gamma' : ℝ), fault? i = none → i.gamma ≤ gamma' →
      1 / i.market.kappa ^ 2 ≤ i.volatility ^ 2 * i.horizonDays →
      ∃ q q', compute c i = .ok q ∧ compute c (i.withGamma gamma') = .ok q' ∧
        q.optimalSpread ≤ q'.optimalSpread := by
  constructor
  · intro volatility horizonDays kappa hkappa
    constructor
    · intro hgrows
      refine regime_of_monotoneOn hkappa fun gamma hgamma gamma' _ hle => ?_
      exact hgrows gamma gamma' (Set.mem_Ioi.mp hgamma) hle
    · intro hregime gamma gamma' hgamma hle
      exact monotoneOn_optimalSpread hkappa hregime (Set.mem_Ioi.mpr hgamma)
        (Set.mem_Ioi.mpr (hgamma.trans_le hle)) hle
  · intro c i gamma' hi hle hregime
    have hvalid := fault?_eq_none_iff.mp hi
    have hgamma' : 0 < gamma' := hvalid.gamma_pos.trans_le hle
    have hi' : fault? (i.withGamma gamma') = none :=
      fault?_eq_none_iff.mpr (hvalid.withGamma hgamma')
    refine ⟨quoteOf c i, quoteOf c (i.withGamma gamma'), compute_eq_ok hi, compute_eq_ok hi', ?_⟩
    rw [quoteOf_optimalSpread, quoteOf_optimalSpread]
    -- The floor is the same for both.
    refine max_le_max_right _ ?_
    exact monotoneOn_optimalSpread hvalid.kappa_pos hregime (Set.mem_Ioi.mpr hvalid.gamma_pos)
      (Set.mem_Ioi.mpr hgamma') hle

/-- A deep book, at a volatility of five percent over one day. -/
noncomputable def deepInput : Input ℝ where
  market := { midPrice := 100, inventory := 0, alpha := 1, kappa := 100, timestamp := 0 }
  gamma := 1 / 100
  volatility := 1 / 20
  horizonSeconds := 86400

/-- The deep book is in the regime, and the risk aversion is raised a thousandfold. -/
theorem optimalSpread_grows_iff_deepInput :
    let c : Config ℝ := ⟨1 / 20000, 1⟩
    fault? deepInput = none ∧ (1 : ℝ) / 100 ^ 2 ≤ (1 / 20) ^ 2 * 1 ∧
      optimalSpread (1 / 100 : ℝ) (1 / 20) 1 100 ≤ optimalSpread 10 (1 / 20) 1 100 ∧
      ∃ q q', compute c deepInput = .ok q ∧ compute c (deepInput.withGamma 10) = .ok q' ∧
        q.optimalSpread ≤ q'.optimalSpread := by
  intro c
  have hvalid : deepInput.Valid := by constructor <;> norm_num [deepInput]
  have hfault := fault?_eq_none_iff.mpr hvalid
  have hdays : deepInput.horizonDays = 1 := by
    norm_num [Input.horizonDays, deepInput, secondsPerDay]
  have hregime : (1 : ℝ) / 100 ^ 2 ≤ (1 / 20) ^ 2 * 1 := by norm_num
  obtain ⟨hspreads, hquotes⟩ := optimalSpread_grows_iff
  refine ⟨hfault, hregime,
    (hspreads _ _ _ (by norm_num)).mpr hregime _ _ (by norm_num) (by norm_num), ?_⟩
  refine hquotes c deepInput 10 hfault ?_ ?_
  · norm_num [deepInput]
  · rw [hdays]
    exact hregime

end MarketMaker.Pricing
