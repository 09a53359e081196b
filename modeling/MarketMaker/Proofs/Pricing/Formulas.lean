import MarketMaker.Proofs.Reals
import MarketMaker.Pricing

/-!
# The quote, figure by figure

What `quoteOf` computes over the reals, each figure by its own equation:

* the spread is what the model asks for or the floor, whichever is **greater**;
* the **plain** bid and ask are the reservation price less and plus their shares of the spread;
* each quoted price is its plain price, unless that one is not positive.
-/

namespace MarketMaker.Pricing

open Scalar

/-! ## What validation admits -/

/-- Accepted tunings have a floor that is not negative and a positive shape factor. -/
theorem Config.accept_eq_ok_iff {c : Config ℝ} :
    c.accept = .ok c ↔ 0 ≤ c.minSpread ∧ 0 < c.shapeFactor := by
  unfold Config.accept Config.fault?
  rw [Reals.zero_eq]
  split_ifs with hfloor hshape
  all_goals simp_all

/-- The figures of an input that passes every check. -/
structure Input.Valid (i : Input ℝ) : Prop where
  /-- The risk aversion is above zero. -/
  gamma_pos : 0 < i.gamma
  /-- The depth of the book is above zero. -/
  kappa_pos : 0 < i.market.kappa
  /-- The mid price is above zero. -/
  midPrice_pos : 0 < i.market.midPrice
  /-- The volatility is not negative. -/
  volatility_nonneg : 0 ≤ i.volatility
  /-- The horizon is not negative. -/
  horizon_nonneg : 0 ≤ i.horizonSeconds

theorem fault?_eq_none_iff {i : Input ℝ} : fault? i = none ↔ i.Valid := by
  constructor
  · intro h
    unfold fault? at h
    split_ifs at h
    constructor <;> simp_all
  · intro h
    simp [fault?, Reals.isPositive_iff.mpr h.gamma_pos, Reals.isPositive_iff.mpr h.kappa_pos,
      Reals.isPositive_iff.mpr h.midPrice_pos, Reals.isNonNegative_iff.mpr h.volatility_nonneg,
      Reals.isNonNegative_iff.mpr h.horizon_nonneg]

/-! ## The spread -/

/-- The horizon of an input in days. -/
noncomputable def Input.horizonDays (i : Input ℝ) : ℝ := i.horizonSeconds / secondsPerDay

/-- The spread that the model asks for. -/
noncomputable def Input.modelSpread (i : Input ℝ) : ℝ :=
  optimalSpread i.gamma i.volatility i.horizonDays i.market.kappa

theorem Input.Valid.horizonDays_nonneg {i : Input ℝ} (h : i.Valid) : 0 ≤ i.horizonDays :=
  div_nonneg h.horizon_nonneg (Nat.cast_nonneg _)

theorem optimalSpread_eq (gamma volatility horizonDays kappa : ℝ) :
    optimalSpread gamma volatility horizonDays kappa =
      gamma * (volatility * volatility) * horizonDays +
        2 / gamma * Real.log (1 + gamma / kappa) := by
  simp [optimalSpread]

/-- The model asks for a positive spread, because the logarithm is one of more than one. -/
theorem optimalSpread_pos {gamma volatility horizonDays kappa : ℝ} (hgamma : 0 < gamma)
    (hkappa : 0 < kappa) (hdays : 0 ≤ horizonDays) :
    0 < optimalSpread gamma volatility horizonDays kappa := by
  rw [optimalSpread_eq]
  have hlog : 0 < Real.log (1 + gamma / kappa) :=
    Real.log_pos (lt_add_of_pos_right 1 (div_pos hgamma hkappa))
  have hdiffusion : 0 ≤ gamma * (volatility * volatility) * horizonDays :=
    mul_nonneg (mul_nonneg hgamma.le (mul_self_nonneg volatility)) hdays
  have hdepth : 0 < 2 / gamma * Real.log (1 + gamma / kappa) :=
    mul_pos (div_pos two_pos hgamma) hlog
  exact add_pos_of_nonneg_of_pos hdiffusion hdepth

theorem Input.Valid.modelSpread_pos {i : Input ℝ} (h : i.Valid) : 0 < i.modelSpread :=
  optimalSpread_pos h.gamma_pos h.kappa_pos h.horizonDays_nonneg

/-- The floor wins where the model asks for less. -/
theorem quoteOf_optimalSpread (c : Config ℝ) (i : Input ℝ) :
    (quoteOf c i).optimalSpread = max i.modelSpread (i.market.midPrice * c.minSpread) := by
  unfold quoteOf floorClamp?
  by_cases hbelow : i.modelSpread < i.market.midPrice * c.minSpread
  · rw [max_eq_right hbelow.le]
    unfold Input.modelSpread Input.horizonDays at hbelow
    simp only [if_pos hbelow]
  · rw [max_eq_left (not_lt.mp hbelow)]
    unfold Input.modelSpread Input.horizonDays at hbelow ⊢
    simp only [if_neg hbelow]

theorem quoteOf_reservationPrice (c : Config ℝ) (i : Input ℝ) :
    (quoteOf c i).reservationPrice = reservationPrice i.market.midPrice i.market.inventory i.gamma
      i.volatility i.horizonDays := rfl

/-! ## The prices -/

/-- The bid before it is looked at: the reservation price less the bid's share of the spread. -/
noncomputable def plainBid (c : Config ℝ) (i : Input ℝ) : ℝ :=
  (quoteOf c i).reservationPrice - (quoteOf c i).optimalSpread *
    (c.shapeFactor / (1 + c.shapeFactor))

/-- The ask before it is looked at: the reservation price plus the ask's share of the spread. -/
noncomputable def plainAsk (c : Config ℝ) (i : Input ℝ) : ℝ :=
  (quoteOf c i).reservationPrice + (quoteOf c i).optimalSpread * (1 / (1 + c.shapeFactor))

/-- The two shares make up the whole spread. -/
theorem plainAsk_sub_plainBid {c : Config ℝ} (hshape : 0 < c.shapeFactor) (i : Input ℝ) :
    plainAsk c i - plainBid c i = (quoteOf c i).optimalSpread := by
  have hne : 1 + c.shapeFactor ≠ 0 := by positivity
  unfold plainAsk plainBid
  field_simp
  ring

theorem quoteOf_bidPrice (c : Config ℝ) (i : Input ℝ) :
    (quoteOf c i).bidPrice =
      if plainBid c i ≤ 0 then i.market.midPrice * (999 / 1000) else plainBid c i := by
  have hplain : plainBid c i =
      (quoteOf c i).reservationPrice - (quoteOf c i).optimalSpread *
        (c.shapeFactor / (1 + c.shapeFactor)) :=
    rfl
  simp only [quoteOf, Reals.zero_eq, Reals.one_eq, Reals.decimal_eq] at hplain ⊢
  rw [← hplain]
  norm_num

theorem quoteOf_askPrice (c : Config ℝ) (i : Input ℝ) :
    (quoteOf c i).askPrice =
      if plainAsk c i ≤ 0 then i.market.midPrice * (1001 / 1000) else plainAsk c i := by
  have hplain : plainAsk c i =
      (quoteOf c i).reservationPrice + (quoteOf c i).optimalSpread * (1 / (1 + c.shapeFactor)) :=
    rfl
  simp only [quoteOf, Reals.zero_eq, Reals.one_eq, Reals.decimal_eq] at hplain ⊢
  rw [← hplain]
  norm_num

theorem compute_eq_ok {c : Config ℝ} {i : Input ℝ} (h : fault? i = none) :
    compute c i = .ok (quoteOf c i) := by
  simp [compute, h]

end MarketMaker.Pricing
