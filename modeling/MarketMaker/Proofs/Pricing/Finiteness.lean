import MarketMaker.Proofs.Pricing.Denotation
import MarketMaker.Proofs.Quantiles

/-!
# Finite figures come to finite spreads

In an exact analysis nothing overflows. A series of at least two bars with positive close prices has
a finite volatility; the spreads that are sized from figures that pass every check are finite, and
so is every figure of a quote.
-/

namespace MarketMaker

open Scalar

variable {α : Type} [Scalar α] {value : α → ℝ} (hexact : IsExactAnalysis value)

/-! ## Statistics -/

namespace Stats

variable {values : List α} {centre : α}

include hexact

theorem isFinite_sum (h : ∀ x ∈ values, isFinite x = true) : isFinite (sum values) = true :=
  List.foldlRecOn (motive := fun acc => isFinite acc = true) values (· + ·) hexact.zero.finite
    fun _ hacc x hx => hexact.isFinite_add hacc (h x hx)

theorem isFinite_mean (h : ∀ x ∈ values, isFinite x = true) : isFinite (mean values) = true := by
  cases values with
  | nil => exact hexact.zero.finite
  | cons x rest =>
    have hcount : value (((x :: rest).length : ℕ) : α) ≠ 0 := by
      rw [hexact.value_natCast]
      exact Nat.cast_ne_zero.mpr (Nat.succ_ne_zero _)
    exact hexact.isFinite_div (isFinite_sum hexact h) (hexact.isFinite_natCast _) hcount

theorem isNonNegative_sumSquares (hcentre : isFinite centre = true)
    (h : ∀ x ∈ values, isFinite x = true) : isNonNegative (sumSquares centre values) = true := by
  have hzero := hexact.isNonNegative_iff.mpr ⟨0, hexact.zero, le_refl 0⟩
  refine List.foldlRecOn (motive := fun acc => isNonNegative acc = true) values _ hzero
    fun acc hacc x hx => ?_
  have hdistance := denotes_value value (hexact.isFinite_sub (h x hx) hcentre)
  have hsquare :=
    hexact.isNonNegative_iff.mpr ⟨_, hexact.mul hdistance hdistance, mul_self_nonneg _⟩
  exact hexact.isNonNegative_add hacc hsquare

theorem isNonNegative_sampleDeviation [StrictScalar α] (h : ∀ x ∈ values, isFinite x = true) :
    isNonNegative (sampleDeviation values) = true := by
  unfold sampleDeviation
  split
  · exact hexact.isNonNegative_iff.mpr ⟨0, hexact.zero, le_refl 0⟩
  · next hmany =>
    have hsquares := isNonNegative_sumSquares hexact (isFinite_mean hexact h) h
    exact hexact.isNonNegative_sqrt
      (hexact.isNonNegative_div hsquares (hexact.isPositive_natCast (by omega)))

end Stats

/-! ## Volatility -/

namespace Volatility

variable {bars : List (Bar α)} {now : α}

theorem failure?_eq_none_iff [NumberText α] :
    failure? bars = none ↔ 2 ≤ bars.length ∧ ∀ bar ∈ bars, isPositive bar.close = true := by
  simp only [failure?, badBar?]
  split
  · simp; omega
  · next hlong =>
    simp [List.find?_eq_none]
    omega

/-- A series without a fault is measured. -/
theorem estimate_known [NumberText α] (h : failure? bars = none) (i : Interval) :
    estimate bars (.known i) now = .ok (measure bars (.known i) now) := by
  have htext : (Choice.known i : Choice Interval α).value.hasText = true := rfl
  simp [estimate, h, htext]

variable [StrictScalar α]

include hexact

theorem isFinite_logReturns (h : ∀ bar ∈ bars, isPositive bar.close = true) :
    ∀ x ∈ logReturns bars, isFinite x = true := by
  induction bars with
  | nil => simp [logReturns]
  | cons first rest ih =>
    cases rest with
    | nil => simp [logReturns]
    | cons second rest =>
      obtain ⟨r, hr, hrpos⟩ := hexact.isPositive_iff.mp (h first (by simp))
      obtain ⟨s, hs, hspos⟩ := hexact.isPositive_iff.mp (h second (by simp))
      have hreturn := (hexact.ln (hexact.div hs hr hrpos.ne') (div_pos hspos hrpos)).finite
      simp only [logReturns, List.forall_mem_cons]
      exact ⟨hreturn, ih fun bar hbar => h bar (List.mem_cons_of_mem first hbar)⟩

/-- **A series without a fault has a finite volatility.** -/
theorem isNonNegative_measure [NumberText α] (h : failure? bars = none) (i : Interval) :
    isNonNegative (measure bars (.known i) now).value = true := by
  obtain ⟨-, hcloses⟩ := failure?_eq_none_iff.mp h
  have hdeviation := Stats.isNonNegative_sampleDeviation hexact (isFinite_logReturns hexact hcloses)
  have hday : isNonNegative (barsPerDay (.known i) : α) = true :=
    hexact.isNonNegative_iff.mpr ⟨_, hexact.natCast i.periodsPerDay, Nat.cast_nonneg _⟩
  exact hexact.isNonNegative_mul hdeviation (hexact.isNonNegative_sqrt hday)

theorem isPositive_daysPerYear : isPositive (daysPerYear : α) = true :=
  hexact.isPositive_iff.mpr ⟨_, hexact.decimal 36525 2, by norm_num⟩

theorem isNonNegative_annualize {daily : α} (h : isNonNegative daily = true) :
    isNonNegative (annualize daily) = true := by
  refine hexact.isNonNegative_mul h (hexact.isNonNegative_sqrt ?_)
  obtain ⟨r, hr, hpos⟩ := hexact.isPositive_iff.mp (isPositive_daysPerYear hexact)
  exact hexact.isNonNegative_iff.mpr ⟨r, hr, hpos.le⟩

end Volatility

/-! ## Sized spreads -/

namespace Sizing

variable {i : Input α}

/-- Spreads are sized from two probabilities and from figures that are finite and not below zero. -/
theorem fault?_eq_none_iff : fault? i = none ↔
    isProbability i.fillProbability = true ∧ isProbability i.stopLossRiskProbability = true ∧
      isNonNegative i.volatility = true ∧ isNonNegative i.timeToRefresh = true ∧
      isNonNegative i.maxHoldingTime = true ∧ isPositive i.profitFactor = true := by
  simp only [fault?]
  constructor
  · intro h
    split_ifs at h
    simp_all
  · intro h
    simp [h]

variable [StrictScalar α]

include hexact

/-- A part of a time is finite exactly when the time is. -/
theorem isNonNegative_div_iff {time unit : α} (htime : 0 ≤ time) (hunit : isPositive unit = true) :
    isNonNegative (time / unit) = true ↔ isFinite time = true := by
  constructor
  · intro h
    exact hexact.isFinite_of_div (isFinite_of_isPositive hunit) (isFinite_of_isNonNegative h)
  · intro h
    exact hexact.isNonNegative_div ((isNonNegative_iff_isFinite htime).mpr h) hunit

theorem isNonNegative_secondsToYears_iff {seconds : α} (h : 0 ≤ seconds) :
    isNonNegative (secondsToYears seconds) = true ↔ isFinite seconds = true := by
  refine isNonNegative_div_iff hexact h ?_
  obtain ⟨r, hr, hpos⟩ := hexact.isPositive_iff.mp (Volatility.isPositive_daysPerYear hexact)
  have hday := hexact.mul hr (hexact.natCast secondsPerDay)
  exact hexact.isPositive_iff.mpr ⟨_, hday, mul_pos hpos (Nat.cast_pos.mpr (by decide))⟩

theorem isNonNegative_daysToYears_iff {days : α} (h : 0 ≤ days) :
    isNonNegative (daysToYears days) = true ↔ isFinite days = true :=
  isNonNegative_div_iff hexact h (Volatility.isPositive_daysPerYear hexact)

theorem isNonNegative_stopLossDistance {volatility time risk : α}
    (hvolatility : isNonNegative volatility = true) (htime : isNonNegative time = true)
    (hrisk : isProbability risk = true) :
    isNonNegative (stopLossDistance volatility time risk) = true :=
  hexact.isNonNegative_mul (hexact.isNonNegative_mul hvolatility (hexact.isNonNegative_sqrt htime))
    (Quantile.isNonNegative_zScore hexact hrisk)

/-- **Sized spreads are finite** and not below zero. -/
theorem isNonNegative_spreadsOf (h : fault? i = none) :
    isNonNegative (spreadsOf i).bidSpread = true ∧ isNonNegative (spreadsOf i).askSpread = true ∧
      isNonNegative (spreadsOf i).profitTakingLong = true ∧
      isNonNegative (spreadsOf i).profitTakingShort = true ∧
      isNonNegative (spreadsOf i).stopLoss = true := by
  obtain ⟨hfill, hrisk, hvolatility, hrefresh, hholding, hprofit⟩ := fault?_eq_none_iff.mp h
  obtain ⟨r, hr, hpos⟩ := hexact.isPositive_iff.mp hprofit
  have hbase := isNonNegative_stopLossDistance hexact hvolatility hrefresh hfill
  have htaken := hexact.isNonNegative_mul hbase (hexact.isNonNegative_iff.mpr ⟨r, hr, hpos.le⟩)
  exact ⟨hbase, hbase, htaken, htaken,
    isNonNegative_stopLossDistance hexact hvolatility hholding hrisk⟩

end Sizing

/-! ## Quotes -/

namespace Pricing

/-- The figures of a quote that parameters are taken from are finite. -/
structure Quote.Finite (q : Quote α) : Prop where
  /-- The reservation price is finite. -/
  reservationPrice : isFinite q.reservationPrice = true
  /-- The spread is finite. -/
  optimalSpread : isFinite q.optimalSpread = true
  /-- The distance of the bid is finite. -/
  bidSpread : isFinite q.bidSpread = true
  /-- The distance of the ask is finite. -/
  askSpread : isFinite q.askSpread = true

theorem Quote.Denotes.finite {q : Quote α} {r : Quote ℝ} (h : q.Denotes value r) : q.Finite :=
  ⟨h.reservationPrice.finite, h.optimalSpread.finite, h.bidSpread.finite, h.askSpread.finite⟩

end Pricing

end MarketMaker
