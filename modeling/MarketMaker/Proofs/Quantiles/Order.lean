import MarketMaker.Proofs.Quantiles.Reflection
import MarketMaker.Proofs.Quantiles.Slopes

/-!
# The quantile rises with the probability

Over the reals, the quantile is strictly increasing on the whole unit interval. On either side of a
seam a different approximation is taken, and there the two disagree; but they disagree the right way
round: at the lower seam, the tail ends some `4e-9` **below** the point where the centre begins.

So much room is enough to compare them by numbers. Eleven terms of the logarithm series bound the
distance at the seam from below by `seamDistance`, and at that rational distance the tail is already
below the centre.

The upper tail is the lower one mirrored, so nothing is left to show about it.
-/

namespace MarketMaker.Quantile

open Scalar

/-! ## Distances in the tail -/

theorem tailDistance_lt_tailDistance {p₁ p₂ : ℝ} (hpos : 0 < p₁) (hlt : p₁ < p₂) (hone : p₂ ≤ 1) :
    tailDistance p₂ < tailDistance p₁ := by
  have hln := Real.log_lt_log hpos hlt
  have hnonpos := Real.log_nonpos (hpos.trans hlt).le hone
  simp only [tailDistance, Reals.sqrt_eq, Reals.ln_eq]
  refine Real.sqrt_lt_sqrt ?_ ?_
  · norm_num
    linarith
  · norm_num
    linarith

/-- A rational distance just short of the seam. -/
noncomputable def seamDistance : ℝ := 2.727393868

theorem two_le_seamDistance : 2 ≤ seamDistance := by
  norm_num [seamDistance]

theorem log_lowerSeam_le : Real.log lowerSeam ≤ -(seamDistance * seamDistance) / 2 := by
  have hsplit : (lowerSeam : ℝ) = (1 - 0.224) / 2 ^ 5 := by
    rw [lowerSeam_eq]
    norm_num
  have hseries : ∑ n ∈ Finset.range 11, (0.224 : ℝ) ^ (n + 1) / (n + 1) ≤
      -Real.log (1 - 0.224) := by
    refine sum_le_hasSum _ (fun n _ => ?_) (Real.hasSum_pow_div_log_of_abs_lt_one ?_)
    · norm_num
      positivity
    · rw [abs_lt]
      norm_num
  have htwo := Real.log_two_gt_d9
  rw [hsplit, Real.log_div (by norm_num) (by norm_num), Real.log_pow]
  norm_num [Finset.sum_range_succ, seamDistance] at *
  linarith

theorem seamDistance_le {p : ℝ} (hpos : 0 < p) (hlow : p ≤ lowerSeam) :
    seamDistance ≤ tailDistance p := by
  have hln := (Real.log_le_log hpos hlow).trans log_lowerSeam_le
  refine Real.le_sqrt_of_sq_le ?_
  simp only [Reals.ln_eq]
  norm_num
  linarith

/-! ## The seams -/

theorem lowerSeam_pos : (0 : ℝ) < lowerSeam := by
  rw [lowerSeam_eq]
  norm_num

theorem lowerSeam_lt_upperSeam : (lowerSeam : ℝ) < upperSeam := @seams_lt ℝ _ _ Reals.functions _

theorem upperSeam_lt_one : (upperSeam : ℝ) < 1 := by
  rw [upperSeam, Reals.one_eq]
  linarith [lowerSeam_pos]

theorem lowerTail_seamDistance_lt : lowerTail seamDistance < central (lowerSeam - 1 / 2) := by
  simp only [seamDistance, lowerTail, central, lowerSeam_eq, horner, tailNumerator, tailDenominator,
    centralNumerator, centralDenominator, List.foldl_cons, List.foldl_nil, Reals.decimal_eq,
    Reals.one_eq]
  norm_num

/-- **At the lower seam.** The whole tail lies below the centre. -/
theorem lowerTail_lt {p : ℝ} (hpos : 0 < p) (hlow : p ≤ lowerSeam) :
    lowerTail (tailDistance p) < central (lowerSeam - 1 / 2) := by
  have hdistance := seamDistance_le hpos hlow
  calc lowerTail (tailDistance p)
      ≤ lowerTail seamDistance :=
        strictAntiOn_lowerTail.antitoneOn two_le_seamDistance
          (two_le_seamDistance.trans hdistance) hdistance
    _ < central (lowerSeam - 1 / 2) := lowerTail_seamDistance_lt

/-! ## The three pieces -/

theorem normalQuantile_of_lt {p : ℝ} (hlow : p < lowerSeam) :
    normalQuantile p = lowerTail (tailDistance p) := by
  rw [normalQuantile, if_pos hlow]

theorem normalQuantile_of_mem {p : ℝ} (hp : p ∈ Set.Icc lowerSeam upperSeam) :
    normalQuantile p = central (p - 1 / 2) := by
  rw [normalQuantile, if_neg hp.1.not_gt, if_pos hp.2]
  norm_num

/-- The upper half is the lower one mirrored. -/
theorem normalQuantile_eq_neg (p : ℝ) : normalQuantile p = -normalQuantile (1 - p) := by
  have hmirrored := @normalQuantile_one_sub ℝ _ _ Reals.functions _ p
  exact (neg_eq_iff_eq_neg.mpr hmirrored).symm

/-- The seam itself belongs to the centre, so the step across it is part of this piece. -/
theorem strictMonoOn_low : StrictMonoOn (normalQuantile : ℝ → ℝ) (Set.Ioc 0 lowerSeam) := by
  intro p₁ h₁ p₂ h₂ hlt
  have hlow : p₁ < lowerSeam := hlt.trans_le h₂.2
  rw [normalQuantile_of_lt hlow]
  rcases h₂.2.eq_or_lt with rfl | hlow₂
  · rw [normalQuantile_of_mem ⟨le_rfl, lowerSeam_lt_upperSeam.le⟩]
    exact lowerTail_lt h₁.1 hlow.le
  · have hfar {p : ℝ} (hp : p ∈ Set.Ioc 0 lowerSeam) : 2 ≤ tailDistance p :=
      two_le_seamDistance.trans (seamDistance_le hp.1 hp.2)
    have hone : p₂ ≤ 1 := (hlow₂.trans (lowerSeam_lt_upperSeam.trans upperSeam_lt_one)).le
    rw [normalQuantile_of_lt hlow₂]
    exact strictAntiOn_lowerTail (hfar h₂) (hfar h₁) (tailDistance_lt_tailDistance h₁.1 hlt hone)

theorem strictMonoOn_mid : StrictMonoOn (normalQuantile : ℝ → ℝ) (Set.Icc lowerSeam upperSeam) := by
  have hmiddle {p : ℝ} (hp : p ∈ Set.Icc lowerSeam upperSeam) : p - 1 / 2 ∈ middle := by
    obtain ⟨hlower, hupper⟩ := hp
    rw [upperSeam, Reals.one_eq] at hupper
    refine ⟨sub_le_sub_right hlower _, ?_⟩
    norm_num at *
    linarith
  intro p₁ h₁ p₂ h₂ hlt
  rw [normalQuantile_of_mem h₁, normalQuantile_of_mem h₂]
  exact strictMonoOn_central (hmiddle h₁) (hmiddle h₂) (sub_lt_sub_right hlt _)

theorem strictMonoOn_high : StrictMonoOn (normalQuantile : ℝ → ℝ) (Set.Ico upperSeam 1) := by
  have hmirror {p : ℝ} (hp : p ∈ Set.Ico upperSeam 1) : 1 - p ∈ Set.Ioc 0 lowerSeam := by
    obtain ⟨hlower, hupper⟩ := hp
    rw [upperSeam, Reals.one_eq] at hlower
    exact ⟨by linarith, by linarith⟩
  intro p₁ h₁ p₂ h₂ hlt
  rw [normalQuantile_eq_neg p₁, normalQuantile_eq_neg p₂]
  exact neg_lt_neg (strictMonoOn_low (hmirror h₂) (hmirror h₁) (sub_lt_sub_left hlt 1))

/-! ## The whole interval -/

theorem strictMonoOn_normalQuantile : StrictMonoOn (normalQuantile : ℝ → ℝ) (Set.Ioo 0 1) := by
  have hseams := lowerSeam_lt_upperSeam.le
  have hone := lowerSeam_lt_upperSeam.trans upperSeam_lt_one
  have hrest : StrictMonoOn (normalQuantile : ℝ → ℝ) (Set.Ico lowerSeam 1) := by
    rw [← Set.Icc_union_Ico_eq_Ico hseams upperSeam_lt_one]
    exact strictMonoOn_mid.union strictMonoOn_high (isGreatest_Icc hseams)
      (isLeast_Ico upperSeam_lt_one)
  rw [← Set.Ioc_union_Ico_eq_Ioo lowerSeam_pos hone]
  exact strictMonoOn_low.union hrest (isGreatest_Ioc lowerSeam_pos) (isLeast_Ico hone)

theorem normalQuantile_half : normalQuantile (1 / 2 : ℝ) = 0 := by
  rw [normalQuantile_of_mem]
  · simp [central]
  · rw [Set.mem_Icc, upperSeam, lowerSeam_eq, Reals.one_eq]
    norm_num

/-- The probabilities up to one half. -/
def lowerHalf : Set ℝ := Set.Ioc 0 (1 / 2)

theorem mem_Ioo_of_mem_lowerHalf {p : ℝ} (hp : p ∈ lowerHalf) : p ∈ Set.Ioo 0 1 := by
  refine ⟨hp.1, hp.2.trans_lt ?_⟩
  norm_num

theorem zScore_of_mem_lowerHalf {p : ℝ} (hp : p ∈ lowerHalf) : zScore p = -normalQuantile p := by
  have hhalf : 1 / 2 ∈ lowerHalf := ⟨by norm_num, le_rfl⟩
  have hle : normalQuantile p ≤ normalQuantile (1 / 2) :=
    strictMonoOn_normalQuantile.monotoneOn (mem_Ioo_of_mem_lowerHalf hp)
      (mem_Ioo_of_mem_lowerHalf hhalf) hp.2
  rw [normalQuantile_half] at hle
  rw [zScore, Reals.abs_eq, abs_of_nonpos hle]

theorem strictAntiOn_zScore : StrictAntiOn (zScore : ℝ → ℝ) lowerHalf := by
  intro p₁ h₁ p₂ h₂ hlt
  rw [zScore_of_mem_lowerHalf h₁, zScore_of_mem_lowerHalf h₂]
  exact neg_lt_neg
    (strictMonoOn_normalQuantile (mem_Ioo_of_mem_lowerHalf h₁) (mem_Ioo_of_mem_lowerHalf h₂) hlt)

end MarketMaker.Quantile

namespace MarketMaker.Sizing

open Scalar Quantile

theorem stopLossSpread_of_mem_lowerHalf {risk : ℝ} (hrisk : risk ∈ lowerHalf)
    (volatility holding : ℝ) :
    stopLossSpread volatility holding risk = .ok (stopLossDistance volatility holding risk) := by
  obtain ⟨hpos, hone⟩ := mem_Ioo_of_mem_lowerHalf hrisk
  have hcheck : isProbability risk = true := by
    rw [isProbability, Bool.and_eq_true_iff, decide_eq_true_iff, decide_eq_true_iff,
      Reals.zero_eq, Reals.one_eq]
    exact ⟨hpos, hone⟩
  rw [stopLossSpread, checkProbability, if_pos hcheck]
  rfl

theorem stopLossDistance_le {volatility holding risk risk' : ℝ} (hvolatility : 0 ≤ volatility)
    (hrisk : risk ∈ lowerHalf) (hrisk' : risk' ∈ lowerHalf) (hle : risk ≤ risk') :
    stopLossDistance volatility holding risk' ≤ stopLossDistance volatility holding risk := by
  have hzScore := strictAntiOn_zScore.antitoneOn hrisk hrisk' hle
  exact mul_le_mul_of_nonneg_left hzScore (mul_nonneg hvolatility (Real.sqrt_nonneg holding))

/-- **The quantile rises.** Of two probabilities, on whatever side of the seams, the greater one has
the greater quantile. Up to one half the distance from the mean thus falls, and a smaller risk never
brings the stop-loss closer. -/
theorem quantile_rises :
    (∀ p₁ p₂ : ℝ, 0 < p₁ → p₁ < p₂ → p₂ < 1 → normalQuantile p₁ < normalQuantile p₂) ∧
      (∀ p₁ p₂ : ℝ, 0 < p₁ → p₁ < p₂ → p₂ ≤ 1 / 2 → zScore p₂ < zScore p₁) ∧
      ∀ volatility holding risk risk' : ℝ, 0 ≤ volatility → 0 ≤ holding → 0 < risk →
        risk ≤ risk' → risk' ≤ 1 / 2 →
        ∃ near far, stopLossSpread volatility holding risk' = .ok near ∧
          stopLossSpread volatility holding risk = .ok far ∧ near ≤ far := by
  refine ⟨?_, ?_, ?_⟩
  · intro p₁ p₂ hpos hlt hone
    exact strictMonoOn_normalQuantile ⟨hpos, hlt.trans hone⟩ ⟨hpos.trans hlt, hone⟩ hlt
  · intro p₁ p₂ hpos hlt hhalf
    exact strictAntiOn_zScore ⟨hpos, hlt.le.trans hhalf⟩ ⟨hpos.trans hlt, hhalf⟩ hlt
  · intro volatility holding risk risk' hvolatility _ hpos hle hhalf
    have hrisk : risk ∈ lowerHalf := ⟨hpos, hle.trans hhalf⟩
    have hrisk' : risk' ∈ lowerHalf := ⟨hpos.trans_le hle, hhalf⟩
    exact ⟨_, _, stopLossSpread_of_mem_lowerHalf hrisk' volatility holding,
      stopLossSpread_of_mem_lowerHalf hrisk volatility holding,
      stopLossDistance_le hvolatility hrisk hrisk' hle⟩

/-- From a hundredth to ninety-nine, over both seams; and a risk that is brought down from one half
to a hundredth. -/
theorem quantile_rises_hundredth : normalQuantile (1 / 100 : ℝ) < normalQuantile (99 / 100) ∧
    zScore (1 / 2 : ℝ) < zScore (1 / 100) ∧ ∃ near far, stopLossSpread 1 1 (1 / 2 : ℝ) = .ok near ∧
      stopLossSpread 1 1 (1 / 100 : ℝ) = .ok far ∧ near ≤ far := by
  obtain ⟨hquantile, hzScore, hstop⟩ := quantile_rises
  refine ⟨hquantile _ _ ?_ ?_ ?_, hzScore _ _ ?_ ?_ le_rfl, hstop _ _ _ _ ?_ ?_ ?_ ?_ le_rfl⟩
  all_goals norm_num

end MarketMaker.Sizing
