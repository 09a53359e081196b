import MarketMaker.Proofs.Quantiles.Order

/-!
# The quantile of every probability is defined, and has the right sign

Three things could keep a quantile from being a number: a denominator that vanishes, a logarithm of
what is not above zero, and a root of what is below. In the unit interval none of them happens
(`Defined`). So the quantile is the same real number where arithmetic has other values besides the
real numbers, which come up when something has no result.

The quantile rises, and at one half it is zero. This is all that there is to its sign.
-/

namespace MarketMaker.Quantile

open Scalar

variable {p : ℝ}

/-! ## What the formulas divide by -/

/-- Within the squares of the offsets in the middle, the central denominator is positive. -/
theorem centralDenominator_pos_of_le {t : ℝ} (hlower : 0 ≤ t)
    (hupper : t ≤ (1 / 2 - lowerSeam) ^ 2) : 0 < horner centralDenominator t := by
  refine centralDenominator_pos hlower (hupper.trans ?_)
  rw [lowerSeam_eq]
  norm_num

/-- On the way to the quantile of a number, whatever is divided by is positive, and so is whatever
the logarithm is taken of; and nothing is negative that the root is taken of. -/
structure Defined (p : ℝ) : Prop where
  /-- Below the lower seam, the tail is computed from the number. -/
  lower : p < lowerSeam → 0 < p ∧ 0 ≤ -2 * ln p ∧ 0 < horner tailDenominator (tailDistance p)
  /-- Between the seams, only the denominator of the centre is divided by. -/
  middle : lowerSeam ≤ p → p ≤ upperSeam → 0 < horner centralDenominator ((p - 1 / 2) * (p - 1 / 2))
  /-- Above the upper seam, the tail is computed from what is missing to one. -/
  upper : upperSeam < p →
    0 < 1 - p ∧ 0 ≤ -2 * ln (1 - p) ∧ 0 < horner tailDenominator (tailDistance (1 - p))

theorem tail_defined (hpos : 0 < p) (hone : p < 1) :
    0 < p ∧ 0 ≤ -2 * ln p ∧ 0 < horner tailDenominator (tailDistance p) := by
  have hln : ln p ≤ 0 := Real.log_nonpos hpos.le hone.le
  exact ⟨hpos, by linarith, tailDenominator_pos (Real.sqrt_nonneg _)⟩

theorem defined_of_mem (hp : p ∈ Set.Ioo 0 1) : Defined p := by
  refine ⟨fun _ => tail_defined hp.1 hp.2, fun hlower hupper => ?_, fun _ => ?_⟩
  · refine centralDenominator_pos_of_le (mul_self_nonneg _) ?_
    rw [upperSeam, Reals.one_eq] at hupper
    rw [← sq]
    exact sq_le_sq' (by linarith) (by linarith)
  · exact tail_defined (sub_pos.mpr hp.2) (sub_lt_self 1 hp.1)

/-- Where a number without a result would come to something else, the quantile comes to the real
number. -/
theorem normalQuantile_number (hp : p ∈ Set.Ioo 0 1) :
    normalQuantile (Extended.number p) = Extended.number (normalQuantile p : ℝ) := by
  have hdenotes : Denotes Extended.value (normalQuantile (Extended.number p)) (normalQuantile p) :=
    denotes_normalQuantile Extended.isExactAnalysis ⟨Extended.isFinite_number p, rfl⟩ hp.1 hp.2
  obtain ⟨r, hr⟩ := Extended.isFinite_iff.mp hdenotes.finite
  have hvalue := hdenotes.value_eq
  rw [hr] at hvalue ⊢
  exact congrArg (fun r : ℝ => Extended.number r) hvalue

/-! ## The sign -/

theorem half_mem : (1 / 2 : ℝ) ∈ Set.Ioo 0 1 := by
  norm_num

theorem normalQuantile_neg_iff (hp : p ∈ Set.Ioo 0 1) : normalQuantile p < 0 ↔ p < 1 / 2 := by
  rw [← normalQuantile_half]
  exact strictMonoOn_normalQuantile.lt_iff_lt hp half_mem

theorem normalQuantile_pos_iff (hp : p ∈ Set.Ioo 0 1) : 0 < normalQuantile p ↔ 1 / 2 < p := by
  rw [← normalQuantile_half]
  exact strictMonoOn_normalQuantile.lt_iff_lt half_mem hp

theorem normalQuantile_eq_zero_iff (hp : p ∈ Set.Ioo 0 1) : normalQuantile p = 0 ↔ p = 1 / 2 := by
  rw [← normalQuantile_half]
  exact strictMonoOn_normalQuantile.injOn.eq_iff hp half_mem

/-- **The quantile of every probability is defined, and has the right sign.** The central
denominator is positive for the squares of all offsets up to the seam, and the tail denominator at
every distance. So nothing is in the way of the quantile of a number between zero and one. It is
negative below one half, zero at one half, and positive above; and only at one half the distance
from the mean is zero. -/
theorem quantile_signed :
    (∀ t : ℝ, 0 ≤ t → t ≤ (1 / 2 - lowerSeam) ^ 2 → 0 < horner centralDenominator t) ∧
      (∀ q : ℝ, 0 ≤ q → 0 < horner tailDenominator q) ∧
      ∀ p : ℝ, 0 < p → p < 1 →
        Defined p ∧ normalQuantile (Extended.number p) = Extended.number (normalQuantile p : ℝ) ∧
          (normalQuantile p < 0 ↔ p < 1 / 2) ∧ (normalQuantile p = 0 ↔ p = 1 / 2) ∧
          (0 < normalQuantile p ↔ 1 / 2 < p) ∧ (zScore p = 0 ↔ p = 1 / 2) := by
  refine ⟨fun t => centralDenominator_pos_of_le, fun q => tailDenominator_pos,
    fun p hpos hone => ?_⟩
  have hp : p ∈ Set.Ioo 0 1 := ⟨hpos, hone⟩
  refine ⟨defined_of_mem hp, normalQuantile_number hp, normalQuantile_neg_iff hp,
    normalQuantile_eq_zero_iff hp, normalQuantile_pos_iff hp, ?_⟩
  rw [zScore, Reals.abs_eq, abs_eq_zero]
  exact normalQuantile_eq_zero_iff hp

/-- At the far ends: the last offset of the middle, the first distance of the tail, and a
probability in either tail. -/
theorem quantile_signed_ends :
    0 < horner centralDenominator ((1 / 2 - lowerSeam : ℝ) ^ 2) ∧
    0 < horner tailDenominator (0 : ℝ) ∧
      Defined (1 / 100) ∧ normalQuantile (1 / 100 : ℝ) < 0 ∧ 0 < normalQuantile (99 / 100 : ℝ) ∧
      zScore (1 / 100 : ℝ) ≠ 0 := by
  obtain ⟨hcentral, htail, hsigned⟩ := quantile_signed
  obtain ⟨hdefined, -, hneg, -, -, hzero⟩ := hsigned (1 / 100) (by norm_num) (by norm_num)
  obtain ⟨-, -, -, -, hpos, -⟩ := hsigned (99 / 100) (by norm_num) (by norm_num)
  exact ⟨hcentral _ (sq_nonneg _) le_rfl, htail 0 le_rfl, hdefined, hneg.mpr (by norm_num),
    hpos.mpr (by norm_num), hzero.not.mpr (by norm_num)⟩

end MarketMaker.Quantile
