import MarketMaker.Proofs.Reals
import MarketMaker.Sizing

/-!
# The quantile of the complement

The quantile of `1 - p` is the opposite of the quantile of `p`. Nothing about roots and logarithms
is needed for that, and so it holds over every ordered field, with whatever functions for them:

* the two tails are taken at the same distance and differ in their sign;
* the centre is odd;
* the seams lie as far from the one end of the unit interval as from the other, and the complement
  exchanges strict and weak comparison with them as it should.

Distances from the mean are therefore the same for `p` and `1 - p`, and so are spreads that are
sized from either.
-/

namespace MarketMaker

open Scalar
open scoped Fields

variable {K : Type} [Field K] [LinearOrder K] [Functions K]

namespace Quantile

/-! ## The pieces -/

theorem upperTail_eq (q : K) : upperTail q = -lowerTail q := neg_div _ _

/-- The centre takes its polynomials at the square of the offset, which has lost the sign. -/
theorem central_neg (q : K) : central (-q) = -central q := by
  have hcentral (q : K) :
      central q = horner centralNumerator (q * q) * q / horner centralDenominator (q * q) := rfl
  rw [hcentral, hcentral, neg_mul_neg, mul_neg, neg_div]

variable [IsStrictOrderedRing K] {p : K}

theorem seams_lt : (lowerSeam : K) < upperSeam := by
  rw [upperSeam, lowerSeam, Fields.one_eq, Fields.decimal_eq]
  norm_num

omit [IsStrictOrderedRing K] in
theorem one_sub_upperSeam : 1 - upperSeam = (lowerSeam : K) := by
  rw [upperSeam, Fields.one_eq, sub_sub_cancel]

theorem half_eq : @OfScientific.ofScientific K instOfScientific 5 true 1 = 1 / 2 := by
  rw [Fields.decimal_eq]
  norm_num

/-! ## The reflection -/

/-- From below the lower seam to above the upper one. -/
theorem normalQuantile_one_sub_of_lt (hp : p < lowerSeam) :
    normalQuantile (1 - p) = -normalQuantile p := by
  have habove : upperSeam < 1 - p := by
    rw [upperSeam, Fields.one_eq]
    exact sub_lt_sub_left hp 1
  have hbelow : ¬ 1 - p < lowerSeam := (seams_lt.trans habove).not_gt
  rw [normalQuantile, if_neg hbelow, if_neg habove.not_ge, normalQuantile, if_pos hp,
    upperTail_eq, Fields.one_eq, sub_sub_cancel]

/-- Between the seams, on the seams included. -/
theorem normalQuantile_one_sub_of_mem (hp : p ∈ Set.Icc lowerSeam upperSeam) :
    normalQuantile (1 - p) = -normalQuantile p := by
  have hlower : lowerSeam ≤ 1 - p := by
    rw [← one_sub_upperSeam]
    exact sub_le_sub_left hp.2 1
  have hupper : 1 - p ≤ upperSeam := by
    rw [upperSeam, Fields.one_eq]
    exact sub_le_sub_left hp.1 1
  have hoffset : 1 - p - 1 / 2 = -(p - 1 / 2) := by ring
  rw [normalQuantile, if_neg hlower.not_gt, if_pos hupper, normalQuantile, if_neg hp.1.not_gt,
    if_pos hp.2, half_eq, hoffset, central_neg]

theorem normalQuantile_one_sub (p : K) : normalQuantile (1 - p) = -normalQuantile p := by
  rcases lt_or_ge p lowerSeam with hlow | hlow
  · exact normalQuantile_one_sub_of_lt hlow
  rcases le_or_gt p upperSeam with hhigh | hhigh
  · exact normalQuantile_one_sub_of_mem ⟨hlow, hhigh⟩
  · -- The complement is below the lower seam, and its own complement is the number itself.
    have hcomplement : 1 - p < lowerSeam := by
      rw [← one_sub_upperSeam]
      exact sub_lt_sub_left hhigh 1
    have hback := normalQuantile_one_sub_of_lt hcomplement
    rw [sub_sub_cancel] at hback
    rw [hback, neg_neg]

theorem zScore_one_sub (p : K) : zScore (1 - p) = zScore p := by
  rw [zScore, normalQuantile_one_sub, zScore, Fields.abs_eq, Fields.abs_eq, abs_neg]

end Quantile

namespace Sizing

variable [IsStrictOrderedRing K] {i : Input K}

omit [IsStrictOrderedRing K] in
theorem isProbability_iff {p : K} : isProbability p = true ↔ 0 < p ∧ p < 1 := by
  rw [isProbability, Bool.and_eq_true, decide_eq_true_iff, decide_eq_true_iff,
    Fields.zero_eq, Fields.one_eq]

/-- The spreads for an order that is filled with the complementary probability. -/
theorem spreadsOf_one_sub (i : Input K) :
    spreadsOf { i with fillProbability := 1 - i.fillProbability } = spreadsOf i := by
  simp only [spreadsOf, Quantile.zScore_one_sub]

/-- Whatever else stands in the way of spreads does so for both probabilities. -/
theorem fault?_one_sub (h : 0 < i.fillProbability ∧ i.fillProbability < 1) :
    fault? { i with fillProbability := 1 - i.fillProbability } = fault? i := by
  have hfill : isProbability i.fillProbability = true := isProbability_iff.mpr h
  have hcomplement : isProbability (1 - i.fillProbability) = true :=
    isProbability_iff.mpr ⟨sub_pos.mpr h.2, sub_lt_self 1 h.1⟩
  simp only [fault?, hfill, hcomplement, Bool.not_true, Bool.false_eq_true, if_false]

/-- **The quantile of the complement is the opposite quantile.** This holds on all of the unit
interval, and even beyond it, over every ordered field and whatever stands for root and logarithm.
Distances from the mean are the same for both, and spreads sized for the one probability are those
sized for the other. -/
theorem quantile_reflects :
    (∀ p : K, Quantile.normalQuantile (1 - p) = -Quantile.normalQuantile p ∧
      Quantile.zScore (1 - p) = Quantile.zScore p) ∧
    ∀ i : Input K, 0 < i.fillProbability → i.fillProbability < 1 →
      compute { i with fillProbability := 1 - i.fillProbability } = compute i ∧
        (fault? i = none → ∃ s, compute i = .ok s ∧
          compute { i with fillProbability := 1 - i.fillProbability } = .ok s) := by
  refine ⟨fun p => ⟨Quantile.normalQuantile_one_sub p, Quantile.zScore_one_sub p⟩,
    fun i hpos hone => ?_⟩
  have hfault := fault?_one_sub ⟨hpos, hone⟩
  have hspreads := spreadsOf_one_sub i
  refine ⟨?_, fun hnone => ⟨spreadsOf i, ?_, ?_⟩⟩
  · rw [compute, hfault, hspreads, compute]
  · rw [compute, hnone]
  · rw [compute, hfault, hnone, hspreads]

/-- Spreads at the seam. -/
noncomputable def seamInput : Input ℝ where
  volatility := 1
  timeToRefresh := 1
  fillProbability := 97 / 4000
  stopLossRiskProbability := 1 / 2
  profitFactor := 1
  maxHoldingTime := 1

/-- Over the reals with their own root and logarithm, and at the seam itself. -/
theorem quantile_reflects_seam : Quantile.lowerSeam = seamInput.fillProbability ∧
    Quantile.normalQuantile (1 - seamInput.fillProbability) =
      -Quantile.normalQuantile seamInput.fillProbability ∧
    Quantile.zScore (1 - seamInput.fillProbability) = Quantile.zScore seamInput.fillProbability ∧
    ∃ s, compute seamInput = .ok s ∧
      compute { seamInput with fillProbability := 1 - seamInput.fillProbability } = .ok s := by
  have hprobability {p : ℝ} (h : 0 < p ∧ p < 1) : isProbability p = true :=
    (@isProbability_iff ℝ _ _ Reals.functions p).mpr h
  have hfill : isProbability (97 / 4000 : ℝ) = true := hprobability (by norm_num)
  have hrisk : isProbability (1 / 2 : ℝ) = true := hprobability (by norm_num)
  have hone : isNonNegative (1 : ℝ) = true := Reals.isNonNegative_iff.mpr zero_le_one
  have hfactor : isPositive (1 : ℝ) = true := Reals.isPositive_iff.mpr one_pos
  have hfault : fault? seamInput = none := by
    simp only [fault?, seamInput, hfill, hrisk, hone, hfactor, Bool.not_true,
      Bool.false_eq_true, if_false]
  obtain ⟨hreflects, hsizes⟩ := @quantile_reflects ℝ _ _ Reals.functions _
  obtain ⟨hquantile, hzScore⟩ := hreflects seamInput.fillProbability
  obtain ⟨-, hspreads⟩ := hsizes seamInput (by norm_num [seamInput]) (by norm_num [seamInput])
  refine ⟨?_, hquantile, hzScore, hspreads hfault⟩
  norm_num [Quantile.lowerSeam, seamInput]

end Sizing

end MarketMaker
