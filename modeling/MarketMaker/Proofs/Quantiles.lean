import MarketMaker.Proofs.Analysis
import MarketMaker.Proofs.Reals
import MarketMaker.Sizing

/-!
# Every probability has a quantile

The approximations of the quantile divide by polynomials. Of these, the one for the tails has
positive coefficients, and the one for the middle has none that is negative in its Bernstein form on
the interval that it is used on; so neither vanishes there. In an exact analysis the quantile of a
probability therefore denotes the same formula over the reals.
-/

namespace MarketMaker.Quantile

open Scalar

/-! ## Denominators over the reals -/

theorem tailDenominator_pos {q : ℝ} (hq : 0 ≤ q) : 0 < horner tailDenominator q := by
  simp only [horner, tailDenominator, List.foldl_cons, List.foldl_nil, Reals.decimal_eq,
    Reals.one_eq]
  positivity

/-- The Bernstein form on the interval from zero to `0.23`, less what all of its coefficients have
in common. -/
theorem centralDenominator_eq (t : ℝ) : horner centralDenominator t = 3 * (23 / 100) ^ 5 +
    (9980690971 / 6436343 * (23 / 100 - t) ^ 5 + 4839471820840711 / 1609085750000 * t *
      (23 / 100 - t) ^ 4 +
      324063335301377697 / 160908575000000 * t ^ 2 * (23 / 100 - t) ^ 3 +
      1801645683217928509 / 3218171500000000 * t ^ 3 * (23 / 100 - t) ^ 2 +
      36891099237686874569 / 643634300000000000 * t ^ 4 * (23 / 100 - t) +
      16493423300888333871 / 321817150000000000000 * t ^ 5) := by
  simp only [horner, centralDenominator, List.foldl_cons, List.foldl_nil, Reals.decimal_eq,
    Reals.one_eq]
  ring

theorem centralDenominator_pos {t : ℝ} (hlower : 0 ≤ t) (hupper : t ≤ 23 / 100) :
    0 < horner centralDenominator t := by
  obtain ⟨rest, hrest⟩ : ∃ rest, 23 / 100 - t = rest := ⟨_, rfl⟩
  have hnonneg : 0 ≤ rest := hrest ▸ sub_nonneg.mpr hupper
  rw [centralDenominator_eq, hrest]
  positivity

theorem lowerSeam_eq : (lowerSeam : ℝ) = 2425 / 10 ^ 5 := by
  simp [lowerSeam]

/-! ## Quantiles of an exact analysis -/

variable {α : Type} [Scalar α] {value : α → ℝ} (hexact : IsExactAnalysis value) {x p : α} {r : ℝ}

include hexact

theorem denotes_foldl (hx : Denotes value x r) {cs : List α} {rs : List ℝ}
    (hcs : List.Forall₂ (Denotes value) cs rs) {c : α} {a : ℝ} (hc : Denotes value c a) :
    Denotes value (cs.foldl (fun acc k => acc * x + k) c)
      (rs.foldl (fun acc k => acc * r + k) a) := by
  induction hcs generalizing c a with
  | nil => exact hc
  | cons hk _ ih => exact ih (hexact.add (hexact.mul hc hx) hk)

theorem denotes_horner (hx : Denotes value x r) {cs : List α} {rs : List ℝ}
    (hcs : List.Forall₂ (Denotes value) cs rs) : Denotes value (horner cs x) (horner rs r) := by
  cases hcs with
  | nil => exact hexact.natCast 0
  | cons hc hrest => exact denotes_foldl hexact hx hrest hc

theorem denotes_tailNumerator [StrictScalar α] :
    List.Forall₂ (Denotes value) (tailNumerator : List α) (tailNumerator : List ℝ) := by
  simp only [tailNumerator, List.forall₂_cons, List.forall₂_nil_left_iff, and_true]
  have hdecimal (digits exponent : ℕ) := hexact.decimal digits exponent
  have hopposite (digits exponent : ℕ) := hexact.neg (hdecimal digits exponent)
  exact ⟨hopposite _ _, hopposite _ _, hopposite _ _, hopposite _ _, hdecimal _ _, hdecimal _ _⟩

theorem denotes_tailDenominator :
    List.Forall₂ (Denotes value) (tailDenominator : List α) (tailDenominator : List ℝ) := by
  simp only [tailDenominator, List.forall₂_cons, List.forall₂_nil_left_iff, and_true]
  have hdecimal (digits exponent : ℕ) := hexact.decimal digits exponent
  exact ⟨hdecimal _ _, hdecimal _ _, hdecimal _ _, hdecimal _ _, hexact.natCast 1⟩

theorem denotes_centralNumerator [StrictScalar α] :
    List.Forall₂ (Denotes value) (centralNumerator : List α) (centralNumerator : List ℝ) := by
  simp only [centralNumerator, List.forall₂_cons, List.forall₂_nil_left_iff, and_true]
  have hdecimal (digits exponent : ℕ) := hexact.decimal digits exponent
  have hopposite (digits exponent : ℕ) := hexact.neg (hdecimal digits exponent)
  exact ⟨hopposite _ _, hdecimal _ _, hopposite _ _, hdecimal _ _, hopposite _ _, hdecimal _ _⟩

theorem denotes_centralDenominator [StrictScalar α] :
    List.Forall₂ (Denotes value) (centralDenominator : List α) (centralDenominator : List ℝ) := by
  simp only [centralDenominator, List.forall₂_cons, List.forall₂_nil_left_iff, and_true]
  have hdecimal (digits exponent : ℕ) := hexact.decimal digits exponent
  have hopposite (digits exponent : ℕ) := hexact.neg (hdecimal digits exponent)
  exact ⟨hopposite _ _, hdecimal _ _, hopposite _ _, hdecimal _ _, hopposite _ _, hexact.natCast 1⟩

variable [StrictScalar α]

/-- A tail is measured from a probability, whose logarithm is not above zero. -/
theorem denotes_tailDistance (hp : Denotes value p r) (hpos : 0 < r) (hone : r ≤ 1) :
    Denotes value (tailDistance p) (tailDistance r) ∧ 0 ≤ tailDistance r := by
  have hln := Real.log_nonpos hpos.le hone
  have htwice : 0 ≤ -((2 : ℕ) : ℝ) * Real.log r := mul_nonneg_of_nonpos_of_nonpos (by norm_num) hln
  refine ⟨hexact.sqrt (hexact.mul (hexact.neg (hexact.natCast 2)) (hexact.ln hp hpos)) htwice, ?_⟩
  exact Real.sqrt_nonneg _

/-- The quantile of a probability denotes the quantile over the reals. -/
theorem denotes_normalQuantile (hp : Denotes value p r) (hpos : 0 < r) (hone : r < 1) :
    Denotes value (normalQuantile p) (normalQuantile r) := by
  have hseam : Denotes value (lowerSeam : α) (lowerSeam : ℝ) := hexact.decimal _ _
  have hupper : Denotes value (upperSeam : α) (upperSeam : ℝ) := hexact.sub (hexact.natCast 1) hseam
  unfold normalQuantile
  by_cases hlow : r < lowerSeam
  · obtain ⟨hq, hnonneg⟩ := denotes_tailDistance hexact hp hpos hone.le
    rw [if_pos hlow, if_pos ((hexact.lt_iff_lt hp hseam).mpr hlow)]
    exact hexact.div (denotes_horner hexact hq (denotes_tailNumerator hexact))
      (denotes_horner hexact hq (denotes_tailDenominator hexact)) (tailDenominator_pos hnonneg).ne'
  · rw [if_neg hlow, if_neg (mt (hexact.lt_iff_lt hp hseam).mp hlow)]
    by_cases hmiddle : r ≤ upperSeam
    · have hq := hexact.sub hp (hexact.decimal 5 1)
      have hsquare := hexact.mul hq hq
      have hwithin : (r - (5 : ℕ) / 10 ^ 1) * (r - (5 : ℕ) / 10 ^ 1) ≤ 23 / 100 := by
        rw [not_lt, lowerSeam_eq] at hlow
        rw [upperSeam, lowerSeam_eq, Reals.one_eq] at hmiddle
        norm_num
        nlinarith
      rw [if_pos hmiddle, if_pos ((hexact.le_iff_le hp hupper).mpr hmiddle)]
      exact hexact.div
        (hexact.mul (denotes_horner hexact hsquare (denotes_centralNumerator hexact)) hq)
        (denotes_horner hexact hsquare (denotes_centralDenominator hexact))
        (centralDenominator_pos (mul_self_nonneg _) hwithin).ne'
    · rw [if_neg hmiddle, if_neg (mt (hexact.le_iff_le hp hupper).mp hmiddle)]
      obtain ⟨hq, hnonneg⟩ := denotes_tailDistance hexact (hexact.sub (hexact.natCast 1) hp)
        (by simpa using hone) (by simpa using hpos.le)
      exact hexact.div (hexact.neg (denotes_horner hexact hq (denotes_tailNumerator hexact)))
        (denotes_horner hexact hq (denotes_tailDenominator hexact))
          (tailDenominator_pos hnonneg).ne'

/-- **Every probability has a quantile.** Its distance from the mean is finite and not below
zero. -/
theorem isNonNegative_zScore (hp : Sizing.isProbability p = true) :
    isNonNegative (zScore p) = true := by
  obtain ⟨hzero, hone⟩ := Bool.and_eq_true_iff.mp hp
  rw [decide_eq_true_iff] at hzero hone
  have hfinite :=
    LawfulScalar.isFinite_of_between LawfulScalar.isFinite_zero LawfulScalar.isFinite_one
    (LawfulScalar.le_of_lt hzero) (LawfulScalar.le_of_lt hone)
  have hdenotes := denotes_value value hfinite
  have hquantile := denotes_normalQuantile hexact hdenotes ((hexact.pos_iff hdenotes).mp hzero)
    ((hexact.lt_iff_lt hdenotes hexact.one).mp hone)
  exact hexact.isNonNegative_iff.mpr ⟨_, hexact.abs hquantile, abs_nonneg _⟩

end MarketMaker.Quantile
