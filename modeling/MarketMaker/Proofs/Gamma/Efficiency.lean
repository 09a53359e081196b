import MarketMaker.Proofs.Analysis
import MarketMaker.Gamma.Efficiency

/-!
# Spread efficiency is a monotone score

In an exact analysis the score is a product: the fills, moved into `[0, 1]`, times the **tightness**
of the spread, which is the part that the reference has in the width and the reference together.

* The formula for a market that does not move continues the one for a market that moves. A spread of
  no width is as tight as can be for any reference, and any other spread has no tightness at all for
  a reference of zero. So there is one formula with a single exception, the width of zero
  (`tightness`), and no junction to be crossed.
* Tightness lies between zero and one. It falls with the width and rises with the reference.
* What is divided by is above zero, because it is divided by only where the reference is.
-/

namespace MarketMaker.Gamma

open Scalar LawfulScalar

/-! ## Tightness -/

/-- How tight a width is for a reference. -/
noncomputable def tightness (width reference : ℝ) : ℝ :=
  if width = 0 then 1 else reference / (width + reference)

section

variable {width width' reference reference' : ℝ}

theorem tightness_nonneg (hwidth : 0 ≤ width) (hreference : 0 ≤ reference) :
    0 ≤ tightness width reference := by
  rw [tightness]
  split
  · exact zero_le_one
  · positivity

theorem tightness_le_one (hwidth : 0 ≤ width) (hreference : 0 ≤ reference) :
    tightness width reference ≤ 1 := by
  rw [tightness]
  split
  · exact le_rfl
  · exact div_le_one_of_le₀ (by linarith) (by linarith)

/-- A wider spread, or a lower reference, is no tighter. -/
theorem tightness_le_tightness (hwidth : 0 ≤ width) (hwider : width ≤ width')
    (hreference : 0 ≤ reference) (hlower : reference ≤ reference') :
    tightness width' reference ≤ tightness width reference' := by
  rcases hwidth.eq_or_lt with hzero | hpos
  · have hmost : tightness width reference' = 1 := if_pos hzero.symm
    rw [hmost]
    exact tightness_le_one (hwidth.trans hwider) hreference
  · have hpos' : 0 < width' := hpos.trans_le hwider
    rw [tightness, tightness, if_neg hpos'.ne', if_neg hpos.ne',
      div_le_div_iff₀ (by linarith) (by linarith)]
    -- The product of the references is on both sides.
    have hcross : reference * width ≤ reference' * width' :=
      mul_le_mul hlower hwider hwidth (hreference.trans hlower)
    linarith

end

variable {α : Type} [Scalar α]

/-- What the score of a spread is a quotient by, where it is one. -/
def divisor (spread volatility : α) : α := greatest 0 spread + 2 * greatest 0 volatility

/-- A share of the orders that is no finite number counts as none. -/
theorem spreadEfficiency_of_not_isFinite (spread volatility : α) {fillRatio : α}
    (h : isFinite fillRatio = false) :
    spreadEfficiency spread volatility fillRatio = spreadEfficiency spread volatility 0 := by
  simp [spreadEfficiency, h]

/-- In a market that moves the score is a quotient. -/
theorem spreadEfficiency_eq_div {spread volatility : α}
    (h : same (2 * greatest 0 volatility) 0 = false) (fillRatio : α) :
    spreadEfficiency spread volatility fillRatio =
      clamp (if isFinite fillRatio then fillRatio else 0) 0 1 * (2 * greatest 0 volatility) /
        divisor spread volatility := by
  simp [spreadEfficiency, divisor, h]

variable [StrictScalar α] {value : α → ℝ} (hexact : IsExactAnalysis value)
  {spread volatility fillRatio : α} {s v f : ℝ}

include hexact

theorem denotes_reference (hv : Denotes value volatility v) :
    Denotes value (2 * greatest 0 volatility) (2 * max 0 v) :=
  hexact.mul (hexact.natCast 2) (hexact.greatest hexact.zero hv)

theorem denotes_divisor (hs : Denotes value spread s) (hv : Denotes value volatility v) :
    Denotes value (divisor spread volatility) (max 0 s + 2 * max 0 v) :=
  hexact.add (hexact.greatest hexact.zero hs) (denotes_reference hexact hv)

/-- Nothing is divided by zero. -/
theorem zero_lt_divisor (hs : Denotes value spread s) (hv : Denotes value volatility v)
    (h : same (2 * greatest 0 volatility) 0 = false) : 0 < divisor spread volatility := by
  have hne : 2 * max 0 v ≠ 0 := by
    intro hzero
    rw [← hexact.same_zero_iff (denotes_reference hexact hv), h] at hzero
    cases hzero
  have hnonneg : 0 ≤ 2 * max 0 v := by positivity
  rw [hexact.pos_iff (denotes_divisor hexact hs hv)]
  exact add_pos_of_nonneg_of_pos (le_max_left 0 s) (lt_of_le_of_ne hnonneg hne.symm)

/-- **The score** is the fills times the tightness of the spread. -/
theorem denotes_spreadEfficiency (hs : Denotes value spread s) (hv : Denotes value volatility v)
    (hf : Denotes value fillRatio f) : Denotes value (spreadEfficiency spread volatility fillRatio)
      (min 1 (max 0 f) * tightness (max 0 s) (2 * max 0 v)) := by
  have hwidth := hexact.greatest hexact.zero hs
  have hreference := denotes_reference hexact hv
  have hfills := hexact.clamp hf hexact.zero hexact.one
  cases hstill : same (2 * greatest 0 volatility) 0 with
  | true =>
    have hzero := (hexact.same_zero_iff hreference).mp hstill
    simp only [spreadEfficiency, hf.finite, hstill, if_true, tightness]
    by_cases hflat : max 0 s = 0
    · rw [if_pos ((hexact.same_zero_iff hwidth).mpr hflat), if_pos hflat, mul_one]
      exact hfills
    · rw [if_neg (mt (hexact.same_zero_iff hwidth).mp hflat), if_neg hflat,
        hzero, zero_div, mul_zero]
      exact hexact.zero
  | false =>
    have hsum :=
      (hexact.pos_iff (denotes_divisor hexact hs hv)).mp (zero_lt_divisor hexact hs hv hstill)
    have hquotient :=
      hexact.div (hexact.mul hfills hreference) (denotes_divisor hexact hs hv) hsum.ne'
    rw [mul_div_assoc] at hquotient
    rw [spreadEfficiency_eq_div hstill, if_pos hf.finite, tightness]
    by_cases hflat : max 0 s = 0
    · rw [hflat, zero_add] at hsum hquotient
      rw [div_self hsum.ne'] at hquotient
      rw [if_pos hflat]
      exact hquotient
    · rw [if_neg hflat]
      exact hquotient

/-- A score lies between zero and one. -/
theorem spreadEfficiency_within (hs : Denotes value spread s) (hv : Denotes value volatility v)
    (hf : Denotes value fillRatio f) :
    0 ≤ spreadEfficiency spread volatility fillRatio ∧
    spreadEfficiency spread volatility fillRatio ≤ 1 := by
  have hscore := denotes_spreadEfficiency hexact hs hv hf
  have hwidth : 0 ≤ max 0 s := le_max_left 0 s
  have hreference : 0 ≤ 2 * max 0 v := by positivity
  have htight := tightness_nonneg hwidth hreference
  constructor
  · rw [hexact.le_iff_le hexact.zero hscore]
    positivity
  · rw [hexact.le_iff_le hscore hexact.one]
    exact mul_le_one₀ (min_le_left _ _) htight (tightness_le_one hwidth hreference)

/-- Without fills the score is zero. -/
theorem spreadEfficiency_same_zero (hs : Denotes value spread s) (hv : Denotes value volatility v)
    (hf : Denotes value fillRatio f) (hnone : f ≤ 0) :
    same (spreadEfficiency spread volatility fillRatio) 0 = true := by
  rw [hexact.same_zero_iff (denotes_spreadEfficiency hexact hs hv hf), max_eq_left hnone,
    min_eq_right zero_le_one, zero_mul]

/-- No spread that is tighter, in a market that moves more, with more fills, has a lower score. -/
theorem spreadEfficiency_le_spreadEfficiency {spread' volatility' fillRatio' : α} {s' v' f' : ℝ}
    (hs : Denotes value spread s) (hs' : Denotes value spread' s') (htighter : s' ≤ s)
    (hv : Denotes value volatility v) (hv' : Denotes value volatility' v') (hlivelier : v ≤ v')
    (hf : Denotes value fillRatio f) (hf' : Denotes value fillRatio' f') (hfuller : f ≤ f') :
    spreadEfficiency spread volatility fillRatio ≤
      spreadEfficiency spread' volatility' fillRatio' := by
  rw [hexact.le_iff_le (denotes_spreadEfficiency hexact hs hv hf)
    (denotes_spreadEfficiency hexact hs' hv' hf')]
  have hwidth : 0 ≤ max 0 s' := le_max_left 0 s'
  have hreference : 0 ≤ 2 * max 0 v := by positivity
  have hfills : 0 ≤ min 1 (max 0 f') := by positivity
  refine mul_le_mul (min_le_min_left 1 (max_le_max_left 0 hfuller)) ?_ ?_ hfills
  · refine tightness_le_tightness hwidth (max_le_max_left 0 htighter) hreference ?_
    have hmax : max 0 v ≤ max 0 v' := max_le_max_left 0 hlivelier
    linarith
  · exact tightness_nonneg (le_max_left 0 s) hreference

/-- **The score is a monotone score between zero and one.** Take any finite spread, volatility and
share of the orders that filled, of any sign and size. The score is in `[0, 1]`, and what it is
divided by is above zero where it is a quotient. A wider spread never has a higher score; a higher
volatility or more fills never have a lower one, wherever they are taken from. Without fills the
score is zero, and so it is for a share that is no finite number. -/
theorem score_unit_and_monotone (hspread : isFinite spread = true)
    (hvolatility : isFinite volatility = true) (hfills : isFinite fillRatio = true) :
    (0 ≤ spreadEfficiency spread volatility fillRatio ∧
      spreadEfficiency spread volatility fillRatio ≤ 1) ∧
      (same (2 * greatest 0 volatility) 0 = false → 0 < divisor spread volatility ∧
        spreadEfficiency spread volatility fillRatio =
          clamp fillRatio 0 1 * (2 * greatest 0 volatility) / divisor spread volatility) ∧
      (∀ wider, isFinite wider = true → spread ≤ wider →
        spreadEfficiency wider volatility fillRatio ≤
          spreadEfficiency spread volatility fillRatio) ∧
      (∀ livelier, isFinite livelier = true → volatility ≤ livelier →
        spreadEfficiency spread volatility fillRatio ≤ spreadEfficiency spread livelier fillRatio) ∧
      (∀ fuller, isFinite fuller = true → fillRatio ≤ fuller →
        spreadEfficiency spread volatility fillRatio ≤ spreadEfficiency spread volatility fuller) ∧
      (fillRatio ≤ 0 → same (spreadEfficiency spread volatility fillRatio) 0 = true) ∧
      ∀ unknown, isFinite unknown = false →
        spreadEfficiency spread volatility unknown = spreadEfficiency spread volatility 0 ∧
          same (spreadEfficiency spread volatility unknown) 0 = true := by
  have hs := denotes_value value hspread
  have hv := denotes_value value hvolatility
  have hf := denotes_value value hfills
  refine ⟨spreadEfficiency_within hexact hs hv hf, ?_, ?_, ?_, ?_, ?_, ?_⟩
  · intro hmoving
    refine ⟨zero_lt_divisor hexact hs hv hmoving, ?_⟩
    rw [spreadEfficiency_eq_div hmoving, if_pos hfills]
  · intro wider hwider hle
    exact spreadEfficiency_le_spreadEfficiency hexact (denotes_value value hwider) hs
      ((hexact.le_iff hspread hwider).mp hle) hv hv le_rfl hf hf le_rfl
  · intro livelier hlivelier hle
    exact spreadEfficiency_le_spreadEfficiency hexact hs hs le_rfl hv
      (denotes_value value hlivelier) ((hexact.le_iff hvolatility hlivelier).mp hle) hf hf le_rfl
  · intro fuller hfuller hle
    exact spreadEfficiency_le_spreadEfficiency hexact hs hs le_rfl hv hv le_rfl hf
      (denotes_value value hfuller) ((hexact.le_iff hfills hfuller).mp hle)
  · intro hnone
    exact spreadEfficiency_same_zero hexact hs hv hf ((hexact.le_iff_le hf hexact.zero).mp hnone)
  · intro unknown hunknown
    rw [spreadEfficiency_of_not_isFinite spread volatility hunknown]
    exact ⟨rfl, spreadEfficiency_same_zero hexact hs hv hexact.zero le_rfl⟩

omit hexact [StrictScalar α] in
open Extended in
/-- A spread that is not wide in a market that does not move, and begins to. -/
theorem score_unit_and_monotone_still :
    let spread : Extended := number (1 : ℝ)
    let still : Extended := number (-1 : ℝ)
    let moving : Extended := number ((2 : ℕ) : ℝ)
    let full : Extended := number ((3 : ℕ) : ℝ)
    IsExactAnalysis Extended.value ∧ isFinite spread = true ∧ isFinite still = true ∧
    isFinite full = true ∧
      isFinite moving = true ∧ still ≤ moving ∧
      (0 ≤ spreadEfficiency spread still full ∧ spreadEfficiency spread still full ≤ 1) ∧
      spreadEfficiency spread still full ≤ spreadEfficiency spread moving full ∧
      same (spreadEfficiency spread still .undefined) 0 = true := by
  intro spread still moving full
  have hle : still ≤ moving := by
    rw [le_number, EReal.coe_le_coe_iff]
    norm_num
  obtain ⟨hunit, -, -, hlivelier, -, -, hunknown⟩ := score_unit_and_monotone isExactAnalysis
    (isFinite_number (1 : ℝ)) (isFinite_number (-1 : ℝ)) (isFinite_number ((3 : ℕ) : ℝ))
  exact ⟨isExactAnalysis, isFinite_number _, isFinite_number _, isFinite_number _,
    isFinite_number _, hle, hunit, hlivelier moving (isFinite_number _) hle,
    (hunknown .undefined rfl).2⟩

end MarketMaker.Gamma
