import MarketMaker.Proofs.Pricing.Finiteness

/-!
# Volatility is about relative moves

Over the reals the volatility of a series is a multiple of the sample deviation of its log returns.

* The **deviation** of a list is a root of a mean of squares. It is multiplied by `|a|` when every
  entry is by `a`, does not look at the order of the entries, and is zero exactly when they are all
  the same.
* The **returns** see the close prices only, and of these only the ratios. Whatever multiplies the
  logarithm of every ratio by a constant multiplies every return by it: by one when all prices are
  multiplied by a constant, and by `a` when they are raised to the power `a`.
* A series that is turned around has the opposite returns in the opposite order.
-/

namespace MarketMaker

open Scalar

/-! ## Deviation -/

namespace Stats

variable {values values' : List ℝ}

theorem mean_eq (values : List ℝ) : mean values = values.sum / values.length := by
  rw [mean, sum]
  split
  · next hempty => simp [List.isEmpty_iff.mp hempty]
  · rw [Reals.zero_eq, ← List.sum_eq_foldl]

theorem sumSquares_eq (centre : ℝ) (values : List ℝ) :
    sumSquares centre values = (values.map fun x => (x - centre) * (x - centre)).sum := by
  rw [List.sum_eq_foldl, List.foldl_map, sumSquares, Reals.zero_eq]

/-- The deviation is a root of a mean of squares, for short lists too. -/
theorem sampleDeviation_eq (values : List ℝ) : sampleDeviation values =
    √((values.map fun x => (x - mean values) * (x - mean values)).sum /
      (values.length - 1 : ℕ)) := by
  rw [sampleDeviation]
  split
  · next hshort =>
    have hcases : values.length - 1 = 0 := by omega
    rw [hcases]
    simp
  · rw [sumSquares_eq]
    rfl

theorem sampleDeviation_nonneg (values : List ℝ) : 0 ≤ sampleDeviation values := by
  rw [sampleDeviation_eq]
  exact Real.sqrt_nonneg _

/-- Entries that are all multiplied by one number. -/
theorem sampleDeviation_map_mul (a : ℝ) (values : List ℝ) :
    sampleDeviation (values.map (a * ·)) = |a| * sampleDeviation values := by
  have hmean : mean (values.map (a * ·)) = a * mean values := by
    rw [mean_eq, mean_eq, List.sum_map_mul_left, List.map_id', List.length_map, mul_div_assoc]
  have hsquares : (values.map fun x => (a * x - a * mean values) * (a * x - a * mean values)).sum =
      a ^ 2 * (values.map fun x => (x - mean values) * (x - mean values)).sum := by
    rw [← List.sum_map_mul_left]
    congr 1
    refine List.map_congr_left fun x _ => ?_
    ring
  rw [sampleDeviation_eq, sampleDeviation_eq, hmean, List.map_map, List.length_map]
  simp only [Function.comp_def]
  rw [hsquares, mul_div_assoc, Real.sqrt_mul (sq_nonneg a), Real.sqrt_sq_eq_abs]

/-- The order of the entries does not matter. -/
theorem sampleDeviation_perm (h : values.Perm values') :
    sampleDeviation values = sampleDeviation values' := by
  have hmean : mean values = mean values' := by
    rw [mean_eq, mean_eq, h.sum_eq, h.length_eq]
  rw [sampleDeviation_eq, sampleDeviation_eq, hmean, (h.map _).sum_eq, h.length_eq]

/-- **There is no deviation exactly when all entries are the same.** -/
theorem sampleDeviation_eq_zero_iff : sampleDeviation values = 0 ↔ ∃ c, ∀ x ∈ values, x = c := by
  rw [sampleDeviation_eq]
  constructor
  · intro h
    refine ⟨mean values, ?_⟩
    have hsquares : ∀ y ∈ values.map fun x => (x - mean values) * (x - mean values), 0 ≤ y := by
      simp [mul_self_nonneg]
    rcases Nat.lt_or_ge values.length 2 with hshort | hlong
    · -- A single entry is the mean.
      match values, hshort with
      | [], _ => simp
      | [x], _ => simp [mean_eq]
    · have hcount : (0 : ℝ) < (values.length - 1 : ℕ) := by
        rw [Nat.cast_pos]
        omega
      rw [Real.sqrt_eq_zero (div_nonneg (List.sum_nonneg hsquares) hcount.le), div_eq_zero_iff,
        or_iff_left hcount.ne'] at h
      intro x hx
      have hzero := List.all_zero_of_le_zero_le_of_sum_eq_zero hsquares h (List.mem_map_of_mem hx)
      exact sub_eq_zero.mp (mul_self_eq_zero.mp hzero)
  · rintro ⟨c, hc⟩
    rw [List.eq_replicate_of_mem hc]
    rcases Nat.eq_zero_or_pos values.length with hempty | hpos
    · simp [hempty]
    · have hne : (values.length : ℝ) ≠ 0 := Nat.cast_ne_zero.mpr hpos.ne'
      simp [mean_eq, hne]

end Stats

/-! ## Returns -/

namespace Volatility

variable {bars bars' : List (Bar ℝ)}

/-- **Prices that are all transformed alike**, so that the logarithm of every ratio is multiplied by
one number. -/
theorem logReturns_transformed {f : ℝ → ℝ} {a : ℝ}
    (hf : ∀ x y, 0 < x → 0 < y → Real.log (f y / f x) = a * Real.log (y / x))
    (hpos : ∀ bar ∈ bars, 0 < bar.close)
    (hcloses : bars'.map Bar.close = bars.map fun bar => f bar.close) :
    logReturns bars' = (logReturns bars).map (a * ·) := by
  induction bars generalizing bars' with
  | nil =>
    obtain rfl : bars' = [] := by simpa using hcloses
    rfl
  | cons first rest ih =>
    obtain ⟨first', rest', rfl, hfirst, hrest⟩ := List.map_eq_cons_iff.mp hcloses
    cases rest with
    | nil =>
      obtain rfl : rest' = [] := by simpa using hrest
      rfl
    | cons second rest =>
      have hreturns := ih (fun bar hbar => hpos bar (List.mem_cons_of_mem first hbar)) hrest
      obtain ⟨second', rest'', rfl, hsecond, -⟩ := List.map_eq_cons_iff.mp hrest
      have hreturn := hf first.close second.close (hpos first (by simp)) (hpos second (by simp))
      simp only [logReturns, hreturns, List.map_cons, Reals.ln_eq, hfirst, hsecond, hreturn]

theorem logReturns_concat (bars : List (Bar ℝ)) (first second : Bar ℝ) :
    logReturns (bars ++ [first, second]) =
      logReturns (bars ++ [first]) ++ [Real.log (second.close / first.close)] := by
  induction bars with
  | nil => rfl
  | cons bar rest ih =>
    cases rest with
    | nil => rfl
    | cons next rest => simpa [logReturns] using ih

/-- **A series that is turned around** has the opposite returns in the opposite order. -/
theorem logReturns_reverse (bars : List (Bar ℝ)) :
    logReturns bars.reverse = ((logReturns bars).map (-1 * ·)).reverse := by
  induction bars with
  | nil => rfl
  | cons first rest ih =>
    cases rest with
    | nil => rfl
    | cons second rest =>
      have hreturn :
          Real.log (first.close / second.close) = -1 * Real.log (second.close / first.close) := by
        rw [← inv_div, Real.log_inv, neg_one_mul]
      rw [List.reverse_cons] at ih
      rw [List.reverse_cons, List.reverse_cons, List.append_assoc, List.cons_append,
        List.nil_append, logReturns_concat, ih, hreturn]
      simp [logReturns]

/-- All returns are the same exactly when all ratios of consecutive close prices are. -/
theorem logReturns_constant_iff (hpos : ∀ bar ∈ bars, 0 < bar.close) (c : ℝ) :
    (∀ x ∈ logReturns bars, x = c) ↔
      bars.IsChain fun first second => second.close / first.close = Real.exp c := by
  induction bars with
  | nil => simp [logReturns]
  | cons first rest ih =>
    cases rest with
    | nil => simp [logReturns]
    | cons second rest =>
      have hratio : 0 < second.close / first.close :=
        div_pos (hpos second (by simp)) (hpos first (by simp))
      have hreturn : Real.log (second.close / first.close) = c ↔
          second.close / first.close = Real.exp c := by
        rw [← Real.log_exp c, Real.log_injOn_pos.eq_iff hratio (Real.exp_pos c), Real.log_exp]
      rw [List.isChain_cons_cons, ← ih fun bar hbar => hpos bar (List.mem_cons_of_mem first hbar),
        ← hreturn]
      simp [logReturns]

/-- A ratio of positive close prices is positive. -/
theorem ratio_pos (hmany : 2 ≤ bars.length) (hpos : ∀ bar ∈ bars, 0 < bar.close) {ratio : ℝ}
    (hratio : bars.IsChain fun first second => second.close / first.close = ratio) : 0 < ratio := by
  cases bars with
  | nil => cases hmany
  | cons first rest =>
    cases rest with
    | nil => simp at hmany
    | cons second rest =>
      rw [← (List.isChain_cons_cons.mp hratio).1]
      exact div_pos (hpos second (by simp)) (hpos first (by simp))

/-- **The returns do not deviate** when there is a single one, or when all ratios are the same. -/
theorem sampleDeviation_logReturns_eq_zero_iff (hmany : 2 ≤ bars.length)
    (hpos : ∀ bar ∈ bars, 0 < bar.close) :
    Stats.sampleDeviation (logReturns bars) = 0 ↔
      bars.length = 2 ∨ ∃ ratio, bars.IsChain fun first second =>
        second.close / first.close = ratio := by
  rw [Stats.sampleDeviation_eq_zero_iff]
  constructor
  · rintro ⟨c, hc⟩
    exact .inr ⟨Real.exp c, (logReturns_constant_iff hpos c).mp hc⟩
  · rintro (htwo | ⟨ratio, hratio⟩)
    · obtain ⟨first, second, rfl⟩ := List.length_eq_two.mp htwo
      exact ⟨Real.log (second.close / first.close), by simp [logReturns]⟩
    · refine ⟨Real.log ratio, (logReturns_constant_iff hpos _).mpr ?_⟩
      rwa [Real.exp_log (ratio_pos hmany hpos hratio)]

/-! ## Volatility -/

theorem sqrt_periodsPerDay_pos (i : Interval) : 0 < √(i.periodsPerDay : ℝ) := by
  rw [Real.sqrt_pos, Nat.cast_pos]
  cases i <;> decide

section

variable [NumberText ℝ] {i : Interval}

/-- The series has a volatility, whenever it is asked for, and it is this one. -/
def HasVolatility (bars : List (Bar ℝ)) (i : Interval) (v : ℝ) : Prop :=
  ∀ now, ∃ e, estimate bars (.known i) now = .ok e ∧ e.value = v

/-- The deviation of the returns, scaled from one bar to one day. -/
theorem measure_value (bars : List (Bar ℝ)) (i : Interval) (now : ℝ) :
    (measure bars (.known i) now).value = Stats.sampleDeviation (logReturns bars) *
      √(i.periodsPerDay : ℝ) := rfl

theorem hasVolatility (hmany : 2 ≤ bars.length) (hpos : ∀ bar ∈ bars, 0 < bar.close) :
    HasVolatility bars i (Stats.sampleDeviation (logReturns bars) * √(i.periodsPerDay : ℝ)) := by
  intro now
  have hfailure : failure? bars = none := by
    simpa [failure?_eq_none_iff] using ⟨hmany, hpos⟩
  exact ⟨_, estimate_known hfailure i, measure_value bars i now⟩

/-- **Prices that are all transformed alike** have a multiple of the volatility. -/
theorem hasVolatility_transformed {f : ℝ → ℝ} {a : ℝ} (hfpos : ∀ x, 0 < x → 0 < f x)
    (hf : ∀ x y, 0 < x → 0 < y → Real.log (f y / f x) = a * Real.log (y / x))
    (hmany : 2 ≤ bars.length) (hpos : ∀ bar ∈ bars, 0 < bar.close)
    (hcloses : bars'.map Bar.close = bars.map fun bar => f bar.close) :
    HasVolatility bars' i
      (|a| * (Stats.sampleDeviation (logReturns bars) * √(i.periodsPerDay : ℝ))) := by
  have hlength : bars'.length = bars.length := by simpa using congrArg List.length hcloses
  have hpos' : ∀ bar ∈ bars', 0 < bar.close := by
    intro bar hbar
    have hclose : bar.close ∈ bars.map fun bar => f bar.close := by
      rw [← hcloses]
      exact List.mem_map_of_mem hbar
    obtain ⟨original, horiginal, hvalue⟩ := List.mem_map.mp hclose
    rw [← hvalue]
    exact hfpos _ (hpos original horiginal)
  have hvolatility := hasVolatility (i := i) (hmany.trans_eq hlength.symm) hpos'
  rw [logReturns_transformed hf hpos hcloses, Stats.sampleDeviation_map_mul,
    mul_assoc] at hvolatility
  exact hvolatility

theorem hasVolatility_reverse (hmany : 2 ≤ bars.length) (hpos : ∀ bar ∈ bars, 0 < bar.close) :
    HasVolatility bars.reverse i
      (Stats.sampleDeviation (logReturns bars) * √(i.periodsPerDay : ℝ)) := by
  have hvolatility : HasVolatility bars.reverse i
      (Stats.sampleDeviation (logReturns bars.reverse) * √(i.periodsPerDay : ℝ)) :=
    hasVolatility (by simpa using hmany) (by simpa using hpos)
  rw [logReturns_reverse, Stats.sampleDeviation_perm (List.reverse_perm _),
    Stats.sampleDeviation_map_mul, abs_neg, abs_one, one_mul] at hvolatility
  exact hvolatility

/-- **Volatility depends on relative moves only.** Every series of at least two bars with positive
close prices has a volatility, which is not below zero. It is zero exactly when there are two bars
or all ratios of consecutive close prices are the same. The series that is turned around has the
same one; so does every series with the same close prices, and every one with all of them multiplied
by one positive constant, whatever its times and other prices are. Close prices raised to the power
`a` have `|a|` times the volatility. -/
theorem volatility_of_relative_moves (hmany : 2 ≤ bars.length) (hpos : ∀ bar ∈ bars, 0 < bar.close)
    (i : Interval) :
    ∃ v, HasVolatility bars i v ∧ 0 ≤ v ∧
      (v = 0 ↔ bars.length = 2 ∨ ∃ ratio, bars.IsChain fun first second =>
        second.close / first.close = ratio) ∧
      HasVolatility bars.reverse i v ∧
      (∀ bars' : List (Bar ℝ), bars'.map Bar.close = bars.map Bar.close → HasVolatility bars' i v) ∧
      (∀ c > 0, ∀ bars' : List (Bar ℝ), bars'.map Bar.close = bars.map (fun bar => c * bar.close) →
        HasVolatility bars' i v) ∧
      ∀ (a : ℝ) (bars' : List (Bar ℝ)), bars'.map Bar.close = bars.map (fun bar => bar.close ^ a) →
        HasVolatility bars' i (|a| * v) := by
  have hscale := sqrt_periodsPerDay_pos i
  refine ⟨_, hasVolatility hmany hpos, mul_nonneg (Stats.sampleDeviation_nonneg _) hscale.le, ?_,
    hasVolatility_reverse hmany hpos, ?_, ?_, ?_⟩
  · rw [mul_eq_zero, or_iff_left hscale.ne', sampleDeviation_logReturns_eq_zero_iff hmany hpos]
  · intro bars' hcloses
    simpa using hasVolatility_transformed (f := id) (a := 1) (fun x hx => hx)
      (fun x y _ _ => (one_mul _).symm) hmany hpos hcloses
  · intro c hc bars' hcloses
    have hf : ∀ x y : ℝ, 0 < x → 0 < y → Real.log (c * y / (c * x)) = 1 * Real.log (y / x) := by
      intro x y _ _
      rw [mul_div_mul_left y x hc.ne', one_mul]
    simpa using hasVolatility_transformed (fun x hx => mul_pos hc hx) hf hmany hpos hcloses
  · intro a bars' hcloses
    have hf : ∀ x y : ℝ, 0 < x → 0 < y → Real.log (y ^ a / x ^ a) = a * Real.log (y / x) := by
      intro x y hx hy
      rw [← Real.div_rpow hy.le hx.le, Real.log_rpow (div_pos hy hx)]
    exact hasVolatility_transformed (fun x hx => Real.rpow_pos_of_pos hx a) hf hmany hpos hcloses

end

/-! ## A growing price -/

/-- A real number is spelt by its whole part. -/
noncomputable instance instNumberTextReal : NumberText ℝ where
  text x := toString ⌊x⌋
  fixed _ x := toString ⌊x⌋

/-- A price that is doubled, and multiplied by four after that. -/
noncomputable def growingBars : List (Bar ℝ) :=
  [⟨0, 1, 1, 1, 1, none⟩, ⟨1, 1, 2, 1, 2, none⟩, ⟨2, 2, 8, 2, 8, none⟩]

/-- Three hourly bars that are turned around, tripled and squared. -/
theorem volatility_of_relative_moves_growingBars :
    2 ≤ growingBars.length ∧ (∀ bar ∈ growingBars, 0 < bar.close) ∧
      ∃ v, HasVolatility growingBars .oneHour v ∧ 0 < v ∧
        HasVolatility growingBars.reverse .oneHour v ∧
        HasVolatility [⟨5, 0, 0, 0, 3, none⟩, ⟨4, 0, 0, 0, 6, none⟩,
          ⟨3, 0, 0, 0, 24, none⟩] .oneHour v ∧
        HasVolatility [⟨0, 1, 1, 1, 1, none⟩, ⟨0, 1, 1, 1, 4, none⟩,
          ⟨0, 1, 1, 1, 64, none⟩] .oneHour (2 * v) := by
  have hmany : 2 ≤ growingBars.length := by decide
  have hpos : ∀ bar ∈ growingBars, 0 < bar.close := by simp [growingBars]
  obtain ⟨v, hv, hnonneg, hzero, hreverse, -, hscaled, hraised⟩ :=
    volatility_of_relative_moves hmany hpos .oneHour
  refine ⟨hmany, hpos, v, hv, lt_of_le_of_ne hnonneg (Ne.symm ?_), hreverse,
    hscaled 3 (by norm_num) _ ?_, ?_⟩
  · rw [Ne, hzero]
    rintro (htwo | ⟨ratio, hratio⟩)
    · exact absurd htwo (by decide)
    · simp only [growingBars, List.isChain_cons_cons] at hratio
      linarith [hratio.1, hratio.2.1]
  · simp only [growingBars, List.map_cons, List.map_nil]
    norm_num
  · have htwo := hraised 2 [⟨0, 1, 1, 1, 1, none⟩, ⟨0, 1, 1, 1, 4, none⟩, ⟨0, 1, 1, 1, 64, none⟩]
    rw [abs_two] at htwo
    refine htwo ?_
    simp only [growingBars, List.map_cons, List.map_nil]
    norm_num

end Volatility

end MarketMaker
