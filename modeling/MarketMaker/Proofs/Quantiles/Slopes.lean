import MarketMaker.Proofs.Quantiles

/-!
# Slopes of the approximations

The lower tail falls with the distance, and the centre rises with the offset. Each is a fraction of
polynomials, so its slope has the sign of

* `N' D - N D'` in the tail, where `N` and `D` are polynomials in the distance;
* `N D + 2t (N' D - N D')` in the centre, where they are polynomials in the square `t` of the
  offset.

Either is a polynomial again. In the distance from two, the first has negative coefficients only; in
its **Bernstein form** on the interval from zero to `0.23`, the second has positive coefficients
only. The signs thus hold all along, and no interval has to be cut up.
-/

namespace MarketMaker.Quantile

open Scalar

/-! ## Derivatives by Horner's scheme -/

/-- The derivative of a polynomial: Horner's scheme keeps it beside the value. -/
noncomputable def slope (coefficients : List ℝ) (x : ℝ) : ℝ :=
  match coefficients with
  | [] => 0
  | c :: rest => (rest.foldl (fun acc k => (acc.1 * x + k, acc.2 * x + acc.1)) (c, 0)).2

/-- The scheme may be entered at any point, with a value and a derivative that belong together. -/
theorem hasDerivAt_foldl (rest : List ℝ) {f : ℝ → ℝ} {x : ℝ} {acc : ℝ × ℝ} (hvalue : f x = acc.1)
    (hf : HasDerivAt f acc.2 x) :
    HasDerivAt (fun y => rest.foldl (fun a k => a * y + k) (f y))
      (rest.foldl (fun acc k => (acc.1 * x + k, acc.2 * x + acc.1)) acc).2 x := by
  induction rest generalizing f acc with
  | nil => exact hf
  | cons k rest ih =>
    refine ih (f := fun y => f y * y + k) (by rw [hvalue]) ?_
    exact ((hf.mul (hasDerivAt_id' x)).add_const k).congr_deriv (by rw [hvalue, mul_one])

theorem hasDerivAt_horner (cs : List ℝ) (x : ℝ) : HasDerivAt (horner cs) (slope cs x) x := by
  cases cs with
  | nil =>
    exact (hasDerivAt_const x (0 : ℝ)).congr_of_eventuallyEq (.of_forall fun _ => Reals.zero_eq)
  | cons c rest => exact hasDerivAt_foldl rest rfl (hasDerivAt_const x c)

theorem hasDerivAt_horner_mul_self (cs : List ℝ) (q : ℝ) :
    HasDerivAt (fun y => horner cs (y * y)) (slope cs (q * q) * (2 * q)) q := by
  have hsquare : HasDerivAt (fun y : ℝ => y * y) (2 * q) q :=
    ((hasDerivAt_id' q).fun_mul (hasDerivAt_id' q)).congr_deriv (by norm_num; ring)
  exact HasDerivAt.comp (h := fun y => y * y) q (hasDerivAt_horner cs (q * q)) hsquare

/-! ## The tail falls -/

theorem hasDerivAt_lowerTail {q : ℝ} (hq : 0 ≤ q) : HasDerivAt lowerTail
    ((slope tailNumerator q * horner tailDenominator q - horner tailNumerator q *
      slope tailDenominator q) / horner tailDenominator q ^ 2) q :=
  (hasDerivAt_horner tailNumerator q).fun_div (hasDerivAt_horner tailDenominator q)
    (tailDenominator_pos hq).ne'

/-- In the distance `u` from two, every coefficient is negative. -/
theorem tail_slope_neg {q : ℝ} (hq : 2 ≤ q) :
    slope tailNumerator q * horner tailDenominator q - horner tailNumerator q *
      slope tailDenominator q < 0 := by
  obtain ⟨u, rfl⟩ : ∃ u, q = 2 + u := ⟨q - 2, by ring⟩
  have hu : 0 ≤ u := by linarith
  have hpow (n : ℕ) : 0 ≤ u ^ n := pow_nonneg hu n
  simp only [slope, horner, tailNumerator, tailDenominator, List.foldl_cons,
    List.foldl_nil, Reals.decimal_eq, Reals.one_eq]
  norm_num
  linarith [hu, hpow 2, hpow 3, hpow 4, hpow 5, hpow 6, hpow 7, hpow 8]

/-- **The tail falls.** At a distance of two and beyond, a longer distance means a lower
quantile. -/
theorem strictAntiOn_lowerTail : StrictAntiOn (lowerTail : ℝ → ℝ) (Set.Ici 2) := by
  have hnonneg {q : ℝ} (hq : 2 ≤ q) : 0 ≤ q := by linarith
  refine strictAntiOn_of_deriv_neg (convex_Ici 2) (fun q hq => ?_) (fun q hq => ?_)
  · exact (hasDerivAt_lowerTail (hnonneg hq)).continuousAt.continuousWithinAt
  · have hq : 2 ≤ q := interior_subset hq
    rw [(hasDerivAt_lowerTail (hnonneg hq)).deriv]
    exact div_neg_of_neg_of_pos (tail_slope_neg hq) (pow_pos (tailDenominator_pos (hnonneg hq)) 2)

/-! ## The centre rises -/

/-- The **middle**: the offsets from one half at which the central approximation is taken. -/
def middle : Set ℝ := Set.Icc (lowerSeam - 1 / 2) (1 / 2 - lowerSeam)

theorem mul_self_le_of_mem_middle {q : ℝ} (hq : q ∈ middle) : q * q ≤ 23 / 100 := by
  obtain ⟨hlower, hupper⟩ := hq
  rw [lowerSeam_eq] at hlower hupper
  norm_num at *
  nlinarith

theorem hasDerivAt_central {q : ℝ} (hq : q ∈ middle) : HasDerivAt central
    ((horner centralNumerator (q * q) * horner centralDenominator (q * q) +
        2 * (q * q) * (slope centralNumerator (q * q) * horner centralDenominator (q * q) -
          horner centralNumerator (q * q) * slope centralDenominator (q * q))) /
      horner centralDenominator (q * q) ^ 2) q := by
  have hpos := centralDenominator_pos (mul_self_nonneg q) (mul_self_le_of_mem_middle hq)
  have hnumerator := (hasDerivAt_horner_mul_self centralNumerator q).fun_mul (hasDerivAt_id' q)
  refine (hnumerator.fun_div (hasDerivAt_horner_mul_self centralDenominator q) hpos.ne').congr_deriv
    ?_
  ring

/-- In the Bernstein form of degree ten, every coefficient is positive. -/
theorem central_slope_pos {t : ℝ} (hlower : 0 ≤ t) (hupper : t ≤ 23 / 100) :
    0 < horner centralNumerator t * horner centralDenominator t +
      2 * t * (slope centralNumerator t * horner centralDenominator t -
        horner centralNumerator t * slope centralDenominator t) := by
  have hbasis (i j : ℕ) : 0 ≤ t ^ i * (23 / 100 - t) ^ j :=
    mul_nonneg (pow_nonneg hlower i) (pow_nonneg (sub_nonneg.mpr hupper) j)
  simp only [slope, horner, centralNumerator, centralDenominator, List.foldl_cons,
    List.foldl_nil, Reals.decimal_eq, Reals.one_eq]
  norm_num
  linarith [hbasis 0 10, hbasis 1 9, hbasis 2 8, hbasis 3 7, hbasis 4 6, hbasis 5 5,
    hbasis 6 4, hbasis 7 3, hbasis 8 2, hbasis 9 1, hbasis 10 0]

/-- **The centre rises.** -/
theorem strictMonoOn_central : StrictMonoOn (central : ℝ → ℝ) middle := by
  refine strictMonoOn_of_deriv_pos (convex_Icc _ _) (fun q hq => ?_) (fun q hq => ?_)
  · exact (hasDerivAt_central hq).continuousAt.continuousWithinAt
  · have hq : q ∈ middle := interior_subset hq
    have hsquare := mul_self_le_of_mem_middle hq
    rw [(hasDerivAt_central hq).deriv]
    exact div_pos (central_slope_pos (mul_self_nonneg q) hsquare)
      (pow_pos (centralDenominator_pos (mul_self_nonneg q) hsquare) 2)

end MarketMaker.Quantile
