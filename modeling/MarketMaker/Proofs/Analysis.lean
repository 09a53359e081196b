import MarketMaker.Proofs.Exact
import MarketMaker.Proofs.Numbers
import MarketMaker.Proofs.Reals
import MarketMaker.Proofs.Settings

/-!
# Exact analysis

An exact field is **an exact analysis** when numerals, square roots, logarithms and whole parts are
those of the real numbers, too. A scalar `Denotes` a real number when it is finite and has that
value; what is computed from such scalars denotes what is computed from the numbers, as long as
nothing is divided by zero and no root or logarithm is taken where there is none.

`Extended` is an exact analysis. Wherever there is one, the engine can be configured
(`IsExactAnalysis.standard`).
-/

namespace MarketMaker

open Scalar LawfulScalar

/-- Also numerals, square roots, logarithms and whole parts are those of the real numbers. -/
structure IsExactAnalysis {α : Type} [Scalar α] (value : α → ℝ) : Prop
    extends IsExactField value where
  /-- Numerals are finite. -/
  isFinite_natCast (n : ℕ) : isFinite (n : α) = true
  /-- A numeral is read as its number. -/
  value_natCast (n : ℕ) : value (n : α) = n
  /-- Decimals are finite. -/
  isFinite_decimal (digits exponent : ℕ) : isFinite (ofDecimal digits true exponent : α) = true
  /-- A decimal is read as its fraction. -/
  value_decimal (digits exponent : ℕ) :
    value (ofDecimal digits true exponent) = digits / 10 ^ exponent
  /-- What is not finite is left in every quotient. -/
  isFinite_of_div {x y : α} : isFinite y = true → isFinite (x / y) = true → isFinite x = true
  /-- The root of what is not negative is finite. -/
  isFinite_sqrt {x : α} : isFinite x = true → 0 ≤ value x → isFinite (sqrt x) = true
  /-- It is the real root. -/
  value_sqrt {x : α} : isFinite x = true → 0 ≤ value x → value (sqrt x) = √(value x)
  /-- The logarithm of what is positive is finite. -/
  isFinite_ln {x : α} : isFinite x = true → 0 < value x → isFinite (ln x) = true
  /-- It is the real logarithm. -/
  value_ln {x : α} : isFinite x = true → 0 < value x → value (ln x) = Real.log (value x)
  /-- The whole part of a finite value is finite. -/
  isFinite_floor {x : α} : isFinite x = true → isFinite (floor x) = true
  /-- It is the greatest integer below the value or equal to it. -/
  value_floor {x : α} : isFinite x = true → value (floor x) = ⌊value x⌋

section

variable {α : Type} [Scalar α] {value : α → ℝ}

/-- A scalar that is a real number. -/
structure Denotes (value : α → ℝ) (x : α) (r : ℝ) : Prop where
  /-- The scalar is finite. -/
  finite : isFinite x = true
  /-- It is read as the number. -/
  value_eq : value x = r

theorem denotes_value (value : α → ℝ) {x : α} (h : isFinite x = true) :
    Denotes value x (value x) := ⟨h, rfl⟩

/-- Where the same branch is taken on both sides. -/
theorem Denotes.ite {P Q : Prop} [Decidable P] [Decidable Q] {x y : α} {r s : ℝ} (h : P ↔ Q)
    (hx : Denotes value x r) (hy : Denotes value y s) :
    Denotes value (if P then x else y) (if Q then r else s) := by
  by_cases hQ : Q
  · rwa [if_pos (h.mpr hQ), if_pos hQ]
  · rwa [if_neg (mt h.mp hQ), if_neg hQ]

theorem isFinite_of_isPositive {x : α} (h : isPositive x = true) : isFinite x = true :=
  (Bool.and_eq_true_iff.mp h).1

theorem isFinite_of_isNonNegative {x : α} (h : isNonNegative x = true) : isFinite x = true :=
  (Bool.and_eq_true_iff.mp h).1

theorem isNonNegative_iff_isFinite {x : α} (h : 0 ≤ x) :
    isNonNegative x = true ↔ isFinite x = true := by
  simp [isNonNegative, h]

namespace IsExactAnalysis

variable (hexact : IsExactAnalysis value) {x y : α} {r s : ℝ}

include hexact

/-! ## What is computed -/

theorem add (hx : Denotes value x r) (hy : Denotes value y s) : Denotes value (x + y) (r + s) :=
  ⟨hexact.isFinite_add hx.finite hy.finite,
    by rw [hexact.value_add hx.finite hy.finite, hx.value_eq, hy.value_eq]⟩

theorem sub (hx : Denotes value x r) (hy : Denotes value y s) : Denotes value (x - y) (r - s) :=
  ⟨hexact.isFinite_sub hx.finite hy.finite,
    by rw [hexact.value_sub hx.finite hy.finite, hx.value_eq, hy.value_eq]⟩

theorem mul (hx : Denotes value x r) (hy : Denotes value y s) : Denotes value (x * y) (r * s) :=
  ⟨hexact.isFinite_mul hx.finite hy.finite,
    by rw [hexact.value_mul hx.finite hy.finite, hx.value_eq, hy.value_eq]⟩

theorem div (hx : Denotes value x r) (hy : Denotes value y s) (hs : s ≠ 0) :
    Denotes value (x / y) (r / s) := by
  have hne : value y ≠ 0 := by rwa [hy.value_eq]
  exact ⟨hexact.isFinite_div hx.finite hy.finite hne,
    by rw [hexact.value_div hx.finite hy.finite hne, hx.value_eq, hy.value_eq]⟩

theorem natCast (n : ℕ) : Denotes value (n : α) n :=
  ⟨hexact.isFinite_natCast n, hexact.value_natCast n⟩

theorem zero : Denotes value 0 0 := ⟨hexact.isFinite_natCast 0, hexact.value_zero⟩

theorem one : Denotes value 1 1 := ⟨hexact.isFinite_natCast 1, hexact.value_one⟩

theorem decimal (digits exponent : ℕ) :
    Denotes value (OfScientific.ofScientific digits true exponent : α) (digits / 10 ^ exponent) :=
  ⟨hexact.isFinite_decimal digits exponent, hexact.value_decimal digits exponent⟩

theorem sqrt (hx : Denotes value x r) (hr : 0 ≤ r) : Denotes value (Scalar.sqrt x) √r := by
  have hle : 0 ≤ value x := by rwa [hx.value_eq]
  exact ⟨hexact.isFinite_sqrt hx.finite hle, by rw [hexact.value_sqrt hx.finite hle, hx.value_eq]⟩

theorem ln (hx : Denotes value x r) (hr : 0 < r) : Denotes value (Scalar.ln x) (Real.log r) := by
  have hlt : 0 < value x := by rwa [hx.value_eq]
  exact ⟨hexact.isFinite_ln hx.finite hlt, by rw [hexact.value_ln hx.finite hlt, hx.value_eq]⟩

/-! ## What is compared -/

theorem le_iff_le (hx : Denotes value x r) (hy : Denotes value y s) : x ≤ y ↔ r ≤ s := by
  rw [hexact.le_iff hx.finite hy.finite, hx.value_eq, hy.value_eq]

variable [StrictScalar α]

theorem neg (hx : Denotes value x r) : Denotes value (-x) (-r) :=
  ⟨StrictScalar.isFinite_neg hx.finite, by rw [hexact.value_neg hx.finite, hx.value_eq]⟩

theorem abs (hx : Denotes value x r) : Denotes value (Scalar.abs x) |r| :=
  ⟨StrictScalar.isFinite_abs hx.finite, by rw [hexact.value_abs hx.finite, hx.value_eq]⟩

theorem lt_iff_lt (hx : Denotes value x r) (hy : Denotes value y s) : x < y ↔ r < s := by
  rw [LawfulScalar.lt_iff, hexact.le_iff_le hx hy, hexact.le_iff_le hy hx, lt_iff_le_not_ge]

theorem greatest (hx : Denotes value x r) (hy : Denotes value y s) :
    Denotes value (Scalar.greatest x y) (max r s) := by
  rw [greatest_eq (isNumber_of_isFinite hx.finite) (isNumber_of_isFinite hy.finite), max_def_lt]
  exact .ite (hexact.lt_iff_lt hx hy) hy hx

theorem least (hx : Denotes value x r) (hy : Denotes value y s) :
    Denotes value (Scalar.least x y) (min r s) := by
  rw [least_eq (isNumber_of_isFinite hx.finite) (isNumber_of_isFinite hy.finite),
    min_comm, min_def_lt]
  exact .ite (hexact.lt_iff_lt hy hx) hy hx

theorem clamp {lower upper : α} {l u : ℝ} (hx : Denotes value x r) (hlower : Denotes value lower l)
    (hupper : Denotes value upper u) :
    Denotes value (Scalar.clamp x lower upper) (min u (max l r)) :=
  hexact.least hupper (hexact.greatest hlower hx)

theorem same_zero_iff (hx : Denotes value x r) : same x 0 = true ↔ r = 0 := by
  rw [hexact.toIsExact.same_iff hx.finite hexact.zero.finite, hx.value_eq, hexact.value_zero]

theorem pos_iff (hx : Denotes value x r) : 0 < x ↔ 0 < r := hexact.lt_iff_lt hexact.zero hx

theorem isPositive_iff : isPositive x = true ↔ ∃ r, Denotes value x r ∧ 0 < r := by
  rw [isPositive, Bool.and_eq_true, decide_eq_true_iff]
  constructor
  · rintro ⟨hfinite, hpos⟩
    exact ⟨value x, denotes_value value hfinite,
      (hexact.pos_iff (denotes_value value hfinite)).mp hpos⟩
  · rintro ⟨r, hr, hpos⟩
    exact ⟨hr.finite, (hexact.pos_iff hr).mpr hpos⟩

omit [StrictScalar α] in
theorem isNonNegative_iff : isNonNegative x = true ↔ ∃ r, Denotes value x r ∧ 0 ≤ r := by
  rw [isNonNegative, Bool.and_eq_true, decide_eq_true_iff]
  constructor
  · rintro ⟨hfinite, hle⟩
    exact ⟨value x, denotes_value value hfinite,
      (hexact.le_iff_le hexact.zero (denotes_value value hfinite)).mp hle⟩
  · rintro ⟨r, hr, hle⟩
    exact ⟨hr.finite, (hexact.le_iff_le hexact.zero hr).mpr hle⟩

theorem value_pos (h : isPositive x = true) : 0 < value x := by
  obtain ⟨r, hr, hpos⟩ := hexact.isPositive_iff.mp h
  exact hpos.trans_eq hr.value_eq.symm

omit [StrictScalar α] in
theorem value_nonneg (h : isNonNegative x = true) : 0 ≤ value x := by
  obtain ⟨r, hr, hle⟩ := hexact.isNonNegative_iff.mp h
  exact hle.trans_eq hr.value_eq.symm

/-! ## What is not below zero -/

omit [StrictScalar α] in
theorem isNonNegative_add (hx : isNonNegative x = true) (hy : isNonNegative y = true) :
    isNonNegative (x + y) = true := by
  obtain ⟨r, hr, hle⟩ := hexact.isNonNegative_iff.mp hx
  obtain ⟨s, hs, hle'⟩ := hexact.isNonNegative_iff.mp hy
  exact hexact.isNonNegative_iff.mpr ⟨r + s, hexact.add hr hs, add_nonneg hle hle'⟩

omit [StrictScalar α] in
theorem isNonNegative_mul (hx : isNonNegative x = true) (hy : isNonNegative y = true) :
    isNonNegative (x * y) = true := by
  obtain ⟨r, hr, hle⟩ := hexact.isNonNegative_iff.mp hx
  obtain ⟨s, hs, hle'⟩ := hexact.isNonNegative_iff.mp hy
  exact hexact.isNonNegative_iff.mpr ⟨r * s, hexact.mul hr hs, mul_nonneg hle hle'⟩

theorem isNonNegative_div (hx : isNonNegative x = true) (hy : isPositive y = true) :
    isNonNegative (x / y) = true := by
  obtain ⟨r, hr, hle⟩ := hexact.isNonNegative_iff.mp hx
  obtain ⟨s, hs, hpos⟩ := hexact.isPositive_iff.mp hy
  exact hexact.isNonNegative_iff.mpr ⟨r / s, hexact.div hr hs hpos.ne', div_nonneg hle hpos.le⟩

omit [StrictScalar α] in
theorem isNonNegative_sqrt (hx : isNonNegative x = true) :
    isNonNegative (Scalar.sqrt x) = true := by
  obtain ⟨r, hr, hle⟩ := hexact.isNonNegative_iff.mp hx
  exact hexact.isNonNegative_iff.mpr ⟨√r, hexact.sqrt hr hle, Real.sqrt_nonneg r⟩

theorem isPositive_natCast {n : ℕ} (h : 0 < n) : isPositive (n : α) = true :=
  hexact.isPositive_iff.mpr ⟨n, hexact.natCast n, Nat.cast_pos.mpr h⟩

/-! ## Configuring the engine -/

/-- The whole numbers are those of the real numbers. -/
theorem isWhole_iff (hx : Denotes value x r) : isWhole x = true ↔ (⌊r⌋ : ℝ) = r := by
  have hfloor := hexact.value_floor hx.finite
  rw [isWhole, hx.finite, Bool.true_and,
    hexact.toIsExactField.toIsExact.same_iff (hexact.isFinite_floor hx.finite)
    hx.finite, hfloor, hx.value_eq]

/-- A number that passes every check of a setting. -/
theorem complaints_eq_nil {s : Config.Setting} (hx : Denotes value x r)
    (hwhole : Config.Check.whole ∈ s.checks → (⌊r⌋ : ℝ) = r)
    (hleast : ∀ bound, Config.Check.atLeast bound ∈ s.checks → bound ≤ r)
    (hpositive : Config.Check.positive ∈ s.checks → 0 < r) : Config.complaints s x = [] := by
  refine Config.complaints_eq_nil_iff.mpr
    ⟨isNaN_eq_false_iff.mpr (isNumber_of_isFinite hx.finite), fun check hcheck => ?_⟩
  cases check with
  | whole => exact Config.whole_complaint?.mpr ((hexact.isWhole_iff hx).mpr (hwhole hcheck))
  | atLeast bound =>
    rw [Config.atLeast_complaint?, hexact.lt_iff_lt hx (hexact.natCast bound), not_lt]
    exact hleast bound hcheck
  | positive =>
    rw [Config.positive_complaint?, hexact.le_iff_le hx hexact.zero, not_le]
    exact hpositive hcheck

/-- Every default passes the checks of its setting. -/
theorem default_passes (s : Config.Setting) : Config.complaints s (s.defaultNumber : α) = [] := by
  have hnat (n : ℕ) : Denotes value (OfNat.ofNat n : α) n := hexact.natCast n
  cases s with
  | lookback | fetchTimeoutMs | rewardWindow | updateIntervalSeconds | retryBackoffSeconds
  | maxHoldingTimeDays
  | orderRefreshTimeSeconds | timeHorizonSeconds | orderAmountShapeFactor | riskFactor | gammaMax
  | symbol | mode | volatilityInterval =>
    refine hexact.complaints_eq_nil (hnat _) ?_ ?_ ?_ <;> simp [Config.Setting.checks]
  | _ =>
    refine hexact.complaints_eq_nil (hexact.decimal _ _) ?_ ?_ ?_ <;>
      simp [Config.Setting.checks] <;> positivity

/-- **Where arithmetic is an exact analysis the engine can be configured.** -/
theorem standard : Config.Standard α where
  default_passes := hexact.default_passes
  one_le_of_isWhole {x} hwhole hpos := by
    have hfinite : isFinite x = true := (Bool.and_eq_true_iff.mp hwhole).1
    have hx := denotes_value value hfinite
    have hfloor := (hexact.isWhole_iff hx).mp hwhole
    have hpos' := (hexact.pos_iff hx).mp hpos
    rw [hexact.le_iff_le hexact.one hx, ← hfloor]
    rw [← hfloor] at hpos'
    exact_mod_cast Int.cast_pos.mp hpos'
  volatility_le := by
    refine (hexact.le_iff_le (hexact.decimal 5 3) (hexact.decimal 2 2)).mpr ?_
    norm_num

/-- The checks let an infinite number through, unless it has to be whole. -/
theorem complaints_infinity {s : Config.Setting} (h : Config.Check.whole ∉ s.checks) :
    Config.complaints s (infinity : α) = [] := by
  have hbelow {x : α} (hx : isFinite x = true) : ¬ infinity ≤ x :=
    not_le_of_lt (StrictScalar.lt_infinity hx)
  have hnumber : IsNumber (infinity : α) :=
    (isNumber_of_le (le_of_lt (StrictScalar.lt_infinity hexact.zero.finite))).2
  refine Config.complaints_eq_nil_iff.mpr ⟨isNaN_eq_false_iff.mpr hnumber, fun check hcheck => ?_⟩
  cases check with
  | whole => exact absurd hcheck h
  | atLeast bound =>
    rw [Config.atLeast_complaint?]
    exact fun hlt => hbelow (hexact.isFinite_natCast bound) (le_of_lt hlt)
  | positive =>
    rw [Config.positive_complaint?]
    exact hbelow hexact.zero.finite

omit [StrictScalar α] in
theorem isFinite_default {s : Config.Setting} (hs : s.isNumeric = true) :
    isFinite (s.defaultNumber : α) = true := by
  have hnat (n : ℕ) : isFinite (OfNat.ofNat n : α) = true := hexact.isFinite_natCast n
  cases s with
  | symbol | mode | volatilityInterval => cases hs
  | lookback | fetchTimeoutMs | rewardWindow | updateIntervalSeconds | retryBackoffSeconds
  | maxHoldingTimeDays | orderRefreshTimeSeconds | timeHorizonSeconds | orderAmountShapeFactor
  | riskFactor | gammaMax =>
    exact hnat _
  | _ => exact hexact.isFinite_decimal _ _

omit [StrictScalar α] in
theorem finite_preset (m : Mode) : (Config.preset m : Config α).Finite := by
  intro s hs
  rw [Config.number_preset m hs]
  exact hexact.isFinite_default hs

/-- The defaults hold together in every mode. -/
theorem check_preset (m : Mode) : (Config.preset m : Config α).check = .ok () := by
  have hone : Denotes value (1 : α) 1 := hexact.one
  have hten : Denotes value (10 : α) (10 : ℕ) := hexact.natCast 10
  have hleast : Denotes value (0.001 : α) ((1 : ℕ) / 10 ^ 3) := hexact.decimal 1 3
  have hfill : Denotes value (0.75 : α) ((75 : ℕ) / 10 ^ 2) := hexact.decimal 75 2
  have hrisk : Denotes value (0.01 : α) ((1 : ℕ) / 10 ^ 2) := hexact.decimal 1 2
  have hprobability {p : α} {r : ℝ} (hp : Denotes value p r) (hpos : 0 < r) (hlt : r < 1) :
      Sizing.isProbability p = true := by
    simp [Sizing.isProbability, (hexact.pos_iff hp).mpr hpos, (hexact.lt_iff_lt hp hone).mpr hlt]
  refine Config.check_eq_ok_iff.mpr ⟨?_, ?_, ?_, ?_, .inr ?_⟩
  · exact hexact.isPositive_iff.mpr ⟨1, hone, one_pos⟩
  · exact hprobability hfill (by norm_num) (by norm_num)
  · exact hprobability hrisk (by norm_num) (by norm_num)
  · have hpos : (0 : α) < 0.001 := (hexact.pos_iff hleast).mpr (by norm_num)
    have hle : (0.001 : α) ≤ 10 := (hexact.le_iff_le hleast hten).mpr (by norm_num)
    simp [Config.hasValidBounds, Gamma.validBounds, Config.preset, Config.Setting.defaultNumber,
      hpos, hle, hten.finite]
  · have hbelow : ¬ (1 : α) < 0.001 := by
      rw [hexact.lt_iff_lt hone hleast]
      norm_num
    have habove : ¬ (10 : α) < 1 := by
      rw [hexact.lt_iff_lt hten hone]
      norm_num
    simp [Config.riskFactorWithin, Config.preset, Config.Setting.defaultNumber, hbelow, habove]

end IsExactAnalysis

end

/-! ## Extended numbers -/

namespace Extended

open Classical in
/-- A real number is spelt by its whole part. -/
noncomputable instance : NumberText Extended where
  text
    | number x => if x = ⊤ then "Infinity" else if x = ⊥ then "-Infinity" else toString ⌊x.toReal⌋
    | undefined => "NaN"
  fixed _
    | number x => if x = ⊤ then "Infinity" else if x = ⊥ then "-Infinity" else toString ⌊x.toReal⌋
    | undefined => "NaN"

instance : Numeric Extended where
  hasText _ := rfl
  isBlank _ := rfl

theorem sqrt_number {r : ℝ} (hr : 0 ≤ r) : sqrt (number r) = number (√r : ℝ) := by
  refine (if_neg ?_).trans (congrArg number (if_neg (EReal.coe_ne_top r)))
  exact not_lt.mpr (EReal.coe_nonneg.mpr hr)

theorem ln_number {r : ℝ} (hr : 0 < r) : ln (number r) = number (Real.log r : ℝ) := by
  refine (if_neg ?_).trans (congrArg number ((if_neg ?_).trans (if_neg (EReal.coe_ne_top r))))
  · exact not_lt.mpr (EReal.coe_nonneg.mpr hr.le)
  · exact EReal.coe_ne_zero.mpr hr.ne'

theorem floor_number (r : ℝ) : floor (number r) = number ((⌊r⌋ : ℝ)) := by
  refine congrArg number (if_neg ?_)
  rintro (h | h)
  · exact EReal.coe_ne_top r h
  · exact EReal.coe_ne_bot r h

theorem ofDecimal_eq (digits exponent : ℕ) :
    (ofDecimal digits true exponent : Extended) = number ((digits / (10 : ℕ) ^ exponent : ℝ)) := rfl

/-- An infinite number is divided into infinite parts. -/
theorem div_infinite {x : EReal} (hx : x = ⊤ ∨ x = ⊥) {s : ℝ} (hs : s ≠ 0) :
    x / s = ⊤ ∨ x / s = ⊥ := by
  rcases lt_or_gt_of_ne hs with hneg | hpos
  · have hs' : (s : EReal) < 0 := EReal.coe_neg'.mpr hneg
    rcases hx with rfl | rfl
    · exact .inr (EReal.top_div_of_neg_ne_bot hs' (EReal.coe_ne_bot s))
    · exact .inl (EReal.bot_div_of_neg_ne_bot hs' (EReal.coe_ne_bot s))
  · have hs' : (0 : EReal) < s := EReal.coe_pos.mpr hpos
    rcases hx with rfl | rfl
    · exact .inl (EReal.top_div_of_pos_ne_top hs' (EReal.coe_ne_top s))
    · exact .inr (EReal.bot_div_of_pos_ne_top hs' (EReal.coe_ne_top s))

theorem isFinite_of_div_number {x : EReal} {s : ℝ} (h : isFinite (number x / number s) = true) :
    isFinite (number x) = true := by
  by_contra hnot
  have hx : x = ⊤ ∨ x = ⊥ := by
    rw [isFinite_number_iff, not_and_or, not_not, not_not] at hnot
    exact hnot
  change isFinite (if _ then undefined else if (s : EReal) = 0 then _ else number (x / s)) = true
    at h
  split_ifs at h with hfails hzero
  · simp [isFinite_number_iff] at h
  · simp [isFinite_number_iff] at h
  · rw [isFinite_number_iff] at h
    rcases div_infinite hx (mt EReal.coe_eq_zero.mpr hzero) with hinfinite | hinfinite
    · exact h.1 hinfinite
    · exact h.2 hinfinite

/-- **Extended numbers are an exact analysis.** -/
theorem isExactAnalysis : IsExactAnalysis value where
  toIsExactField := isExactField
  isFinite_natCast n := isFinite_number n
  value_natCast n := rfl
  isFinite_decimal digits exponent := isFinite_number _
  value_decimal digits exponent := by
    rw [ofDecimal_eq, Nat.cast_ofNat]
    rfl
  isFinite_of_div {a b} hb h := by
    obtain ⟨s, rfl⟩ := isFinite_iff.mp hb
    cases a with
    | undefined => cases h
    | number x => exact isFinite_of_div_number h
  isFinite_sqrt {a} ha hr := by
    obtain ⟨r, rfl⟩ := isFinite_iff.mp ha
    rw [sqrt_number (r := r) hr]
    exact isFinite_number _
  value_sqrt {a} ha hr := by
    obtain ⟨r, rfl⟩ := isFinite_iff.mp ha
    rw [sqrt_number (r := r) hr]
    rfl
  isFinite_ln {a} ha hr := by
    obtain ⟨r, rfl⟩ := isFinite_iff.mp ha
    rw [ln_number (r := r) hr]
    exact isFinite_number _
  value_ln {a} ha hr := by
    obtain ⟨r, rfl⟩ := isFinite_iff.mp ha
    rw [ln_number (r := r) hr]
    rfl
  isFinite_floor {a} ha := by
    obtain ⟨r, rfl⟩ := isFinite_iff.mp ha
    rw [floor_number]
    exact isFinite_number _
  value_floor {a} ha := by
    obtain ⟨r, rfl⟩ := isFinite_iff.mp ha
    rw [floor_number]
    rfl

instance : Config.Standard Extended := isExactAnalysis.standard

end Extended

end MarketMaker
