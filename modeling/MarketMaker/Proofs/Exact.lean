import MarketMaker.Proofs.Laws

/-!
# Exact arithmetic

Arithmetic **is exact** when its finite values are real numbers and are added and multiplied as
these: nothing is rounded and nothing overflows. It is **an exact field** when they are subtracted
and divided as these, too.

`Extended` is such a type, with both infinities and a value that is not a number. Infinities combine
as they do in floating point.
-/

namespace MarketMaker

open Scalar

/-- The finite values are read as real numbers, and nothing is lost in computing with them. -/
structure IsExact {α : Type} [Scalar α] (value : α → ℝ) : Prop where
  /-- Sums of finite values are finite. -/
  isFinite_add {x y : α} : isFinite x = true → isFinite y = true → isFinite (x + y) = true
  /-- They are the real sums. -/
  value_add {x y : α} : isFinite x = true → isFinite y = true → value (x + y) = value x + value y
  /-- Products of finite values are finite. -/
  isFinite_mul {x y : α} : isFinite x = true → isFinite y = true → isFinite (x * y) = true
  /-- They are the real products. -/
  value_mul {x y : α} : isFinite x = true → isFinite y = true → value (x * y) = value x * value y
  /-- Zero is zero. -/
  value_zero : value 0 = 0
  /-- One is one. -/
  value_one : value 1 = 1
  /-- Minus one is minus one. -/
  value_neg_one : value (-1) = -1
  /-- Finite values are compared as the real numbers are. -/
  le_iff {x y : α} : isFinite x = true → isFinite y = true → (x ≤ y ↔ value x ≤ value y)

/-- Also opposites, differences and quotients are those of the real numbers. -/
structure IsExactField {α : Type} [Scalar α] (value : α → ℝ) : Prop extends IsExact value where
  /-- Opposites are the real opposites. -/
  value_neg {x : α} : isFinite x = true → value (-x) = -value x
  /-- Differences of finite values are finite. -/
  isFinite_sub {x y : α} : isFinite x = true → isFinite y = true → isFinite (x - y) = true
  /-- They are the real differences. -/
  value_sub {x y : α} : isFinite x = true → isFinite y = true → value (x - y) = value x - value y
  /-- Quotients of finite values are finite, unless the divisor is zero. -/
  isFinite_div {x y : α} : isFinite x = true → isFinite y = true → value y ≠ 0 →
    isFinite (x / y) = true
  /-- They are the real quotients. -/
  value_div {x y : α} : isFinite x = true → isFinite y = true → value y ≠ 0 →
    value (x / y) = value x / value y

/-- A sign is exactly one or minus one. -/
theorem IsExact.abs_of_isSign {α : Type} [Scalar α] {value : α → ℝ} (hexact : IsExact value) {x : α}
    (h : IsSign x) : |value x| = 1 := by
  obtain rfl | rfl := h
  · rw [hexact.value_one, abs_one]
  · rw [hexact.value_neg_one, abs_neg, abs_one]

theorem IsExact.same_iff {α : Type} [Scalar α] [LawfulScalar α] {value : α → ℝ}
    (hexact : IsExact value) {x y : α} (hx : isFinite x = true) (hy : isFinite y = true) :
    same x y = true ↔ value x = value y := by
  rw [LawfulScalar.same_iff, hexact.le_iff hx hy, hexact.le_iff hy hx]
  exact le_antisymm_iff.symm

/-- The distance from zero is the absolute value. -/
theorem IsExactField.value_abs {α : Type} [Scalar α] [StrictScalar α] {value : α → ℝ}
    (hexact : IsExactField value) {x : α} (hx : isFinite x = true) :
    value (Scalar.abs x) = |value x| := by
  have hzero := LawfulScalar.isFinite_zero (α := α)
  rw [Scalar.abs, LawfulScalar.plain_eq]
  by_cases hneg : x < 0
  · have hle := (hexact.le_iff hx hzero).mp (LawfulScalar.le_of_lt hneg)
    rw [hexact.value_zero] at hle
    rw [if_pos hneg, hexact.value_neg hx, abs_of_nonpos hle]
  · have hge :=
      LawfulScalar.le_of_not_lt (LawfulScalar.isNumber_of_isFinite hx)
        LawfulScalar.isNumber_zero hneg
    rw [hexact.le_iff hzero hx, hexact.value_zero] at hge
    rw [if_neg hneg, abs_of_nonneg hge]

section Finite

variable {α : Type} [Scalar α] {value : α → ℝ}

/-- Exact sums are finite exactly if both parts are, and so are differences and products. -/
theorem IsExactField.isFinite_add_iff [StrictScalar α] (hexact : IsExactField value) {x y : α} :
    isFinite (x + y) = true ↔ isFinite x = true ∧ isFinite y = true :=
  ⟨StrictScalar.isFinite_of_add, fun ⟨hx, hy⟩ => hexact.isFinite_add hx hy⟩

theorem IsExactField.isFinite_sub_iff [StrictScalar α] (hexact : IsExactField value) {x y : α} :
    isFinite (x - y) = true ↔ isFinite x = true ∧ isFinite y = true :=
  ⟨StrictScalar.isFinite_of_sub, fun ⟨hx, hy⟩ => hexact.isFinite_sub hx hy⟩

theorem IsExactField.isFinite_mul_iff [AbsorbingScalar α] (hexact : IsExactField value) {x y : α} :
    isFinite (x * y) = true ↔ isFinite x = true ∧ isFinite y = true :=
  ⟨AbsorbingScalar.isFinite_of_mul, fun ⟨hx, hy⟩ => hexact.isFinite_mul hx hy⟩

end Finite

/-- A finite number within bounds that is moved by a finite step, and back into the bounds, moves by
no more than the step. -/
theorem IsExact.abs_clamp_add_sub_le {α : Type} [Scalar α] [LawfulScalar α] {value : α → ℝ}
    (hexact : IsExact value) {x step lower upper : α} (hstep : isFinite step = true)
    (hbounds : isFinite lower = true ∧ isFinite upper = true) (hlower : lower ≤ x)
    (hupper : x ≤ upper) :
    |value (clamp (x + step) lower upper) - value x| ≤ |value step| := by
  have hx := LawfulScalar.isFinite_of_between hbounds.1 hbounds.2 hlower hupper
  have hsum := hexact.isFinite_add hx hstep
  obtain ⟨hleast, hmost, hdown, hup⟩ :=
    LawfulScalar.clamp_spec (LawfulScalar.le_trans hlower hupper)
    (LawfulScalar.isNumber_of_isFinite hsum)
  have hclamp := LawfulScalar.isFinite_of_between hbounds.1 hbounds.2 hleast hmost
  have hvalue := hexact.value_add hx hstep
  have hbelow := (hexact.le_iff hbounds.1 hx).mp hlower
  have habove := (hexact.le_iff hx hbounds.2).mp hupper
  rw [hexact.le_iff hclamp hsum, hexact.le_iff hclamp hbounds.1] at hdown
  rw [hexact.le_iff hsum hclamp, hexact.le_iff hbounds.2 hclamp] at hup
  rw [abs_le]
  constructor
  · rcases hup with h | h
    · linarith [neg_abs_le (value step)]
    · linarith [abs_nonneg (value step)]
  · rcases hdown with h | h
    · linarith [le_abs_self (value step)]
    · linarith [abs_nonneg (value step)]

/-- Real numbers with both infinities, and a value that is not a number. -/
inductive Extended where
  /-- A real number or an infinity. -/
  | number (x : EReal)
  /-- What is not a number. -/
  | undefined

namespace Extended

open Classical in
noncomputable instance : Scalar Extended where
  add
    | number x, number y => if x = ⊤ ∧ y = ⊥ ∨ x = ⊥ ∧ y = ⊤ then undefined else number (x + y)
    | _, _ => undefined
  sub
    | number x, number y => if x = ⊤ ∧ y = ⊤ ∨ x = ⊥ ∧ y = ⊥ then undefined else number (x - y)
    | _, _ => undefined
  mul
    | number x, number y =>
      if x = 0 ∧ (y = ⊤ ∨ y = ⊥) ∨ (x = ⊤ ∨ x = ⊥) ∧ y = 0 then undefined else number (x * y)
    | _, _ => undefined
  div
    | number x, number y =>
      if x = 0 ∧ y = 0 ∨ (x = ⊤ ∨ x = ⊥) ∧ (y = ⊤ ∨ y = ⊥) then undefined
      else if y = 0 then number (if 0 < x then ⊤ else ⊥)
      else number (x / y)
    | _, _ => undefined
  neg
    | number x => number (-x)
    | undefined => undefined
  natCast n := number n
  lt
    | number x, number y => x < y
    | _, _ => False
  le
    | number x, number y => x ≤ y
    | _, _ => False
  ofDecimal digits negated exponent :=
    number (if negated then (digits / (10 : ℕ) ^ exponent : ℝ)
      else (digits * (10 : ℕ) ^ exponent : ℝ))
  sqrt
    | number x => if x < 0 then undefined else number (if x = ⊤ then ⊤ else (√x.toReal : ℝ))
    | undefined => undefined
  ln
    | number x =>
      if x < 0 then undefined
      else number (if x = 0 then ⊥ else if x = ⊤ then ⊤ else (Real.log x.toReal : ℝ))
    | undefined => undefined
  floor
    | number x => number (if x = ⊤ ∨ x = ⊥ then x else (⌊x.toReal⌋ : ℝ))
    | undefined => undefined
  truncate
    | number x => if 0 ≤ x.toReal then ⌊x.toReal⌋ else ⌈x.toReal⌉
    | undefined => 0
  isFinite
    | number x => decide (x ≠ ⊤ ∧ x ≠ ⊥)
    | undefined => false
  nan := undefined
  infinity := number ⊤
  decLt _ _ := propDecidable _
  decLe _ _ := propDecidable _

/-- The real number that a finite value is, and zero for every other value. -/
noncomputable def value : Extended → ℝ
  | number x => x.toReal
  | undefined => 0

variable {x y : EReal} {r s : ℝ} {a b : Extended}

theorem le_number : number x ≤ number y ↔ x ≤ y := Iff.rfl

theorem lt_number : number x < number y ↔ x < y := Iff.rfl

theorem zero_eq : (0 : Extended) = number (0 : ℝ) := by
  change number ((0 : ℕ) : EReal) = _
  simp

theorem one_eq : (1 : Extended) = number (1 : ℝ) := by
  change number ((1 : ℕ) : EReal) = _
  simp

theorem neg_one_eq : (-1 : Extended) = number (-1 : ℝ) := by
  rw [one_eq]
  rfl

theorem isNumber_iff : IsNumber a ↔ ∃ x, a = number x := by
  cases a with
  | number x => exact iff_of_true (le_refl x) ⟨x, rfl⟩
  | undefined => exact iff_of_false id nofun

theorem isFinite_number_iff : isFinite (number x) = true ↔ x ≠ ⊤ ∧ x ≠ ⊥ := by
  change decide (x ≠ ⊤ ∧ x ≠ ⊥) = true ↔ _
  rw [decide_eq_true_iff]

/-- The finite values are the real numbers. -/
theorem isFinite_iff : isFinite a = true ↔ ∃ r : ℝ, a = number r := by
  cases a with
  | number x =>
    rw [isFinite_number_iff]
    constructor
    · exact fun h => ⟨x.toReal, by rw [EReal.coe_toReal h.1 h.2]⟩
    · rintro ⟨r, h⟩
      obtain rfl := number.inj h
      exact ⟨EReal.coe_ne_top r, EReal.coe_ne_bot r⟩
  | undefined => exact iff_of_false Bool.false_ne_true nofun

theorem isFinite_number (r : ℝ) : isFinite (number r) = true := isFinite_iff.mpr ⟨r, rfl⟩

theorem same_iff (a b : Extended) : same a b = true ↔ a ≤ b ∧ b ≤ a := by
  change (@decide (a ≤ b) (Classical.propDecidable _) &&
    @decide (b ≤ a) (Classical.propDecidable _)) = true ↔ _
  rw [Bool.and_eq_true, decide_eq_true_iff, decide_eq_true_iff]

theorem same_zero_iff : same (number r) 0 = true ↔ r = 0 := by
  rw [same_iff, zero_eq, le_number, le_number, EReal.coe_le_coe_iff, EReal.coe_le_coe_iff]
  exact le_antisymm_iff.symm

/-- What is undefined only in one case is a number in every other. -/
theorem isNumber_ite {fails : Prop} [Decidable fails] (h : ¬ fails) :
    IsNumber (if fails then undefined else number x) := by
  rw [if_neg h]
  exact le_refl x

/-- What is finite unless it is undefined. -/
theorem isFinite_of_isFinite_ite {fails : Prop} [Decidable fails]
    (h : isFinite (if fails then undefined else number x) = true) : ¬ fails ∧ x ≠ ⊤ ∧ x ≠ ⊥ := by
  by_cases hfails : fails
  · rw [if_pos hfails] at h
    cases h
  · rw [if_neg hfails] at h
    exact ⟨hfails, isFinite_number_iff.mp h⟩

theorem add_number (r s : ℝ) : number r + number s = number (r + s : ℝ) := by
  refine (if_neg ?_).trans ?_
  · simp
  · rw [EReal.coe_add]

theorem mul_number (r s : ℝ) : number r * number s = number (r * s : ℝ) := by
  refine (if_neg ?_).trans ?_
  · simp
  · rw [EReal.coe_mul]

theorem neg_number (r : ℝ) : -number r = number (-r : ℝ) := by
  change number (-(r : EReal)) = _
  rw [EReal.coe_neg]

theorem sub_number (r s : ℝ) : number r - number s = number (r - s : ℝ) := by
  refine (if_neg ?_).trans ?_
  · simp
  · rw [EReal.coe_sub]

theorem div_number (r : ℝ) (hs : s ≠ 0) : number r / number s = number (r / s : ℝ) := by
  have hs' : (s : EReal) ≠ 0 := EReal.coe_ne_zero.mpr hs
  refine (if_neg ?_).trans ((if_neg hs').trans ?_)
  · simp [hs']
  · rw [EReal.coe_div]

/-- A natural number is its own floor. -/
theorem isWhole_natCast (n : ℕ) : isWhole (number (n : ℝ)) = true := by
  have hfloor : floor (number (n : ℝ)) = number (n : ℝ) := by
    refine congrArg number ((if_neg ?_).trans ?_)
    · rintro (h | h)
      · exact EReal.coe_ne_top _ h
      · exact EReal.coe_ne_bot _ h
    · rw [EReal.toReal_coe, Int.floor_natCast, Int.cast_natCast]
  rw [isWhole, hfloor, isFinite_number, Bool.true_and, same_iff, le_number]
  exact ⟨le_refl _, le_refl _⟩

instance : LawfulScalar Extended where
  plain_eq _ := rfl
  same_iff := same_iff
  le_trans {a b c} hab hbc := by
    cases a <;> cases b <;> cases c <;> first | exact le_trans (α := EReal) hab hbc | trivial
  isNumber_of_le {a b} h := by
    cases a <;> cases b <;> first | exact ⟨le_refl (α := EReal) _, le_refl (α := EReal) _⟩ | trivial
  le_total {a b} ha hb := by
    obtain ⟨x, rfl⟩ := isNumber_iff.mp ha
    obtain ⟨y, rfl⟩ := isNumber_iff.mp hb
    exact le_total x y
  lt_iff {a b} := by
    cases a <;> cases b <;>
      first | exact lt_iff_le_not_ge (α := EReal) | exact iff_of_false id fun h => h.1
  isNumber_of_isFinite h := by
    obtain ⟨r, rfl⟩ := isFinite_iff.mp h
    exact le_refl (r : EReal)
  isFinite_of_between {a b c} ha hc hab hbc := by
    obtain ⟨r, rfl⟩ := isFinite_iff.mp ha
    obtain ⟨t, rfl⟩ := isFinite_iff.mp hc
    cases b with
    | number y =>
      have hbot : y ≠ ⊥ := ne_bot_of_le_ne_bot (EReal.coe_ne_bot r) hab
      have htop : y ≠ ⊤ := ne_top_of_le_ne_top (EReal.coe_ne_top t) hbc
      exact isFinite_iff.mpr ⟨y.toReal, by rw [EReal.coe_toReal htop hbot]⟩
    | undefined => cases hab
  isFinite_one := by
    rw [one_eq]
    exact isFinite_number 1
  isFinite_neg_one := by
    rw [neg_one_eq]
    exact isFinite_number (-1)
  zero_lt_one := by
    rw [zero_eq, one_eq, lt_number, EReal.coe_lt_coe_iff]
    exact zero_lt_one
  neg_one_lt_zero := by
    rw [zero_eq, neg_one_eq, lt_number, EReal.coe_lt_coe_iff]
    exact neg_one_lt_zero
  isNumber_add {a b} ha hb h := by
    obtain ⟨x, rfl⟩ := isNumber_iff.mp ha
    obtain ⟨y, rfl⟩ := isNumber_iff.mp hb
    refine isNumber_ite ?_
    rcases h with h | h
    · obtain ⟨r, hr⟩ := isFinite_iff.mp h
      simp [number.inj hr]
    · obtain ⟨r, hr⟩ := isFinite_iff.mp h
      simp [number.inj hr]
  isNumber_sub {a b} ha hb h := by
    obtain ⟨x, rfl⟩ := isNumber_iff.mp ha
    obtain ⟨y, rfl⟩ := isNumber_iff.mp hb
    refine isNumber_ite ?_
    rcases h with h | h
    · obtain ⟨r, hr⟩ := isFinite_iff.mp h
      simp [number.inj hr]
    · obtain ⟨r, hr⟩ := isFinite_iff.mp h
      simp [number.inj hr]
  isNumber_mul_of_isFinite {a b} ha hb := by
    obtain ⟨r, rfl⟩ := isFinite_iff.mp ha
    obtain ⟨s, rfl⟩ := isFinite_iff.mp hb
    rw [mul_number]
    exact le_refl ((r * s : ℝ) : EReal)
  isNumber_mul_of_ne_zero {a b} ha hb h := by
    obtain ⟨x, rfl⟩ := isNumber_iff.mp ha
    obtain ⟨s, rfl⟩ := isFinite_iff.mp hb
    rw [← Bool.not_eq_true, same_zero_iff] at h
    refine isNumber_ite ?_
    simp [h]
  isNumber_div {a b} ha hb h := by
    obtain ⟨x, rfl⟩ := isNumber_iff.mp ha
    obtain ⟨s, rfl⟩ := isFinite_iff.mp hb
    rw [zero_eq, lt_number] at h
    have hs : (s : EReal) ≠ 0 := ne_of_gt h
    change IsNumber (if _ then undefined else if (s : EReal) = 0 then _ else _)
    rw [if_neg (by simp [hs]), if_neg hs]
    exact le_refl (x / s)
  mul_same_zero {a b} ha hb h := by
    obtain ⟨r, rfl⟩ := isFinite_iff.mp ha
    obtain ⟨s, rfl⟩ := isFinite_iff.mp hb
    rw [same_zero_iff, same_zero_iff] at h
    rw [mul_number, same_zero_iff]
    exact mul_eq_zero.mpr h
  isFinite_natCast {n} _ := isFinite_iff.mpr ⟨n, rfl⟩
  zero_lt_natCast n := by
    rw [zero_eq]
    change ((0 : ℝ) : EReal) < ((n + 1 : ℕ) : EReal)
    exact_mod_cast Nat.succ_pos n

/-- **Extended numbers are exact.** -/
theorem isExact : IsExact value where
  isFinite_add {a b} ha hb := by
    obtain ⟨r, rfl⟩ := isFinite_iff.mp ha
    obtain ⟨s, rfl⟩ := isFinite_iff.mp hb
    rw [add_number]
    exact isFinite_number (r + s)
  value_add {a b} ha hb := by
    obtain ⟨r, rfl⟩ := isFinite_iff.mp ha
    obtain ⟨s, rfl⟩ := isFinite_iff.mp hb
    rw [add_number]
    rfl
  isFinite_mul {a b} ha hb := by
    obtain ⟨r, rfl⟩ := isFinite_iff.mp ha
    obtain ⟨s, rfl⟩ := isFinite_iff.mp hb
    rw [mul_number]
    exact isFinite_number (r * s)
  value_mul {a b} ha hb := by
    obtain ⟨r, rfl⟩ := isFinite_iff.mp ha
    obtain ⟨s, rfl⟩ := isFinite_iff.mp hb
    rw [mul_number]
    rfl
  value_zero := by
    rw [zero_eq]
    rfl
  value_one := by
    rw [one_eq]
    rfl
  value_neg_one := by
    rw [neg_one_eq]
    rfl
  le_iff {a b} ha hb := by
    obtain ⟨r, rfl⟩ := isFinite_iff.mp ha
    obtain ⟨s, rfl⟩ := isFinite_iff.mp hb
    exact EReal.coe_le_coe_iff

/-- Extended numbers are numbers. -/
instance : StrictScalar Extended where
  isBlank_eq_false _ := rfl
  isComposite_eq_false _ := rfl
  isFinite_of_add {a b} h := by
    cases a with
    | number x =>
      cases b with
      | number y =>
        obtain ⟨hfails, hfinite⟩ := isFinite_of_isFinite_ite h
        induction x <;> induction y <;> simp_all [isFinite_number_iff]
      | undefined => cases h
    | undefined => cases h
  isFinite_of_sub {a b} h := by
    cases a with
    | number x =>
      cases b with
      | number y =>
        obtain ⟨hfails, hfinite⟩ := isFinite_of_isFinite_ite h
        induction x <;> induction y <;> simp_all [isFinite_number_iff]
      | undefined => cases h
    | undefined => cases h
  isFinite_neg h := by
    obtain ⟨r, rfl⟩ := isFinite_iff.mp h
    rw [neg_number]
    exact isFinite_number (-r)
  zero_lt_neg {a} h := by
    cases a with
    | number x =>
      rw [zero_eq, lt_number] at h
      rw [zero_eq]
      change ((0 : ℝ) : EReal) < -x
      rw [EReal.coe_zero] at h ⊢
      exact EReal.neg_pos.mpr h
    | undefined => cases h
  lt_infinity h := by
    obtain ⟨r, rfl⟩ := isFinite_iff.mp h
    exact EReal.coe_lt_top r

/-- An infinite number is multiplied into infinite products. -/
theorem mul_infinite {x y : EReal} (hx : x = ⊤ ∨ x = ⊥) (hy : y ≠ 0) : x * y = ⊤ ∨ x * y = ⊥ := by
  rcases lt_or_gt_of_ne hy with hneg | hpos
  · rcases hx with rfl | rfl
    · exact .inr (EReal.top_mul_of_neg hneg)
    · exact .inl (EReal.bot_mul_of_neg hneg)
  · rcases hx with rfl | rfl
    · exact .inl (EReal.top_mul_of_pos hpos)
    · exact .inr (EReal.bot_mul_of_pos hpos)

instance : AbsorbingScalar Extended where
  isFinite_of_mul {a b} h := by
    cases a with
    | number x =>
      cases b with
      | number y =>
        obtain ⟨hfails, hproduct⟩ := isFinite_of_isFinite_ite h
        rw [isFinite_number_iff, isFinite_number_iff]
        by_contra hnot
        have hinfinite : x * y = ⊤ ∨ x * y = ⊥ := by
          by_cases hx : x = ⊤ ∨ x = ⊥
          · exact mul_infinite hx fun hy => hfails (.inr ⟨hx, hy⟩)
          · have hy : y = ⊤ ∨ y = ⊥ := by tauto
            rw [mul_comm]
            exact mul_infinite hy fun hx => hfails (.inl ⟨hx, hy⟩)
        tauto
      | undefined => cases h
    | undefined => cases h
  isFinite_of_neg {a} h := by
    cases a with
    | number x =>
      have hneg : -x ≠ ⊤ ∧ -x ≠ ⊥ := isFinite_number_iff.mp h
      rw [isFinite_number_iff]
      simpa [and_comm] using hneg
    | undefined => cases h

/-- **Extended numbers are an exact field.** -/
theorem isExactField : IsExactField value where
  toIsExact := isExact
  value_neg h := by
    obtain ⟨r, rfl⟩ := isFinite_iff.mp h
    rw [neg_number]
    rfl
  isFinite_sub ha hb := by
    obtain ⟨r, rfl⟩ := isFinite_iff.mp ha
    obtain ⟨s, rfl⟩ := isFinite_iff.mp hb
    rw [sub_number]
    exact isFinite_number (r - s)
  value_sub ha hb := by
    obtain ⟨r, rfl⟩ := isFinite_iff.mp ha
    obtain ⟨s, rfl⟩ := isFinite_iff.mp hb
    rw [sub_number]
    rfl
  isFinite_div ha hb h := by
    obtain ⟨r, rfl⟩ := isFinite_iff.mp ha
    obtain ⟨s, rfl⟩ := isFinite_iff.mp hb
    have hs : s ≠ 0 := h
    rw [div_number r hs]
    exact isFinite_number (r / s)
  value_div ha hb h := by
    obtain ⟨r, rfl⟩ := isFinite_iff.mp ha
    obtain ⟨s, rfl⟩ := isFinite_iff.mp hb
    have hs : s ≠ 0 := h
    rw [div_number r hs]
    rfl

end Extended

end MarketMaker
