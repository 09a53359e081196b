import MarketMaker.Proofs.Binary64
import MarketMaker.Proofs.Literals

/-!
# Two ways to read a number

A text is read as a number by the literal that it begins with (`ofLeading`), or as a whole
(`ofWhole`). Both agree on the texts that are literals, and on those that do not even begin with
one, unless they are blank. On a text that **goes on** after a literal they differ: as a whole it is
no number, or a whole number in base two, eight or sixteen, where only a zero was seen at its start.
So they agree on such a text if it is a zero in one of these bases (`value_eq_iff`).

Numerals differ in their values where they should, as long as scalars are `Legible`: whatever a
literal says is a number, and only what is written as zero counts as zero.
-/

namespace MarketMaker

open Scalar LawfulScalar

/-- Scalars that can be told from each other by what they are read from. -/
class Legible (α : Type) [Scalar α] : Prop extends AbsorbingScalar α where
  not_isNumber_nan : ¬ IsNumber (nan : α)
  isNumber_ofDecimal (digits : ℕ) (negated : Bool) (exponent : ℕ) :
    IsNumber (ofDecimal digits negated exponent : α)
  isNumber_neg {x : α} : IsNumber x → IsNumber (-x)
  ofDecimal_zero_lt (n : ℕ) : (ofDecimal 0 false 0 : α) < ofDecimal (n + 1) false 0

namespace Binary64

open Float.Model Float.Model.UnpackedFloat

/-- The powers of ten that are stored are finite and above zero. -/
theorem power_facts :
    ∀ e : Fin 23, (Float.exactlyRepresentablePowersOfTen[e]).toModel.unpack.isFinite = true ∧
    rank (.zero .positive) < rank (Float.exactlyRepresentablePowersOfTen[e]).toModel.unpack := by
  decide +kernel

theorem isNaN_ofScientific (m : ℕ) (e : ℤ) :
    (UnpackedFloat.ofScientific Format.binary64 m e).isNaN = false := by
  unfold UnpackedFloat.ofScientific
  split
  · rfl
  · split
    · rfl
    · split
      · rfl
      · split
        · exact isNaN_roundWithAccuracy ..
        · exact isNaN_roundWithAccuracy ..

/-- A decimal is rounded to a number, however large or small it is. -/
theorem isNumber_ofScientific (m : ℕ) (negated : Bool) (e : ℕ) :
    Scalar.IsNumber (Float.ofScientific m negated e) := by
  rw [isNumber_iff]
  unfold Float.ofScientific
  split
  · next hsmall =>
    obtain ⟨hfinite, hpos⟩ := power_facts ⟨e, Nat.lt_succ_of_le hsmall.2⟩
    have hdigits : m.toUInt64.toFloat.toModel.unpack.isNaN = false :=
      (isNaN_pack _).trans (isNaN_normalize ..)
    dsimp only
    split
    · exact (isNaN_pack _).trans (isNaN_div hdigits hfinite hpos)
    · exact (isNaN_pack _).trans (isNaN_mul hdigits hfinite (.inr hpos.ne'))
  · exact (isNaN_pack _).trans (isNaN_ofScientific m _)

/-- A decimal is zero, infinite, or rounded. -/
theorem ofDecimal_cases (digits : ℕ) (negated : Bool) (exponent : ℕ) :
    binary64OfDecimal digits negated exponent = 0.0 ∨
    binary64OfDecimal digits negated exponent = 1.0 / 0.0 ∨
      binary64OfDecimal digits negated exponent = Float.ofScientific digits negated exponent := by
  unfold binary64OfDecimal
  dsimp only
  generalize (digits.log2 : ℤ) * 3 / 10 + (if negated then -(exponent : ℤ) else exponent) =
    magnitude
  split
  · exact .inl rfl
  · split
    · exact .inr (.inl rfl)
    · split
      · exact .inl rfl
      · exact .inr (.inr rfl)

/-- A whole number is infinite or rounded. -/
theorem ofDecimal_succ_cases (n : ℕ) : binary64OfDecimal (n + 1) false 0 = 1.0 / 0.0 ∨
    binary64OfDecimal (n + 1) false 0 = Float.ofScientific (n + 1) false 0 := by
  have hmagnitude :
      (0 : ℤ) ≤ ((n + 1).log2 : ℤ) * 3 / 10 + (if false = true then
        -((0 : ℕ) : ℤ) else (0 : ℕ)) := by
    rw [if_neg Bool.false_ne_true]
    omega
  rw [binary64OfDecimal, if_neg (Nat.succ_ne_zero n)]
  dsimp only at hmagnitude ⊢
  generalize ((n + 1).log2 : ℤ) * 3 / 10 + (if false = true then -((0 : ℕ) : ℤ) else (0 : ℕ)) =
    magnitude at hmagnitude ⊢
  split
  · exact .inl rfl
  · rw [if_neg (by omega)]
    exact .inr rfl

end Binary64

open Binary64 in
instance : Legible Float where
  not_isNumber_nan := by
    rw [isNumber_iff]
    exact fun h => Bool.false_ne_true (h.symm.trans rfl)
  isNumber_ofDecimal digits negated exponent := by
    change IsNumber (binary64OfDecimal digits negated exponent)
    rcases ofDecimal_cases digits negated exponent with h | h | h <;> rw [h]
    · exact isNumber_ofScientific ..
    · exact isNumber_iff.mpr rfl
    · exact isNumber_ofScientific ..
  isNumber_neg {x} h := by
    rw [isNumber_iff] at h ⊢
    rw [unpack_neg]
    exact isNaN_neg h
  ofDecimal_zero_lt n := by
    change binary64OfDecimal 0 false 0 < binary64OfDecimal (n + 1) false 0
    have hzero : binary64OfDecimal 0 false 0 ≤ (0 : Float) := by decide +kernel
    refine lt_of_le_of_lt hzero ?_
    rcases ofDecimal_succ_cases n with h | h <;> rw [h]
    · exact StrictScalar.lt_infinity isFinite_zero
    · exact zero_lt_natCast n

namespace Numeral

variable {α : Type} [Scalar α] {s : String} {n : Numeral} {cs ds : List Char}
  {mark : Char} {base : ℕ}

/-! ## Values -/

section Values

variable [Legible α]

theorem not_isNumber_value : ¬ IsNumber (notANumber.value : α) := Legible.not_isNumber_nan

theorem isNumber_value (h : n ≠ notANumber) : IsNumber (n.value : α) := by
  have hinfinity : IsNumber (infinity : α) :=
    (isNumber_of_le (le_of_lt (StrictScalar.lt_infinity isFinite_zero))).2
  cases n with
  | notANumber => exact absurd rfl h
  | infinite negative =>
    cases negative with
    | false => exact hinfinity
    | true => exact Legible.isNumber_neg hinfinity
  | decimal negative digits exponent =>
    have hmagnitude := Legible.isNumber_ofDecimal (α := α) digits (exponent < 0) exponent.natAbs
    cases negative with
    | false => exact hmagnitude
    | true => exact Legible.isNumber_neg hmagnitude

/-- What has a finite value is written in digits. -/
theorem exists_digits_of_isFinite (h : isFinite (n.value : α) = true) :
    ∃ negative digits exponent, n = decimal negative digits exponent := by
  have hinfinity : ¬ isFinite (infinity : α) = true := by
    rw [StrictScalar.isFinite_infinity]
    exact Bool.false_ne_true
  cases n with
  | notANumber => exact absurd (isNumber_of_isFinite h) not_isNumber_value
  | infinite negative =>
    cases negative with
    | false => exact absurd h hinfinity
    | true => exact absurd (AbsorbingScalar.isFinite_of_neg h) hinfinity
  | decimal negative digits exponent => exact ⟨negative, digits, exponent, rfl⟩

/-- Only zero has the value of zero. -/
theorem value_whole_eq_iff {m : ℕ} :
    (decimal false 0 0).value = ((decimal false m 0).value : α) ↔ m = 0 := by
  constructor
  · intro h
    cases m with
    | zero => rfl
    | succ m =>
      have hlt := Legible.ofDecimal_zero_lt (α := α) m
      have heq : (ofDecimal 0 false 0 : α) = ofDecimal (m + 1) false 0 := h
      rw [heq] at hlt
      exact absurd (le_of_lt hlt) (not_le_of_lt hlt)
  · rintro rfl
    rfl

end Values

theorem Literal.ne_notANumber (h : Literal cs n) : n ≠ notANumber := by
  cases h <;> exact nofun

/-! ## Other bases -/

/-- The characters that mark another base, after a zero. -/
def baseMarks : List Char := ['x', 'X', 'o', 'O', 'b', 'B']

/-- The text is a zero in another base. -/
def IsZero (s : String) : Prop :=
  ∃ mark ∈ baseMarks, ∃ zeros, zeros ≠ [] ∧ (∀ c ∈ zeros, c = '0') ∧ core s = '0' :: mark :: zeros

theorem inBase_cases (base : ℕ) (ds : List Char) :
    inBase base ds = notANumber ∨ ∃ m, inBase base ds = decimal false m 0 := by
  simp only [inBase]
  split
  · exact .inr ⟨_, rfl⟩
  · exact .inl rfl

theorem digitValue_eq_zero_iff {c : Char} : digitValue c = some 0 ↔ c = '0' := by
  constructor
  · intro h
    simp only [digitValue, isDigit, Bool.and_eq_true, decide_eq_true_eq] at h
    split at h
    · next hdigit =>
      have hle : 48 ≤ c.toNat := hdigit.1
      have hzero := Option.some.inj h
      exact Char.toNat_inj.mp (show c.toNat = 48 by omega)
    · split at h
      · next hletter =>
        have hle : 97 ≤ c.toNat := hletter.1
        have hzero := Option.some.inj h
        omega
      · split at h
        · next hletter =>
          have hle : 65 ≤ c.toNat := hletter.1
          have hzero := Option.some.inj h
          omega
        · cases h
  · rintro rfl
    rfl

/-- One more digit in a base. -/
def addDigit (base : ℕ) (read : Option ℕ) (c : Char) : Option ℕ := do
  let n ← read
  let d ← digitValue c
  if d < base then some (base * n + d) else none

theorem foldl_addDigit_none (base : ℕ) (ds : List Char) : ds.foldl (addDigit base) none = none := by
  induction ds with
  | nil => rfl
  | cons c ds ih => exact ih

/-- Only zeros are read as zero. -/
theorem foldl_addDigit_eq_zero_iff (hbase : 0 < base) (k : ℕ) :
    ds.foldl (addDigit base) (some k) = some 0 ↔ k = 0 ∧ ∀ c ∈ ds, c = '0' := by
  induction ds generalizing k with
  | nil => simp
  | cons c ds ih =>
    rw [List.foldl_cons, List.forall_mem_cons, ← digitValue_eq_zero_iff]
    cases hdigit : digitValue c with
    | none =>
      have hnone : addDigit base (some k) c = none := by simp [addDigit, hdigit]
      rw [hnone, foldl_addDigit_none]
      simp
    | some d =>
      by_cases hd : d < base
      · have hsome : addDigit base (some k) c = some (base * k + d) := by
          simp [addDigit, hdigit, hd]
        rw [hsome, ih, Nat.add_eq_zero_iff, Nat.mul_eq_zero, Option.some_inj]
        constructor
        · rintro ⟨⟨hk, rfl⟩, hds⟩
          exact ⟨hk.resolve_left hbase.ne', rfl, hds⟩
        · rintro ⟨rfl, rfl, hds⟩
          exact ⟨⟨.inr rfl, rfl⟩, hds⟩
      · have hnone : addDigit base (some k) c = none := by simp [addDigit, hdigit, hd]
        rw [hnone, foldl_addDigit_none, Option.some_inj]
        constructor
        · exact nofun
        · rintro ⟨-, rfl, -⟩
          exact absurd hbase hd

theorem inBase_cons (base : ℕ) (c : Char) (ds : List Char) : inBase base (c :: ds) =
    (((c :: ds).foldl (addDigit base) (some 0)).map fun n => decimal false n 0).getD
      notANumber := by
  simp only [inBase]
  split
  · next hread =>
    change (c :: ds).foldl (addDigit base) (some 0) = _ at hread
    rw [hread]
    rfl
  · next hnone =>
    cases hread : (c :: ds).foldl (addDigit base) (some 0) with
    | none => rfl
    | some n => exact absurd hread (hnone c ds n rfl)

theorem inBase_eq_zero_iff (hbase : 0 < base) :
    inBase base ds = decimal false 0 0 ↔ ds ≠ [] ∧ ∀ c ∈ ds, c = '0' := by
  cases ds with
  | nil => simp [inBase]
  | cons c ds =>
    have hzero : (c :: ds).foldl (addDigit base) (some 0) = some 0 ↔ ∀ d ∈ c :: ds, d = '0' :=
      (foldl_addDigit_eq_zero_iff hbase 0).trans (and_iff_right rfl)
    rw [inBase_cons, ← hzero]
    cases (c :: ds).foldl (addDigit base) (some 0) <;> simp

/-- A text with a mark is read in the base of the mark. -/
theorem ofWhole_of_mark (hmark : mark ∈ baseMarks) (h : core s = '0' :: mark :: ds) :
    ∃ base, 0 < base ∧ ofWhole s = inBase base ds := by
  rw [core] at h
  rw [ofWhole, h]
  simp only [baseMarks, List.mem_cons, List.not_mem_nil, or_false] at hmark
  rcases hmark with rfl | rfl | rfl | rfl | rfl | rfl
  · exact ⟨16, by decide, rfl⟩
  · exact ⟨16, by decide, rfl⟩
  · exact ⟨8, by decide, rfl⟩
  · exact ⟨8, by decide, rfl⟩
  · exact ⟨2, by decide, rfl⟩
  · exact ⟨2, by decide, rfl⟩

/-- Every other text has to be a literal. -/
theorem ofWhole_of_no_mark (hs : core s ≠ [])
    (h : ∀ mark ∈ baseMarks, ∀ ds, core s ≠ '0' :: mark :: ds) :
    ofWhole s = ofWhole.decimalWhole (core s) := by
  rw [core] at h hs ⊢
  rw [ofWhole]
  generalize Text.trimChars s.toList = cs at h hs ⊢
  split
  · exact absurd rfl hs
  · next mark ds =>
    have hnot : mark ∉ baseMarks := fun hmark => h mark hmark ds rfl
    simp only [baseMarks, List.mem_cons, List.not_mem_nil, or_false, not_or] at hnot
    obtain ⟨hx, hX, ho, hO, hb, hB⟩ := hnot
    rw [if_neg (not_or.mpr ⟨hx, hX⟩), if_neg (not_or.mpr ⟨ho, hO⟩), if_neg (not_or.mpr ⟨hb, hB⟩)]
  · rfl

/-- No literal has a mark of a base in it. -/
theorem Literal.no_mark (h : Literal cs n) (hmark : mark ∈ baseMarks) (ds : List Char) :
    cs ≠ '0' :: mark :: ds := by
  rintro rfl
  exact (isLiteralChar_facts (h.chars mark (by simp))).2 hmark

/-- A text with a mark begins with a zero, and goes on. -/
theorem goesOn_of_mark (hmark : mark ∈ baseMarks) (h : core s = '0' :: mark :: ds) :
    GoesOn s (decimal false 0 0) := by
  have hread : literal (core s) = some (decimal false 0 0, mark :: ds) := by
    rw [h]
    simp only [baseMarks, List.mem_cons, List.not_mem_nil, or_false] at hmark
    rcases hmark with rfl | rfl | rfl | rfl | rfl | rfl <;> rfl
  obtain ⟨front, hlongest⟩ := literal_eq_some_iff.mp hread
  exact ⟨front, mark :: ds, List.cons_ne_nil _ _, hlongest⟩

/-! ## Readings that agree -/

theorem ofWhole_of_isLiteral (h : IsLiteral s n) : ofWhole s = n := by
  rw [ofWhole_of_no_mark (Literal.ne_nil h) fun mark hmark ds => Literal.no_mark h hmark ds,
    ofWhole.decimalWhole, literal_eq_whole_iff.mpr h]

/-- Numbers that one text begins with are one. -/
theorem ofWhole_trim (s : String) : ofWhole (Text.trim s) = ofWhole s := by
  rw [ofWhole, ofWhole, Text.trim, String.toList_ofList,
    Text.trimChars_eq_self_iff.mpr (Text.isTrimmed_trimChars _)]

theorem GoesOn.unique {m : Numeral} (h : GoesOn s n) (h' : GoesOn s m) : n = m :=
  (ofLeading_of_goesOn h).symm.trans (ofLeading_of_goesOn h')

theorem GoesOn.not_lacksLiteral (h : GoesOn s n) : ¬ LacksLiteral s := by
  obtain ⟨front, rest, -, hcs, hliteral, -⟩ := h
  exact fun hlacks => hlacks front rest n hcs hliteral

theorem ofWhole_of_lacksLiteral (hs : core s ≠ []) (h : LacksLiteral s) :
    ofWhole s = notANumber := by
  rw [ofWhole_of_no_mark hs fun mark hmark ds hcore =>
    (goesOn_of_mark hmark hcore).not_lacksLiteral h, ofWhole.decimalWhole,
      literal_eq_none_iff.mpr h]

/-- A text that goes on is no number as a whole if it has no mark. -/
theorem GoesOn.ofWhole_of_no_mark (h : GoesOn s n)
    (hmark : ∀ mark ∈ baseMarks, ∀ ds, core s ≠ '0' :: mark :: ds) : ofWhole s = notANumber := by
  obtain ⟨front, rest, hrest, hlongest⟩ := h
  have hs : core s ≠ [] := by
    rw [hlongest.split]
    exact List.append_ne_nil_of_right_ne_nil _ hrest
  rw [Numeral.ofWhole_of_no_mark hs hmark, ofWhole.decimalWhole,
    literal_eq_some_iff.mpr ⟨front, hlongest⟩]
  cases rest with
  | nil => exact absurd rfl hrest
  | cons => rfl

/-- What a text that goes on is as a whole: no number, or one in another base where only a zero
stands at its start. It is a zero itself only if it is written with zeros. -/
theorem GoesOn.ofWhole_cases (h : GoesOn s n) : ofWhole s = notANumber ∧ ¬ IsZero s ∨
    n = decimal false 0 0 ∧ ∃ m, ofWhole s = decimal false m 0 ∧ (m = 0 ↔ IsZero s) := by
  have hzero : IsZero s → ofWhole s = decimal false 0 0 := by
    rintro ⟨mark, hmark, zeros, hne, hzeros, hcore⟩
    obtain ⟨base, hbase, hwhole⟩ := ofWhole_of_mark hmark hcore
    rw [hwhole]
    exact (inBase_eq_zero_iff hbase).mpr ⟨hne, hzeros⟩
  by_cases hmark : ∃ mark ∈ baseMarks, ∃ ds, core s = '0' :: mark :: ds
  · obtain ⟨mark, hmark, ds, hcore⟩ := hmark
    obtain ⟨base, hbase, hwhole⟩ := ofWhole_of_mark hmark hcore
    rcases inBase_cases base ds with hnone | ⟨m, hsome⟩
    · refine .inl ⟨hwhole.trans hnone, fun hs => ?_⟩
      rw [hzero hs] at hwhole
      cases hwhole.trans hnone
    · refine .inr ⟨h.unique (goesOn_of_mark hmark hcore), m, hwhole.trans hsome, ?_⟩
      constructor
      · rintro rfl
        obtain ⟨hne, hzeros⟩ := (inBase_eq_zero_iff hbase).mp hsome
        exact ⟨mark, hmark, ds, hne, hzeros, hcore⟩
      · intro hs
        rw [hwhole, hsome] at hzero
        exact (decimal.inj (hzero hs)).2.1
  · push Not at hmark
    refine .inl ⟨h.ofWhole_of_no_mark hmark, ?_⟩
    rintro ⟨mark, hmem, zeros, -, -, hcore⟩
    exact hmark mark hmem zeros hcore

/-- Both readings of a text agree: it is a literal, begins with none, or is a zero in another
base. -/
def ReadsAlike (s : String) : Prop := (∃ n, IsLiteral s n) ∨ LacksLiteral s ∨ IsZero s

/-- **Two readings have one value if and only if they agree.** -/
theorem value_eq_iff [Legible α] (hs : core s ≠ []) :
    ((ofLeading s).value : α) = (ofWhole s).value ↔ ReadsAlike s := by
  rcases literal_cases s with ⟨n, hliteral⟩ | ⟨n, hgoesOn⟩ | hlacks
  · rw [ofLeading_of_isLiteral hliteral, ofWhole_of_isLiteral hliteral]
    exact iff_of_true rfl (.inl ⟨n, hliteral⟩)
  · have hzero : ReadsAlike s ↔ IsZero s := by
      rw [ReadsAlike, or_iff_right fun ⟨_, hliteral⟩ => hgoesOn.not_isLiteral hliteral,
        or_iff_right hgoesOn.not_lacksLiteral]
    rw [hzero, ofLeading_of_goesOn hgoesOn]
    rcases hgoesOn.ofWhole_cases with ⟨hwhole, hnot⟩ | ⟨rfl, m, hwhole, hm⟩
    · refine iff_of_false (fun heq => ?_) hnot
      obtain ⟨front, rest, -, hlongest⟩ := hgoesOn
      have hnumber := isNumber_value (α := α) hlongest.literal.ne_notANumber
      rw [heq, hwhole] at hnumber
      exact not_isNumber_value hnumber
    · rw [hwhole, value_whole_eq_iff, hm]
  · rw [ofLeading_of_lacksLiteral hlacks, ofWhole_of_lacksLiteral hs hlacks]
    exact iff_of_true rfl (.inr (.inl hlacks))

end Numeral

end MarketMaker
