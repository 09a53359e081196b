import MarketMaker.Proofs.Laws
import MarketMaker.Scalar.Binary64

/-!
# Binary floating point is lawful

The laws of `LawfulScalar` for the numbers that the engine runs on. A number is unpacked into a
sign, a mantissa and an exponent, an operation works on these, and its result is rounded and packed
again.

* Packing keeps apart what is a number and what is not (`isNaN_pack`), so an operation gives a
  number exactly when its unpacked form does.
* The order of unpacked numbers is the lexicographic one of `rank`: sign, exponent, mantissa.
* A positive natural number is rounded to a value of at least one (`AtLeastOne`), so it can be
  divided by; and one that counts the entries of a list is not rounded to infinity.
* The opposite of a number is not rounded (`unpack_neg`): what was unpacked can be packed again with
  either sign.
-/

namespace MarketMaker.Binary64

open Float.Model Float.Model.UnpackedFloat

/-! ## Packing -/

theorem unpack_zero (s : Sign) : (Float.Model.pack (.zero s)).unpack = .zero s := by
  cases s <;> rfl

theorem unpack_infinity (s : Sign) : (Float.Model.pack (.infinity s)).unpack = .infinity s := by
  cases s <;> rfl

/-- Fields with an exponent that is not all ones are those of a number. -/
theorem isNaN_unpack_packComponents {s : Sign} {e : BitVec 11} {m : BitVec 52} (he : e ≠ -1#_) :
    (UnpackedFloat.unpack Format.binary64 (packComponents Format.binary64 s e m)).isNaN =
      false := by
  unfold UnpackedFloat.unpack
  simp only [unpackMantissa_packComponents, unpackExponent_packComponents]
  rw [if_neg he]
  split
  · split <;> rfl
  · rfl

/-- An exponent below the greatest is not stored as all ones. -/
theorem ofNat_ne_ones {biased : Nat} (h : ¬ 2 ^ 11 ≤ biased + 1) :
    BitVec.ofNat 11 biased ≠ -1#_ := by
  intro heq
  have hall := congrArg BitVec.toNat heq
  simp at hall
  omega

/-- A finite value is packed as a number. -/
theorem isNaN_unpack_finite (s : Sign) (m : Nat) (e : Int) (hm : 0 < m) :
    (Float.Model.pack (.finite s m e hm)).unpack.isNaN = false := by
  change (UnpackedFloat.unpack Format.binary64
    (UnpackedFloat.pack Format.binary64 (.finite s m e hm))).isNaN = false
  unfold UnpackedFloat.pack
  dsimp only
  split
  · cases s <;> rfl
  · next hfits =>
    split
    · exact isNaN_unpack_packComponents (ofNat_ne_ones hfits)
    · exact isNaN_unpack_packComponents (by decide)

/-- Packing turns no number into something else. -/
theorem isNaN_pack (f : UnpackedFloat) : (Float.Model.pack f).unpack.isNaN = f.isNaN := by
  cases f with
  | notANumber => rfl
  | infinity s => rw [unpack_infinity]
  | zero s => rw [unpack_zero]
  | finite s m e hm => exact isNaN_unpack_finite s m e hm

theorem isNaN_roundWithAccuracy (spec : Format) (s : Sign) (m : Nat) (e : Int)
    (accuracy : Accuracy) : (roundWithAccuracy spec s m e accuracy).isNaN = false := by
  unfold roundWithAccuracy
  dsimp only
  split <;> rfl

theorem isNaN_normalize (spec : Format) (m e : Int) (s : Sign) :
    (UnpackedFloat.normalize spec m e s).isNaN = false := by
  unfold UnpackedFloat.normalize
  split
  · exact isNaN_roundWithAccuracy ..
  · rfl
  · exact isNaN_roundWithAccuracy ..

/-! ## Order -/

/-- Where a number stands in the order: first its sign and whether it is infinite, then its exponent
and its mantissa. -/
def rank : UnpackedFloat → ℤ ×ₗ ℤ ×ₗ ℤ
  | .notANumber => toLex (0, toLex (0, 0))
  | .infinity .negative => toLex (-2, toLex (0, 0))
  | .finite .negative m e _ => toLex (-1, toLex (-e, -(m : ℤ)))
  | .zero _ => toLex (0, toLex (0, 0))
  | .finite .positive m e _ => toLex (1, toLex (e, (m : ℤ)))
  | .infinity .positive => toLex (2, toLex (0, 0))

theorem compare_signs : ∀ s t : Sign, compare s t =
    match s, t with
    | .negative, .positive => .lt
    | .positive, .negative => .gt
    | _, _ => .eq
  | .negative, .negative => rfl
  | .negative, .positive => rfl
  | .positive, .negative => rfl
  | .positive, .positive => rfl

theorem isGE_then : ∀ o₁ o₂ : Ordering,
    (o₁.then o₂).isGE = true ↔ o₁ = .gt ∨ o₁ = .eq ∧ o₂.isGE = true := by
  decide

theorem lt_iff_rank {f g : UnpackedFloat} (hf : f.isNaN = false) (hg : g.isNaN = false) :
    f.lt g = true ↔ rank f < rank g := by
  rcases f with (_ | _) | _ | _ | ⟨_ | _, m, e, hm⟩ <;>
    rcases g with (_ | _) | _ | _ | ⟨_ | _, n, i, hn⟩ <;>
    simp_all [UnpackedFloat.lt, UnpackedFloat.compare, UnpackedFloat.isNaN, rank,
      Prod.Lex.toLex_lt_toLex, compare_signs, Ordering.swap_eq_lt, Ordering.then_eq_lt,
      Ordering.then_eq_gt, compare_lt_iff_lt, compare_gt_iff_gt]

theorem le_iff_rank {f g : UnpackedFloat} (hf : f.isNaN = false) (hg : g.isNaN = false) :
    f.le g = true ↔ rank f ≤ rank g := by
  rcases f with (_ | _) | _ | _ | ⟨_ | _, m, e, hm⟩ <;>
    rcases g with (_ | _) | _ | _ | ⟨_ | _, n, i, hn⟩ <;>
    simp_all [UnpackedFloat.le, UnpackedFloat.compare, UnpackedFloat.isNaN, rank,
      Prod.Lex.toLex_le_toLex, compare_signs, Ordering.isLE_swap, Ordering.isLE_then_iff_or,
      isGE_then, compare_lt_iff_lt, compare_gt_iff_gt, Nat.isLE_compare, Nat.isGE_compare]

theorem isNaN_of_le {f g : UnpackedFloat} (h : f.le g = true) :
    f.isNaN = false ∧ g.isNaN = false := by
  cases f <;> cases g <;> simp_all [UnpackedFloat.le, UnpackedFloat.compare, UnpackedFloat.isNaN]

theorem isNaN_of_lt {f g : UnpackedFloat} (h : f.lt g = true) :
    f.isNaN = false ∧ g.isNaN = false := by
  cases f <;> cases g <;> simp_all [UnpackedFloat.lt, UnpackedFloat.compare, UnpackedFloat.isNaN]

/-- A number is finite when it stands strictly between the two infinities. -/
theorem isFinite_iff_rank (f : UnpackedFloat) :
    f.isFinite = true ↔ f.isNaN = false ∧ -1 ≤ (ofLex (rank f)).1 ∧ (ofLex (rank f)).1 ≤ 1 := by
  rcases f with (_ | _) | _ | _ | ⟨_ | _, m, e, hm⟩ <;>
    simp [UnpackedFloat.isFinite, UnpackedFloat.isNaN, rank]


/-! ## Natural numbers -/

/-- At least one, with an exponent of no more than `most`: what a positive natural number is rounded
to. -/
inductive AtLeastOne (most : Int) : UnpackedFloat → Prop where
  /-- It was rounded up beyond the greatest finite number. -/
  | infinity (hoverflow : 972 ≤ most) : AtLeastOne most (.infinity .positive)
  /-- It has a mantissa of full length. -/
  | finite {m : Nat} {e : Int} (hm : 0 < m) (hmantissa : m.log2 = 52) (hexponent : -52 ≤ e)
    (hmost : e ≤ most) : AtLeastOne most (.finite .positive m e hm)

theorem AtLeastOne.rank_pos {most : Int} {f : UnpackedFloat} (h : AtLeastOne most f) :
    f.isNaN = false ∧ 0 < (ofLex (rank f)).1 := by
  cases h <;> simp [UnpackedFloat.isNaN, rank]

theorem AtLeastOne.isFinite {most : Int} {f : UnpackedFloat} (h : AtLeastOne most f)
    (hfits : most < 972) : f.isFinite = true := by
  cases h with
  | infinity hoverflow => omega
  | finite => rfl

theorem unpackSign_packComponents {spec : Format} (s : Sign) (e : BitVec spec.exponentBits)
    (m : BitVec spec.mantissaBitsWithoutImplicit) :
    Sign.ofBitVec (unpackSign (packComponents spec s e m)) = s := by
  have hsign : unpackSign (packComponents spec s e m) = s.toBitVec := by
    ext i hi
    obtain rfl : i = 0 := by omega
    simp [unpackSign, packComponents, BitVec.getLsbD_append, BitVec.getElem_append]
  rw [hsign]
  cases s <;> rfl

/-- The leading bit of a mantissa at full precision is one, though it is not stored. -/
theorem log2_leading (m : BitVec 52) : (1#1 ++ m).toNat.log2 = 52 := by
  have hleading : 2 ^ 52 ≤ (1#1 ++ m).toNat := by
    rw [BitVec.toNat_append, Nat.shiftLeft_eq]
    exact Nat.le_trans (by simp) Nat.left_le_or
  exact (Nat.log2_eq_iff (by omega)).mpr ⟨hleading, BitVec.isLt _⟩

/-- A value of at least one at full precision is still one when it was packed. -/
theorem AtLeastOne.pack {most : Int} {m : Nat} {e : Int} (hm : 0 < m) (hmantissa : m.log2 = 52)
    (he : -52 ≤ e) (hmost : e ≤ most) :
    AtLeastOne most (Float.Model.pack (.finite .positive m e hm)).unpack := by
  change AtLeastOne most
    (UnpackedFloat.unpack Format.binary64
      (UnpackedFloat.pack Format.binary64 (.finite .positive m e hm)))
  have hlog : m.log2 + 1 = Format.binary64.mantissaBits := by
    rw [hmantissa]
    rfl
  have hbias : (Format.binary64.exponentBias : Int) = 1023 := by decide
  unfold UnpackedFloat.pack
  dsimp only
  split
  · next hoverflow =>
    refine .infinity ?_
    omega
  · next hfits =>
    generalize hbiased : (e + Format.binary64.exponentBias + 52).toNat = biased at hfits
    have hnat : (BitVec.ofNat 11 biased).toNat = biased := by
      rw [BitVec.toNat_ofNat, Nat.mod_eq_of_lt (by omega)]
    have hzero : BitVec.ofNat 11 biased ≠ 0#_ := by
      intro heq
      have hall := congrArg BitVec.toNat heq
      simp at hall
      omega
    unfold UnpackedFloat.unpack
    simp only [unpackMantissa_packComponents, unpackExponent_packComponents,
      unpackSign_packComponents]
    rw [if_neg (ofNat_ne_ones hfits), if_neg hzero]
    refine .finite _ ?_ ?_ ?_
    · exact log2_leading (BitVec.ofNat 52 m)
    · rw [hnat, hbias]
      omega
    · rw [hnat, hbias]
      omega

theorem mantissa_repeat (em : ExtendedMantissa) (n : Nat) :
    (n.repeat ExtendedMantissa.shiftRightOne em).mantissa = em.mantissa / 2 ^ n := by
  induction n with
  | zero => simp [Nat.repeat]
  | succ n ih =>
    rw [Nat.repeat, ExtendedMantissa.shiftRightOne]
    simp only [ih, Nat.pow_succ, Nat.div_div_eq_div_mul]

theorem roundedMantissa_bounds (em : ExtendedMantissa) :
    em.mantissa ≤ em.roundedMantissa ∧ em.roundedMantissa ≤ em.mantissa + 1 := by
  unfold ExtendedMantissa.roundedMantissa
  generalize em.accuracy = accuracy
  rcases accuracy with _ | (_ | _ | _) <;> simp only [Accuracy.roundToNearestEven] <;> omega

/-- Shifting brings a value of at least one to full precision. -/
theorem shiftToTargetExponent_spec {m : Nat} {e : Int} (accuracy : Accuracy) (hbits : 52 ≤ m.log2)
    (hone : 0 ≤ (m.log2 : Int) + e) :
    2 ^ 52 ≤ (shiftToTargetExponent Format.binary64 m e accuracy).1.mantissa ∧
      (shiftToTargetExponent Format.binary64 m e accuracy).1.mantissa < 2 ^ 53 ∧
      (shiftToTargetExponent Format.binary64 m e accuracy).2 = m.log2 + e - 52 := by
  have hne : m ≠ 0 := by
    rintro rfl
    simp at hbits
  have htarget : Format.binary64.targetExponent (totalExponent m e) = m.log2 + e - 52 := by
    unfold Format.targetExponent totalExponent Format.mantissaBits Format.minExponent
      Format.mantissaBits
    simp
    omega
  have hmantissa : (ExtendedMantissa.ofMantissaAndAccuracy m accuracy).mantissa = m := by
    rcases accuracy with _ | (_ | _ | _) <;> rfl
  have hshift : ((m.log2 : Int) + e - 52 - e).toNat = m.log2 - 52 := by omega
  have hpower : 2 ^ m.log2 = 2 ^ 52 * 2 ^ (m.log2 - 52) := by
    rw [← Nat.pow_add]
    congr 1
    omega
  have hleast : 2 ^ m.log2 ≤ m := Nat.log2_self_le hne
  have hmost : m < 2 ^ (m.log2 + 1) := Nat.lt_log2_self
  have hshifted : (ExtendedMantissa.ofMantissaAndAccuracy m accuracy >>> (m.log2 - 52)).mantissa =
      m / 2 ^ (m.log2 - 52) := by
    refine (mantissa_repeat _ _).trans ?_
    rw [hmantissa]
  simp only [shiftToTargetExponent, shiftToExponent, htarget, hshift, hshifted]
  refine ⟨?_, ?_, by omega⟩
  · rw [Nat.le_div_iff_mul_le (Nat.two_pow_pos _), ← hpower]
    exact hleast
  · rw [Nat.div_lt_iff_lt_mul (Nat.two_pow_pos _)]
    calc m < 2 ^ (m.log2 + 1) := hmost
      _ = 2 ^ 53 * 2 ^ (m.log2 - 52) := by
        rw [Nat.pow_succ, hpower]
        omega

/-- A value of at least one is rounded to one. Rounding up may take it to the next power of two. -/
theorem AtLeastOne.round {most : Int} {m : Nat} {e : Int} (hbits : 52 ≤ m.log2)
    (hone : 0 ≤ (m.log2 : Int) + e) (hmost : (m.log2 : Int) + e - 51 ≤ most) :
    AtLeastOne most
      (Float.Model.pack (roundWithAccuracy Format.binary64 .positive m e .exact)).unpack := by
  have hfirst := shiftToTargetExponent_spec .exact hbits hone
  unfold roundWithAccuracy
  rcases hem : shiftToTargetExponent Format.binary64 m e .exact with ⟨em, e₁⟩
  rw [hem] at hfirst
  obtain ⟨hlower, hupper, he₁⟩ := hfirst
  dsimp only at hlower hupper he₁
  obtain ⟨hup, hdown⟩ := roundedMantissa_bounds em
  have hrounded : 52 ≤ em.roundedMantissa.log2 := (Nat.le_log2 (by omega)).mpr (by omega)
  have hcarry : em.roundedMantissa.log2 ≤ 53 :=
    Nat.le_of_lt_succ ((Nat.log2_lt (by omega)).mpr (by omega))
  have hsecond :=
    shiftToTargetExponent_spec (m := em.roundedMantissa) (e := e₁) .exact hrounded (by omega)
  dsimp only
  rcases hfinal : shiftToTargetExponent Format.binary64 em.roundedMantissa e₁ .exact
    with ⟨final, e₂⟩
  rw [hfinal] at hsecond
  obtain ⟨hleast, hfull, he₂⟩ := hsecond
  dsimp only at hleast hfull he₂ ⊢
  rw [dif_neg (by omega)]
  exact .pack _ ((Nat.log2_eq_iff (by omega)).mpr ⟨hleast, hfull⟩) (by omega) (by omega)

/-- A mantissa that is shifted to the left. -/
theorem log2_shiftLeft {m : Nat} (hm : 0 < m) (k : Nat) : (m <<< k).log2 = m.log2 + k := by
  have hpower : 0 < 2 ^ k := Nat.two_pow_pos k
  rw [Nat.shiftLeft_eq, Nat.log2_eq_iff (Nat.ne_of_gt (Nat.mul_pos hm hpower))]
  constructor
  · rw [Nat.pow_add]
    exact Nat.mul_le_mul_right _ (Nat.log2_self_le (Nat.ne_of_gt hm))
  · rw [Nat.add_right_comm, Nat.pow_add]
    exact Nat.mul_lt_mul_of_pos_right Nat.lt_log2_self hpower

/-- Rounding a natural number. -/
theorem AtLeastOne.ofNat (n : Nat) (hn : 0 < n) :
    AtLeastOne (n.log2 - 51) (Float.Model.pack (UnpackedFloat.ofNat Format.binary64 n)).unpack := by
  have hcompare : compare (n : Int) 0 = .gt := by
    rw [Int.compare_eq_gt]
    omega
  have htarget : Format.binary64.targetExponent (totalExponent n 0) = n.log2 - 52 := by
    unfold Format.targetExponent totalExponent Format.mantissaBits Format.minExponent
      Format.mantissaBits
    simp
    omega
  simp only [UnpackedFloat.ofNat, UnpackedFloat.ofInt, UnpackedFloat.normalize, hcompare,
    UnpackedFloat.round, decreaseExponent, Int.toNat_natCast, htarget]
  refine .round ?_ ?_ ?_
  · rw [log2_shiftLeft hn]
    omega
  · rw [log2_shiftLeft hn]
    omega
  · rw [log2_shiftLeft hn]
    omega

theorem unpack_mul (x y : Float) : (x * y).toModel.unpack =
    (Float.Model.pack
      (UnpackedFloat.mul Format.binary64 x.toModel.unpack y.toModel.unpack)).unpack := rfl

/-- The zeroth power of ten is one at full precision. -/
theorem unpack_powerZero :
    (getElem Float.exactlyRepresentablePowersOfTen 0 (by decide)).toModel.unpack =
    .finite .positive (2 ^ 52) (-52) (by decide) := rfl

theorem AtLeastOne.mul_one {most : Int} {f : UnpackedFloat} (h : AtLeastOne most f) :
    AtLeastOne (most + 1) (Float.Model.pack
      (UnpackedFloat.mul Format.binary64 f
        (.finite .positive (2 ^ 52) (-52) (by decide)))).unpack := by
  cases h with
  | infinity hoverflow => exact .infinity (by omega)
  | @finite m e hm hmantissa hexponent hmost =>
    have hproduct : (m * 2 ^ 52).log2 = 104 := by
      rw [← Nat.shiftLeft_eq, log2_shiftLeft hm, hmantissa]
    refine .round ?_ ?_ ?_
    · rw [hproduct]
      omega
    · rw [hproduct]
      omega
    · rw [hproduct]
      omega

/-- A positive natural number is rounded to a value of at least one. -/
theorem AtLeastOne.natCast (n : Nat) :
    AtLeastOne ((n + 1).log2 - 50) (Float.ofNat (n + 1)).toModel.unpack := by
  change AtLeastOne _ (Float.ofScientific (n + 1) false 0).toModel.unpack
  unfold Float.ofScientific
  split
  · next hsmall =>
    have hnat : (n + 1).toUInt64.toNat = n + 1 := by
      simp
      omega
    have hcast : AtLeastOne ((n + 1).log2 - 51) ((n + 1).toUInt64.toFloat).toModel.unpack := by
      change AtLeastOne _
        (Float.Model.pack (UnpackedFloat.ofNat Format.binary64 (n + 1).toUInt64.toNat)).unpack
      rw [hnat]
      exact .ofNat (n + 1) (Nat.succ_pos n)
    have hcarry : ((n + 1).log2 : Int) - 51 + 1 = (n + 1).log2 - 50 := by omega
    dsimp only
    rw [if_neg Bool.false_ne_true, unpack_mul, unpack_powerZero, ← hcarry]
    exact hcast.mul_one
  · have hpos : 0 < n + 1 := Nat.succ_pos n
    have hnarrow : ¬ (0 : Int) < -((2 ^ Format.binary64.exponentBits : Int) + (n + 1).log2) := by
      have hbits : (0 : Int) ≤ 2 ^ Format.binary64.exponentBits := by decide
      omega
    change AtLeastOne _
      (Float.Model.pack (UnpackedFloat.ofScientific Format.binary64 (n + 1) 0)).unpack
    unfold UnpackedFloat.ofScientific
    rw [dif_neg (Nat.ne_of_gt hpos), if_neg (by decide), if_neg hnarrow, if_pos (by decide)]
    simp only [UnpackedFloat.mul, Int.toNat_zero, Nat.pow_zero, Nat.mul_one]
    have hlog : ((n + 1) <<< Format.binary64.mantissaBits).log2 = (n + 1).log2 + 53 :=
      log2_shiftLeft hpos 53
    have hbits : (Format.binary64.mantissaBits : Int) = 53 := rfl
    refine .round ?_ ?_ ?_
    · rw [hlog]
      omega
    · rw [hlog, hbits]
      omega
    · rw [hlog, hbits]
      omega

/-- The number of entries of a list that fits into memory is finite. -/
theorem isFinite_natCast {n : Nat} (h : n < 2 ^ 64) :
    (n : Float).toModel.unpack.isFinite = true := by
  cases n with
  | zero => rfl
  | succ n =>
    have hlog : (n + 1).log2 < 64 := (Nat.log2_lt (Nat.succ_ne_zero n)).mpr h
    exact (AtLeastOne.natCast n).isFinite (by omega)

/-! ## Opposites -/

/-- What a finite number is unpacked into has full precision, or the least exponent. -/
theorem unpack_finite {b : BitVec 64} {s : Sign} {m : Nat} {e : Int} {hm : 0 < m}
    (h : UnpackedFloat.unpack Format.binary64 b = .finite s m e hm) :
    (m.log2 = 52 ∧ ∃ biased : BitVec 11, biased ≠ 0#_ ∧ biased ≠ -1#_ ∧ e = biased.toNat - 1075) ∨
      m < 2 ^ 52 ∧ e = -1074 := by
  unfold UnpackedFloat.unpack at h
  dsimp only at h
  split at h
  · split at h <;> cases h
  · next hfull =>
    split at h
    · next hleast =>
      split at h
      · cases h
      · cases h
        refine .inr ⟨BitVec.isLt _, ?_⟩
        rw [hleast]
        rfl
    · next hleast =>
      cases h
      exact .inl ⟨log2_leading _, _, hleast, hfull, rfl⟩

/-- A mantissa at full precision is restored from the bits that are stored. -/
theorem toNat_leading {m : Nat} (h : m.log2 = 52) : (1#1 ++ BitVec.ofNat 52 m).toNat = m := by
  have hne : m ≠ 0 := by
    rintro rfl
    simp at h
  obtain ⟨hleast, hmost⟩ := (Nat.log2_eq_iff hne).mp h
  rw [BitVec.toNat_append, BitVec.toNat_ofNat, BitVec.toNat_ofNat,
    ← Nat.shiftLeft_add_eq_or_of_lt (Nat.mod_lt m (Nat.two_pow_pos 52)), Nat.shiftLeft_eq]
  omega

/-- A finite value at full precision is packed without a loss. -/
theorem unpack_pack_precise {s : Sign} {m : Nat} {hm : 0 < m} {biased : BitVec 11}
    (hlog : m.log2 = 52) (hleast : biased ≠ 0#_) (hfull : biased ≠ -1#_) :
    (Float.Model.pack (.finite s m (biased.toNat - 1075) hm)).unpack =
      .finite s m (biased.toNat - 1075) hm := by
  change UnpackedFloat.unpack Format.binary64
    (UnpackedFloat.pack Format.binary64 (.finite s m _ hm)) = _
  have hstored : ((biased.toNat : Int) - 1075 + Format.binary64.exponentBias + (52 : Nat)).toNat =
      biased.toNat := by
    change ((biased.toNat : Int) - 1075 + (1023 : Nat) + (52 : Nat)).toNat = biased.toNat
    omega
  have hfits : ¬ 2 ^ 11 ≤ biased.toNat + 1 := by
    intro hover
    refine hfull (BitVec.eq_of_toNat_eq ?_)
    have hbound := biased.isLt
    simp
    omega
  have hprecise : m.log2 + 1 = Format.binary64.mantissaBits := congrArg (· + 1) hlog
  unfold UnpackedFloat.pack
  dsimp only
  rw [hstored, if_neg hfits, if_pos hprecise]
  unfold UnpackedFloat.unpack
  simp only [unpackMantissa_packComponents, unpackExponent_packComponents,
    unpackSign_packComponents, BitVec.ofNat_toNat, BitVec.setWidth_eq]
  rw [if_neg hfull, if_neg hleast]
  congr 1
  exact toNat_leading hlog

/-- A finite value with the least exponent and less than full precision is packed without a loss. -/
theorem unpack_pack_subnormal {s : Sign} {m : Nat} {hm : 0 < m} (hsmall : m < 2 ^ 52) :
    (Float.Model.pack (.finite s m (-1074) hm)).unpack = .finite s m (-1074) hm := by
  change UnpackedFloat.unpack Format.binary64
    (UnpackedFloat.pack Format.binary64 (.finite s m _ hm)) = _
  have hlog : m.log2 < 52 := (Nat.log2_lt (by omega)).mpr hsmall
  have hprecise : ¬ m.log2 + 1 = Format.binary64.mantissaBits := by
    change ¬ m.log2 + 1 = 53
    omega
  have hmantissa : (BitVec.ofNat 52 m).toNat = m := by
    rw [BitVec.toNat_ofNat, Nat.mod_eq_of_lt hsmall]
  have hnonzero : BitVec.ofNat 52 m ≠ 0#_ := by
    intro hzero
    rw [hzero] at hmantissa
    exact Nat.ne_of_lt hm hmantissa
  unfold UnpackedFloat.pack
  dsimp only
  rw [if_neg (by decide), if_neg hprecise]
  unfold UnpackedFloat.unpack
  simp only [unpackMantissa_packComponents, unpackExponent_packComponents,
    unpackSign_packComponents]
  rw [if_neg (by decide), if_pos trivial, dif_neg hnonzero]
  congr 1

/-- A finite number keeps its mantissa and its exponent when it is packed with another sign. -/
theorem unpack_pack_finite {b : BitVec 64} {s : Sign} {m : Nat} {e : Int} {hm : 0 < m}
    (h : UnpackedFloat.unpack Format.binary64 b = .finite s m e hm) (t : Sign) :
    (Float.Model.pack (.finite t m e hm)).unpack = .finite t m e hm := by
  rcases unpack_finite h with ⟨hlog, biased, hleast, hfull, rfl⟩ | ⟨hsmall, rfl⟩
  · exact unpack_pack_precise hlog hleast hfull
  · exact unpack_pack_subnormal hsmall

/-- The opposite of a number is not rounded. -/
theorem unpack_neg (x : Float) : (-x).toModel.unpack = x.toModel.unpack.neg := by
  change (Float.Model.pack x.toModel.unpack.neg).unpack = _
  rcases hx : x.toModel.unpack with s | _ | s | ⟨s, m, e, hm⟩
  · exact unpack_infinity (-s)
  · rfl
  · exact unpack_zero (-s)
  · exact unpack_pack_finite hx (-s)

/-! ## The laws -/

variable {x y z : Float}

theorem le_iff : x ≤ y ↔ x.toModel.unpack.le y.toModel.unpack = true := by
  change decide (x.toModel.unpack.le y.toModel.unpack = true) = true ↔ _
  rw [decide_eq_true_iff]

theorem lt_iff : x < y ↔ x.toModel.unpack.lt y.toModel.unpack = true := by
  change decide (x.toModel.unpack.lt y.toModel.unpack = true) = true ↔ _
  rw [decide_eq_true_iff]

theorem isNumber_iff : Scalar.IsNumber x ↔ x.toModel.unpack.isNaN = false := by
  change x ≤ x ↔ _
  rw [le_iff]
  constructor
  · exact fun h => (isNaN_of_le h).1
  · exact fun h => (le_iff_rank h h).mpr (Std.le_refl _)

section Operations

variable {f g : UnpackedFloat}

theorem isNaN_add (hf : f.isNaN = false) (hg : g.isNaN = false)
    (h : f.isFinite = true ∨ g.isFinite = true) :
    (UnpackedFloat.add Format.binary64 f g).isNaN = false := by
  rcases f with s | _ | s | ⟨s, m, e, hm⟩ <;> rcases g with t | _ | t | ⟨t, n, i, hn⟩ <;>
    try trivial
  · simp [UnpackedFloat.isFinite] at h
  · cases s <;> cases t <;> rfl
  · exact isNaN_normalize ..

theorem isNaN_sub (hf : f.isNaN = false) (hg : g.isNaN = false)
    (h : f.isFinite = true ∨ g.isFinite = true) :
    (UnpackedFloat.sub Format.binary64 f g).isNaN = false := by
  rcases f with s | _ | s | ⟨s, m, e, hm⟩ <;> rcases g with t | _ | t | ⟨t, n, i, hn⟩ <;>
    try trivial
  · simp [UnpackedFloat.isFinite] at h
  · cases s <;> cases t <;> rfl
  · exact isNaN_normalize ..

theorem isNaN_mul (hf : f.isNaN = false) (hg : g.isFinite = true)
    (h : f.isFinite = true ∨ rank g ≠ rank (.zero .positive)) :
    (UnpackedFloat.mul Format.binary64 f g).isNaN = false := by
  rcases f with s | _ | s | ⟨s, m, e, hm⟩ <;> rcases g with t | _ | t | ⟨t, n, i, hn⟩ <;>
    try trivial
  · simp [UnpackedFloat.isFinite, rank] at h
  · exact isNaN_roundWithAccuracy ..

theorem isNaN_div (hf : f.isNaN = false) (hg : g.isFinite = true)
    (h : rank (.zero .positive) < rank g) :
    (UnpackedFloat.div Format.binary64 f g).isNaN = false := by
  rcases f with s | _ | s | ⟨s, m, e, hm⟩ <;> rcases g with t | _ | t | ⟨t, n, i, hn⟩ <;>
    try trivial
  · exact isNaN_roundWithAccuracy ..

theorem mul_zero (hf : f.isFinite = true) (hg : g.isFinite = true)
    (h : rank f = rank (.zero .positive) ∨ rank g = rank (.zero .positive)) :
    ∃ s, UnpackedFloat.mul Format.binary64 f g = .zero s := by
  rcases f with s | _ | s | ⟨_ | _, m, e, hm⟩ <;> rcases g with t | _ | t | ⟨_ | _, n, i, hn⟩ <;>
    simp_all [UnpackedFloat.isFinite, UnpackedFloat.mul, rank]

theorem isNaN_neg {f : UnpackedFloat} (h : f.isNaN = false) : f.neg.isNaN = false := by
  cases f <;> trivial

/-- The opposite of a number below zero is above it. -/
theorem rank_neg_pos {f : UnpackedFloat} (hf : f.isNaN = false)
    (h : rank f < rank (.zero .positive)) : rank (.zero .positive) < rank f.neg := by
  rcases f with (_ | _) | _ | _ | ⟨_ | _, m, e, hm⟩ <;>
    simp_all [UnpackedFloat.isNaN, UnpackedFloat.neg, rank, Prod.Lex.toLex_lt_toLex]

theorem isFinite_of_isFinite_pack {f : UnpackedFloat}
    (h : (Float.Model.pack f).unpack.isFinite = true) : f.isFinite = true := by
  cases f with
  | notANumber => cases h
  | infinity s =>
    rw [unpack_infinity] at h
    cases h
  | zero s => rfl
  | finite s m e hm => rfl

theorem isFinite_of_add {f g : UnpackedFloat}
    (h : (UnpackedFloat.add Format.binary64 f g).isFinite = true) :
    f.isFinite = true ∧ g.isFinite = true := by
  rcases f with s | _ | s | ⟨s, m, e, hm⟩ <;> rcases g with t | _ | t | ⟨t, n, i, hn⟩ <;>
    first | exact ⟨rfl, rfl⟩ | cases h | (cases s <;> cases t <;> cases h)

theorem isFinite_of_sub {f g : UnpackedFloat}
    (h : (UnpackedFloat.sub Format.binary64 f g).isFinite = true) :
    f.isFinite = true ∧ g.isFinite = true := by
  rcases f with s | _ | s | ⟨s, m, e, hm⟩ <;> rcases g with t | _ | t | ⟨t, n, i, hn⟩ <;>
    first | exact ⟨rfl, rfl⟩ | cases h | (cases s <;> cases t <;> cases h)

theorem isFinite_of_mul {f g : UnpackedFloat}
    (h : (UnpackedFloat.mul Format.binary64 f g).isFinite = true) :
    f.isFinite = true ∧ g.isFinite = true := by
  rcases f with s | _ | s | ⟨s, m, e, hm⟩ <;> rcases g with t | _ | t | ⟨t, n, i, hn⟩ <;>
    first | exact ⟨rfl, rfl⟩ | cases h

end Operations

theorem same_iff (x y : Float) : Scalar.same x y = true ↔ x ≤ y ∧ y ≤ x := by
  change (decide (x ≤ y) && decide (y ≤ x)) = true ↔ _
  simp

theorem le_iff_isNumber : x ≤ y ↔ Scalar.IsNumber x ∧ Scalar.IsNumber y ∧
    rank x.toModel.unpack ≤ rank y.toModel.unpack := by
  rw [le_iff, isNumber_iff, isNumber_iff]
  constructor
  · intro h
    obtain ⟨hx, hy⟩ := isNaN_of_le h
    exact ⟨hx, hy, (le_iff_rank hx hy).mp h⟩
  · rintro ⟨hx, hy, h⟩
    exact (le_iff_rank hx hy).mpr h

theorem lt_iff_isNumber : x < y ↔ Scalar.IsNumber x ∧ Scalar.IsNumber y ∧
    rank x.toModel.unpack < rank y.toModel.unpack := by
  rw [lt_iff, isNumber_iff, isNumber_iff]
  constructor
  · intro h
    obtain ⟨hx, hy⟩ := isNaN_of_lt h
    exact ⟨hx, hy, (lt_iff_rank hx hy).mp h⟩
  · rintro ⟨hx, hy, h⟩
    exact (lt_iff_rank hx hy).mpr h

theorem unpack_natZero : (0 : Float).toModel.unpack = .zero .positive := rfl

/-- What is zero stands where zero stands. -/
theorem same_zero_iff : Scalar.same x 0 = true ↔
    Scalar.IsNumber x ∧ rank x.toModel.unpack = rank (.zero .positive) := by
  have hzero : Scalar.IsNumber (0 : Float) := isNumber_iff.mpr rfl
  rw [same_iff]
  change x ≤ (0 : Float) ∧ (0 : Float) ≤ x ↔ _
  rw [le_iff_isNumber, le_iff_isNumber, unpack_natZero]
  constructor
  · rintro ⟨⟨hx, -, hle⟩, -, -, hge⟩
    exact ⟨hx, le_antisymm hle hge⟩
  · rintro ⟨hx, heq⟩
    exact ⟨⟨hx, hzero, heq.le⟩, hzero, hx, heq.ge⟩

end MarketMaker.Binary64

namespace MarketMaker

open Float.Model Float.Model.UnpackedFloat Binary64

instance : LawfulScalar Float where
  plain_eq _ := rfl
  same_iff := Binary64.same_iff
  le_trans {x y z} hxy hyz := by
    rw [le_iff_isNumber] at *
    obtain ⟨hx, -, hxy⟩ := hxy
    obtain ⟨-, hz, hyz⟩ := hyz
    exact ⟨hx, hz, hxy.trans hyz⟩
  isNumber_of_le h := ⟨(le_iff_isNumber.mp h).1, (le_iff_isNumber.mp h).2.1⟩
  le_total {x y} hx hy := by
    rw [le_iff_isNumber, le_iff_isNumber]
    rcases le_total (rank x.toModel.unpack) (rank y.toModel.unpack) with h | h
    · exact .inl ⟨hx, hy, h⟩
    · exact .inr ⟨hy, hx, h⟩
  lt_iff {x y} := by
    rw [lt_iff_isNumber, le_iff_isNumber, le_iff_isNumber]
    constructor
    · rintro ⟨hx, hy, h⟩
      exact ⟨⟨hx, hy, h.le⟩, fun hle => absurd hle.2.2 (not_le_of_gt h)⟩
    · rintro ⟨⟨hx, hy, -⟩, hnot⟩
      exact ⟨hx, hy, lt_of_not_ge fun h => hnot ⟨hy, hx, h⟩⟩
  isNumber_of_isFinite h := isNumber_iff.mpr ((isFinite_iff_rank _).mp h).1
  isFinite_of_between {x y z} hx hz hxy hyz := by
    obtain ⟨-, hy, hxy⟩ := le_iff_isNumber.mp hxy
    obtain ⟨-, -, hyz⟩ := le_iff_isNumber.mp hyz
    obtain ⟨-, hleast, -⟩ := (isFinite_iff_rank _).mp hx
    obtain ⟨-, -, hmost⟩ := (isFinite_iff_rank _).mp hz
    refine (isFinite_iff_rank _).mpr ⟨isNumber_iff.mp hy, ?_, ?_⟩
    · exact hleast.trans (Prod.Lex.monotone_fst _ _ hxy)
    · exact (Prod.Lex.monotone_fst _ _ hyz).trans hmost
  isFinite_one := rfl
  isFinite_neg_one := rfl
  zero_lt_one := by decide +kernel
  neg_one_lt_zero := by decide +kernel
  isNumber_add hx hy h := by
    rw [isNumber_iff] at *
    exact (isNaN_pack _).trans (isNaN_add hx hy h)
  isNumber_sub hx hy h := by
    rw [isNumber_iff] at *
    exact (isNaN_pack _).trans (isNaN_sub hx hy h)
  isNumber_mul_of_isFinite {x y} hx hy := by
    have hx' := ((isFinite_iff_rank _).mp hx).1
    exact isNumber_iff.mpr ((isNaN_pack _).trans (isNaN_mul hx' hy (.inl hx)))
  isNumber_mul_of_ne_zero {x y} hx hy h := by
    have hy' := isNumber_iff.mpr ((isFinite_iff_rank _).mp hy).1
    rw [isNumber_iff] at hx
    refine isNumber_iff.mpr ((isNaN_pack _).trans (isNaN_mul hx hy (.inr fun hzero => ?_)))
    rw [same_zero_iff.mpr ⟨hy', hzero⟩] at h
    cases h
  isNumber_div {x y} hx hy h := by
    rw [isNumber_iff] at *
    exact (isNaN_pack _).trans (isNaN_div hx hy (lt_iff_isNumber.mp h).2.2)
  mul_same_zero {x y} hx hy h := by
    rw [same_zero_iff, same_zero_iff] at h
    obtain ⟨s, hs⟩ := mul_zero hx hy (h.imp And.right And.right)
    have hproduct : (x * y).toModel.unpack = .zero s := by
      rw [unpack_mul, hs, unpack_zero]
    refine same_zero_iff.mpr ⟨isNumber_iff.mpr ?_, ?_⟩
    · rw [hproduct]
      rfl
    · rw [hproduct]
      rfl
  isFinite_natCast := Binary64.isFinite_natCast
  zero_lt_natCast n := by
    obtain ⟨hnumber, hpos⟩ := (AtLeastOne.natCast n).rank_pos
    refine lt_iff_isNumber.mpr ⟨isNumber_iff.mpr rfl, isNumber_iff.mpr hnumber, ?_⟩
    exact Prod.Lex.lt_iff.mpr (.inl hpos)

instance : StrictScalar Float where
  isBlank_eq_false _ := rfl
  isComposite_eq_false _ := rfl
  isFinite_of_add h := Binary64.isFinite_of_add (isFinite_of_isFinite_pack h)
  isFinite_of_sub h := Binary64.isFinite_of_sub (isFinite_of_isFinite_pack h)
  isFinite_neg {x} h := by
    change (-x).toModel.unpack.isFinite = true
    change x.toModel.unpack.isFinite = true at h
    rw [unpack_neg]
    rcases hx : x.toModel.unpack with s | _ | s | ⟨s, m, e, hm⟩ <;> rw [hx] at h <;> trivial
  zero_lt_neg {x} h := by
    obtain ⟨hx, -, hrank⟩ := lt_iff_isNumber.mp h
    rw [isNumber_iff] at hx
    rw [unpack_natZero] at hrank
    refine lt_iff_isNumber.mpr ⟨isNumber_iff.mpr rfl, isNumber_iff.mpr ?_, ?_⟩
    · rw [unpack_neg]
      exact isNaN_neg hx
    · rw [unpack_neg]
      exact rank_neg_pos hx hrank
  lt_infinity {x} h := by
    obtain ⟨hnumber, -, hmost⟩ := (isFinite_iff_rank _).mp h
    refine lt_iff_isNumber.mpr ⟨isNumber_iff.mpr hnumber, isNumber_iff.mpr rfl,
      Prod.Lex.lt_iff.mpr (.inl ?_)⟩
    exact lt_of_le_of_lt hmost (by decide)

instance : AbsorbingScalar Float where
  isFinite_of_mul h := Binary64.isFinite_of_mul (isFinite_of_isFinite_pack h)
  isFinite_of_neg {x} h := by
    change (-x).toModel.unpack.isFinite = true at h
    change x.toModel.unpack.isFinite = true
    rw [unpack_neg] at h
    rcases hx : x.toModel.unpack with s | _ | s | ⟨s, m, e, hm⟩ <;> rw [hx] at h <;> trivial

end MarketMaker
