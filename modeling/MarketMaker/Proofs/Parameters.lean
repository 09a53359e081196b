import MarketMaker.Parameters
import MarketMaker.Proofs.Laws

/-!
# Sets that are near to each other

A set of parameters is **near** to another when both come from one mode and interval and each
compared figure is **close**: it moved by no more than the threshold, relative to where it was, and
not at all from zero.

Of finite figures a set is significant exactly when it is not near to the published one. The
quotient of two finite figures may overflow; it is a number all the same, and then above every
threshold.
-/

namespace MarketMaker

open Scalar LawfulScalar StrictScalar

variable {α : Type} [Scalar α] {threshold p n : α}

/-- A figure moved by no more than the threshold, relative to where it was. -/
structure Close (threshold published next : α) : Prop where
  /-- A figure that was zero did not move. -/
  zero : same published 0 = true → same published next = true
  /-- One that did not move is within every threshold that is not negative. -/
  still : same published next = true → 0 ≤ threshold
  /-- One that moved, moved by no more than the threshold. -/
  moved : same published next = false → abs (next - published) / abs published ≤ threshold

namespace Parameters

/-- The compared figures, in the order of their names. -/
def compared (p : Parameters α) : List α := p.spreads ++ [p.reservationPrice]

/-- Both sets come from one mode and interval, and each compared figure is close. -/
structure Near (threshold : α) (published next : Parameters α) : Prop where
  /-- Both come from one mode. -/
  source : published.source.isSame next.source = true
  /-- Both were measured on one interval. -/
  interval : published.volatilityInterval.isSame next.volatilityInterval = true
  /-- Each compared figure is close to the published one. -/
  figures : List.Forall₂ (Close threshold) published.compared next.compared

/-- All compared figures are finite. -/
def Finite (p : Parameters α) : Prop := ∀ x ∈ p.compared, isFinite x = true

end Parameters

variable [StrictScalar α]

/-! ## One figure -/

/-- How far a finite figure moved from where it was not zero is a number. -/
theorem isNumber_relativeDistance (hp : isFinite p = true) (hn : isFinite n = true)
    (hzero : same p 0 = false) : IsNumber (abs (n - p) / abs p) := by
  have hdifference := isNumber_sub (isNumber_of_isFinite hn) (isNumber_of_isFinite hp) (.inl hn)
  have hdistance := (isNumber_of_le (zero_le_abs hdifference)).2
  exact isNumber_div hdistance (isFinite_abs hp) (zero_lt_abs (isNumber_of_isFinite hp) hzero)

/-- Of finite figures one is close exactly when its relative change is not above the threshold. -/
theorem close_iff (hthreshold : isFinite threshold = true) (hp : isFinite p = true)
    (hn : isFinite n = true) : Close threshold p n ↔ ¬ threshold < relativeChange p n := by
  have hnumber := isNumber_of_isFinite hthreshold
  unfold relativeChange
  cases hsame : same p n with
  | true =>
    rw [if_pos rfl]
    constructor
    · exact fun h hlt => not_le_of_lt hlt (h.still hsame)
    · intro h
      have hstill := le_of_not_lt hnumber isNumber_zero h
      exact ⟨fun _ => hsame, fun _ => hstill, fun hmoved => by cases hsame.symm.trans hmoved⟩
  | false =>
    rw [if_neg Bool.false_ne_true]
    cases hzero : same p 0 with
    | true =>
      rw [if_pos rfl]
      refine iff_of_false (fun h => ?_) (not_not_intro (lt_infinity hthreshold))
      cases hsame.symm.trans (h.zero hzero)
    | false =>
      rw [if_neg Bool.false_ne_true]
      have hquotient := isNumber_relativeDistance hp hn hzero
      constructor
      · exact fun h hlt => not_le_of_lt hlt (h.moved hsame)
      · intro h
        have hmoved := le_of_not_lt hnumber hquotient h
        refine ⟨fun hz => ?_, fun hs => ?_, fun _ => hmoved⟩
        · cases hzero.symm.trans hz
        · cases hsame.symm.trans hs

/-! ## Whole sets -/

/-- Of finite figures all are close exactly when no relative change is above the threshold. -/
theorem forall₂_close_iff (hthreshold : isFinite threshold = true) {ps ns : List α}
    (hlength : ps.length = ns.length) (hps : ∀ p ∈ ps, isFinite p = true)
    (hns : ∀ n ∈ ns, isFinite n = true) :
    List.Forall₂ (Close threshold) ps ns ↔
    ∀ c ∈ List.zipWith relativeChange ps ns, ¬ threshold < c := by
  induction ps generalizing ns with
  | nil =>
    obtain rfl : ns = [] := List.length_eq_zero_iff.mp hlength.symm
    exact iff_of_true .nil nofun
  | cons p ps ih =>
    cases ns with
    | nil => cases hlength
    | cons n ns =>
      have hrest := ih (Nat.succ.inj hlength) (fun x hx => hps x (List.mem_cons_of_mem p hx))
        (fun x hx => hns x (List.mem_cons_of_mem n hx))
      rw [List.forall₂_cons, List.zipWith_cons_cons, List.forall_mem_cons, hrest,
        close_iff hthreshold (hps p List.mem_cons_self) (hns n List.mem_cons_self)]

namespace Parameters

/-- The changes are those of the compared figures, one by one. -/
theorem changes_eq (published next : Parameters α) :
    changes published next = List.zipWith relativeChange published.compared next.compared := by
  simp [changes, compared, spreads, priceChange, sharesPrice, isComposite_eq_false]

/-- **A set of finite figures is significant exactly when it is not near to the published one.** -/
theorem isSignificant_eq_false_iff (hthreshold : isFinite threshold = true)
    {published next : Parameters α} (hpublished : published.Finite) (hnext : next.Finite) :
    published.isSignificant next threshold = false ↔ Near threshold published next := by
  have hlength : published.compared.length = next.compared.length := rfl
  have hclose := forall₂_close_iff hthreshold hlength hpublished hnext
  rw [isSignificant, Bool.or_eq_false_iff, isOfOtherOrigin, Bool.or_eq_false_iff, moves, changes_eq]
  simp only [Bool.not_eq_false', List.any_eq_false, decide_eq_true_iff, ← hclose]
  exact ⟨fun ⟨⟨hsource, hinterval⟩, hfigures⟩ => ⟨hsource, hinterval, hfigures⟩,
    fun h => ⟨⟨h.source, h.interval⟩, h.figures⟩⟩

end Parameters

end MarketMaker
