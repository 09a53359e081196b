import Mathlib
import MarketMaker.Text.Blank
import MarketMaker.Text.UpperCase

/-!
# Trimmed texts and texts in upper case

What is left when the blanks at both ends are cut off begins and ends with a character that is no
blank (`IsTrimmed`), and nothing but blanks was cut off (`exists_blanks`). Both together determine
it (`trimChars_eq`).

What is in upper case stays as it is when it is put into upper case again (`upperChar_fixed`). This
is a property of the two tables: no character that they give is one that they look up. There are
some two thousand of either kind, and they are compared all at once, as the bits of two numbers.
-/

namespace MarketMaker.Text

/-! ## Trimming -/

/-- Characters that neither begin nor end with a blank. -/
structure IsTrimmed (cs : List Char) : Prop where
  /-- They do not begin with a blank. -/
  first {c : Char} {rest : List Char} : cs = c :: rest → isBlank c = false
  /-- They do not end with a blank. -/
  last {front : List Char} {c : Char} : cs = front ++ [c] → isBlank c = false

variable {cs core front back : List Char}

theorem isTrimmed_nil : IsTrimmed [] where
  first h := nomatch h
  last h := absurd h.symm (List.append_ne_nil_of_right_ne_nil _ (List.cons_ne_nil _ _))

theorem dropWhile_of_blank (h : ∀ c ∈ front, isBlank c = true) (rest : List Char) :
    (front ++ rest).dropWhile isBlank = rest.dropWhile isBlank := by
  rw [List.dropWhile_append, List.dropWhile_eq_nil_iff.mpr h]
  rfl

/-- Nothing is cut off in front of a character that is no blank. -/
theorem IsTrimmed.dropWhile_append (h : IsTrimmed core) (hne : core ≠ []) (rest : List Char) :
    (core ++ rest).dropWhile isBlank = core ++ rest := by
  cases core with
  | nil => exact absurd rfl hne
  | cons c core => exact List.dropWhile_cons_of_neg (by rw [h.first rfl]; exact Bool.false_ne_true)

theorem IsTrimmed.reverse (h : IsTrimmed core) : IsTrimmed core.reverse where
  first heq := h.last (by rw [← List.reverse_reverse core, heq, List.reverse_cons])
  last heq := h.first (by rw [← List.reverse_reverse core, heq, List.reverse_append]; rfl)

/-- Only what stands between the blanks is left. -/
theorem trimChars_eq (hfront : ∀ c ∈ front, isBlank c = true) (h : IsTrimmed core)
    (hback : ∀ c ∈ back, isBlank c = true) : trimChars (front ++ (core ++ back)) = core := by
  rw [trimChars, dropWhile_of_blank hfront]
  by_cases hne : core = []
  · subst hne
    rw [List.nil_append, List.dropWhile_eq_nil_iff.mpr hback]
    rfl
  · rw [h.dropWhile_append hne, List.reverse_append,
      dropWhile_of_blank fun c hc => hback c (List.mem_reverse.mp hc)]
    have hkept := h.reverse.dropWhile_append (mt List.reverse_eq_nil_iff.mp hne) []
    rw [List.append_nil] at hkept
    rw [hkept, List.reverse_reverse]

/-- What is left is trimmed, and blanks are all that is cut off. -/
theorem exists_blanks (cs : List Char) : ∃ front back, cs = front ++ (trimChars cs ++ back) ∧
    (∀ c ∈ front, isBlank c = true) ∧ (∀ c ∈ back, isBlank c = true) ∧
    IsTrimmed (trimChars cs) := by
  have hblank (l : List Char) : ∀ c ∈ l.takeWhile isBlank, isBlank c = true :=
    fun c => List.mem_takeWhile_imp
  have hfirst {l : List Char} {c : Char} {rest : List Char} (h : l.dropWhile isBlank = c :: rest) :
      isBlank c = false := by
    have hnot := List.head?_dropWhile_not isBlank l
    rwa [h] at hnot
  refine ⟨cs.takeWhile isBlank, ((cs.dropWhile isBlank).reverse.takeWhile isBlank).reverse, ?_,
    hblank cs, fun c hc => hblank _ c (List.mem_reverse.mp hc), ?_, ?_⟩
  · rw [trimChars, ← List.reverse_append, List.takeWhile_append_dropWhile, List.reverse_reverse,
      List.takeWhile_append_dropWhile]
  · intro c rest h
    -- The first character that is left was the first one that is no blank.
    have hparts : cs.dropWhile isBlank =
        c :: (rest ++ ((cs.dropWhile isBlank).reverse.takeWhile isBlank).reverse) := by
      rw [← List.cons_append, ← h, trimChars, ← List.reverse_append,
        List.takeWhile_append_dropWhile, List.reverse_reverse]
    exact hfirst hparts
  · intro front c h
    have hparts : (cs.dropWhile isBlank).reverse.dropWhile isBlank = c :: front.reverse := by
      rw [← List.reverse_reverse (List.dropWhile _ _)]
      change (trimChars cs).reverse = _
      rw [h, List.reverse_append]
      rfl
    exact hfirst hparts

theorem isTrimmed_trimChars (cs : List Char) : IsTrimmed (trimChars cs) := by
  obtain ⟨_, _, -, -, -, h⟩ := exists_blanks cs
  exact h

theorem trimChars_eq_self_iff : trimChars cs = cs ↔ IsTrimmed cs := by
  constructor
  · intro h
    rw [← h]
    exact isTrimmed_trimChars cs
  · intro h
    have hnone : ∀ c ∈ ([] : List Char), isBlank c = true := List.forall_mem_nil _
    have htrim := trimChars_eq hnone h hnone
    rwa [List.nil_append, List.append_nil] at htrim

/-- Every character that is no blank is left. -/
theorem mem_trimChars {c : Char} (hc : isBlank c = false) : c ∈ trimChars cs ↔ c ∈ cs := by
  obtain ⟨front, back, hcs, hfront, hback, -⟩ := exists_blanks cs
  constructor
  · intro h
    rw [hcs]
    exact List.mem_append_right _ (List.mem_append_left _ h)
  · intro h
    rw [hcs, List.mem_append, List.mem_append] at h
    rcases h with h | h | h
    · rw [hfront c h] at hc
      cases hc
    · exact h
    · rw [hback c h] at hc
      cases hc

theorem trimChars_subset : trimChars cs ⊆ cs := by
  obtain ⟨front, back, hcs, -⟩ := exists_blanks cs
  intro c hc
  rw [hcs]
  exact List.mem_append_right _ (List.mem_append_left _ hc)

/-- With the blanks at the start cut off, there are blanks only at the end. -/
theorem dropWhile_eq_trimChars_append (cs : List Char) :
    ∃ back, (∀ c ∈ back, isBlank c = true) ∧ cs.dropWhile isBlank = trimChars cs ++ back := by
  obtain ⟨front, back, hcs, hfront, hback, htrimmed⟩ := exists_blanks cs
  have hdrop : cs.dropWhile isBlank = (trimChars cs ++ back).dropWhile isBlank :=
    (congrArg _ hcs).trans (dropWhile_of_blank hfront _)
  by_cases hnil : trimChars cs = []
  · rw [hnil, List.nil_append, List.dropWhile_eq_nil_iff.mpr hback] at hdrop
    exact ⟨[], List.forall_mem_nil _, by rw [hdrop, hnil]; rfl⟩
  · exact ⟨back, hback, hdrop.trans (htrimmed.dropWhile_append hnil back)⟩

theorem trimChars_eq_nil_iff : trimChars cs = [] ↔ ∀ c ∈ cs, isBlank c = true := by
  constructor
  · intro h c hc
    by_contra hnot
    have hmem := (mem_trimChars (Bool.not_eq_true _ ▸ hnot)).mpr hc
    rw [h] at hmem
    cases hmem
  · intro h
    have hnone : ∀ c ∈ ([] : List Char), isBlank c = true := List.forall_mem_nil _
    have htrim := trimChars_eq h isTrimmed_nil hnone
    rwa [List.nil_append, List.append_nil] at htrim

/-! ## Upper case -/

/-- The code points of a run. -/
def CaseRun.members (r : CaseRun) : List Nat :=
  List.range' r.first ((r.last - r.first) / r.step + 1) r.step

/-- What a run maps its code points to. -/
def CaseRun.images (r : CaseRun) : List Nat :=
  r.members.map fun (n : Nat) => ((n : Int) + r.offset).toNat

/-- The code points that are looked up and found. -/
def lowerCase : List Nat := caseExpansions.map Prod.fst ++ caseRuns.flatMap CaseRun.members

/-- The code points that are given for these, and the one that stands for what is none. -/
def upperCase : List Nat :=
  0 :: (caseExpansions.flatMap Prod.snd ++ caseRuns.flatMap CaseRun.images)

/-- The number whose bits are set at some places. -/
def bitsAt (places : List Nat) : Nat := places.foldr (fun n bits => 2 ^ n ||| bits) 0

theorem testBit_bitsAt {places : List Nat} {n : Nat} (h : n ∈ places) :
    (bitsAt places).testBit n = true := by
  induction places with
  | nil => cases h
  | cons m places ih =>
    rw [bitsAt, List.foldr_cons, Nat.testBit_or]
    rcases List.mem_cons.mp h with rfl | h
    · rw [Nat.testBit_two_pow_self, Bool.true_or]
    · rw [← bitsAt, ih h, Bool.or_true]

/-- The two tables have no bit in common. -/
theorem bitsAt_lowerCase_upperCase : bitsAt lowerCase &&& bitsAt upperCase = 0 := by
  decide +kernel

theorem not_mem_lowerCase {n : Nat} (h : n ∈ upperCase) : n ∉ lowerCase := by
  intro hlower
  have hbit := congrArg (Nat.testBit · n) bitsAt_lowerCase_upperCase
  simp only [Nat.testBit_and, testBit_bitsAt hlower, testBit_bitsAt h, Nat.zero_testBit] at hbit
  cases hbit

theorem CaseRun.mem_members {r : CaseRun} {n : Nat} (h : r.covers n = true) : n ∈ r.members := by
  simp only [covers, Bool.and_eq_true, decide_eq_true_eq, beq_iff_eq] at h
  obtain ⟨⟨hfirst, hlast⟩, hstep⟩ := h
  have hparts := Nat.div_add_mod (n - r.first) r.step
  have hle : (n - r.first) / r.step ≤ (r.last - r.first) / r.step := Nat.div_le_div_right (by omega)
  exact List.mem_range'.mpr ⟨(n - r.first) / r.step, by omega, by omega⟩

/-- What is not looked up is its own upper case. -/
theorem upperChar_of_not_mem {c : Char} (h : c.toNat ∉ lowerCase) : upperChar c = [c] := by
  rw [lowerCase, List.mem_append, not_or] at h
  obtain ⟨hexpansions, hruns⟩ := h
  have huncovered {r : CaseRun} (hr : r ∈ caseRuns) : ¬ r.covers c.toNat = true := fun hcovers =>
    hruns (List.mem_flatMap.mpr ⟨r, hr, CaseRun.mem_members hcovers⟩)
  have hfind : caseRuns.find? (·.covers c.toNat) = none :=
    List.find?_eq_none.mpr fun r => huncovered
  have hlookup : caseExpansions.lookup c.toNat = none := by
    refine List.lookup_eq_none_iff.mpr fun e he => ?_
    rw [bne_iff_ne]
    exact fun heq => hexpansions (List.mem_map.mpr ⟨e, he, heq.symm⟩)
  rw [upperChar]
  split
  · -- The letters of the basic alphabet are the first run.
    have hletter : ¬ (97 ≤ c.toNat ∧ c.toNat ≤ 122) := fun ⟨hfirst, hlast⟩ =>
      huncovered List.mem_cons_self (by simp [CaseRun.covers, hfirst, hlast, Nat.mod_one])
    exact congrArg ([·]) (dif_neg hletter)
  · rw [hlookup, hfind]

theorem toNat_ofNat_mem {n : Nat} (h : n ∈ upperCase) : (Char.ofNat n).toNat ∈ upperCase := by
  by_cases hvalid : n.isValidChar
  · rwa [Char.toNat_ofNat, if_pos hvalid]
  · rw [Char.toNat_ofNat, if_neg hvalid]
    exact List.mem_cons_self

/-- What is true of all basic characters can be found out one by one. -/
theorem exists_basic {c : Char} (h : c.toNat < 128) : ∃ n : Fin 128, Char.ofNat n = c :=
  ⟨⟨c.toNat, h⟩, Char.ofNat_toNat c⟩

theorem basic_fixed {c : Char} (h : c.toNat < 128) : upperChar c.toUpper = [c.toUpper] := by
  obtain ⟨n, rfl⟩ := exists_basic h
  clear h
  revert n
  decide

/-- **Upper case stays as it is.** -/
theorem upperChar_fixed {c d : Char} (h : d ∈ upperChar c) : upperChar d = [d] := by
  have hgiven {n : Nat}
      (hn : n ∈ caseExpansions.flatMap Prod.snd ++ caseRuns.flatMap CaseRun.images) :
      upperChar (Char.ofNat n) = [Char.ofNat n] :=
    upperChar_of_not_mem (not_mem_lowerCase (toNat_ofNat_mem (List.mem_cons_of_mem _ hn)))
  rw [upperChar] at h
  split at h
  · next hbasic =>
    rw [List.mem_singleton.mp h]
    exact basic_fixed hbasic
  · next hbasic =>
    split at h
    · next several hlookup =>
      obtain ⟨n, hn, rfl⟩ := List.mem_map.mp h
      obtain ⟨before, after, hsplit, -⟩ := List.lookup_eq_some_iff.mp hlookup
      refine hgiven (List.mem_append_left _ (List.mem_flatMap.mpr ⟨(c.toNat, several), ?_, hn⟩))
      rw [hsplit]
      exact List.mem_append_right _ List.mem_cons_self
    · split at h
      · next r hfind =>
        obtain rfl := List.mem_singleton.mp h
        refine hgiven (List.mem_append_right _ (List.mem_flatMap.mpr ⟨r,
          List.mem_of_find?_eq_some hfind, ?_⟩))
        have hcovers : r.covers c.toNat = true := by simpa using List.find?_some hfind
        exact List.mem_map.mpr ⟨c.toNat, CaseRun.mem_members hcovers, rfl⟩
      · next hlookup _ hfind =>
        obtain rfl := List.mem_singleton.mp h
        simp only [upperChar, hbasic, hlookup, hfind, if_false]

end MarketMaker.Text
