import MarketMaker.Command.Flags
import MarketMaker.Proofs.Pairs

/-!
# The symbol of a command in normal form

The symbol of a command is one run of letters and digits, or two with a separator between them
(`HasForm`). Such a text consists of basic characters and has no blanks, so that a pair is read from
its own letters in upper case (`parse?_joined`, `parse?_divided`).

What a symbol is put into is a **normal form** (`NormalForm`): a base and a quote of upper-case
letters and digits, with a slash between them. Neither the case of its letters nor the choice of its
separator makes a difference (`Respelt.parse?_eq`), and a normal form is put into itself
(`normalForm_of_readSymbol`).
-/

namespace MarketMaker.Command

open Pair Text

variable {c d : Char} {cs ds base quote : List Char} {separator : Char} {p : Pair}

/-! ## Characters -/

/-- An upper-case letter or a digit. -/
def IsNormal (c : Char) : Prop := 'A' ≤ c ∧ c ≤ 'Z' ∨ '0' ≤ c ∧ c ≤ '9'

instance (c : Char) : Decidable (IsNormal c) := inferInstanceAs (Decidable (_ ∨ _))

/-- Two characters that are the same letter, perhaps in another case, or are both separators. -/
def Respells (c d : Char) : Prop := c.toLower = d.toLower ∨ c ∈ separators ∧ d ∈ separators

theorem toNat_lt_of_isSymbolChar (h : isSymbolChar c = true) : c.toNat < 128 := by
  have hle (last : Char) : c ≤ last → c.toNat ≤ last.toNat := fun h => h
  simp only [isSymbolChar, Bool.or_eq_true, Bool.and_eq_true, decide_eq_true_eq] at h
  rcases h with (⟨-, h⟩ | ⟨-, h⟩) | ⟨-, h⟩ <;> exact (hle _ h).trans_lt (by decide)

/-- What a letter or digit is put into. -/
theorem upperChar_of_isSymbolChar (h : isSymbolChar c = true) :
    upperChar c = [c.toUpper] ∧ IsNormal c.toUpper := by
  obtain ⟨n, rfl⟩ := exists_basic (toNat_lt_of_isSymbolChar h)
  revert n
  decide +kernel

theorem IsNormal.isSymbolChar (h : IsNormal c) : isSymbolChar c = true := by
  simp only [Command.isSymbolChar, Bool.or_eq_true, Bool.and_eq_true, decide_eq_true_eq]
  exact h.elim (fun h => .inl (.inr h)) .inr

theorem IsNormal.facts (h : IsNormal c) : c.toUpper = c ∧ isBlank c = false ∧ c ∉ separators := by
  obtain ⟨n, rfl⟩ := exists_basic (toNat_lt_of_isSymbolChar h.isSymbolChar)
  revert n
  decide +kernel

theorem separator_facts (h : c ∈ separators) :
    upperChar c = [c.toUpper] ∧ c.toUpper = c ∧ c.toLower = c ∧
    isBlank c = false ∧ isSymbolChar c = false := by
  simp only [separators, List.mem_cons, List.not_mem_nil, or_false] at h
  rcases h with rfl | rfl | rfl <;> decide

/-- A character in lower case has the same upper case, and is of the same kind. -/
theorem toLower_facts (c : Char) :
    c.toLower.toUpper = c.toUpper ∧ isSymbolChar c.toLower = isSymbolChar c ∧
    (c.toLower ∈ separators → c ∈ separators) := by
  by_cases hc : c.toNat < 128
  · obtain ⟨n, rfl⟩ := exists_basic hc
    clear hc
    revert n
    decide +kernel
  · have hlower : c.toLower = c := by
      refine dif_neg fun h => hc ?_
      have hle : c.toNat ≤ 90 := h.2
      omega
    rw [hlower]
    exact ⟨rfl, rfl, id⟩

theorem Respells.of_isSymbolChar (h : Respells c d) (hc : isSymbolChar c = true) :
    isSymbolChar d = true ∧ d.toUpper = c.toUpper := by
  rcases h with h | ⟨hseparator, -⟩
  · obtain ⟨hupper, hkind, -⟩ := toLower_facts c
    obtain ⟨hupper', hkind', -⟩ := toLower_facts d
    rw [h] at hupper hkind
    exact ⟨hkind'.symm.trans (hkind.trans hc), hupper'.symm.trans hupper⟩
  · rw [(separator_facts hseparator).2.2.2.2] at hc
    cases hc

theorem Respells.of_separator (h : Respells c d) (hc : c ∈ separators) : d ∈ separators := by
  rcases h with h | ⟨-, hd⟩
  · refine (toLower_facts d).2.2 ?_
    rwa [← h, (separator_facts hc).2.2.1]
  · exact hd

/-! ## Runs of letters and digits -/

/-- One or more letters and digits. -/
structure IsRun (cs : List Char) : Prop where
  /-- There is at least one character. -/
  ne_nil : cs ≠ []
  /-- Each of them is a letter or a digit. -/
  chars : ∀ c ∈ cs, isSymbolChar c = true

/-- One or more upper-case letters and digits. -/
structure IsNormalRun (cs : List Char) : Prop where
  /-- There is at least one character. -/
  ne_nil : cs ≠ []
  /-- Each of them is an upper-case letter or a digit. -/
  chars : ∀ c ∈ cs, IsNormal c

theorem IsNormalRun.isRun (h : IsNormalRun cs) : IsRun cs :=
  ⟨h.ne_nil, fun c hc => (h.chars c hc).isSymbolChar⟩

theorem IsRun.upper (h : IsRun cs) : IsNormalRun (cs.map Char.toUpper) :=
  ⟨mt List.map_eq_nil_iff.mp h.ne_nil,
    List.forall_mem_map.mpr fun c hc => (upperChar_of_isSymbolChar (h.chars c hc)).2⟩

theorem IsNormalRun.map_toUpper (h : IsNormalRun cs) : cs.map Char.toUpper = cs :=
  (List.map_congr_left fun c hc => (h.chars c hc).facts.1).trans (List.map_id' cs)

/-- A run is respelt as a run of the same letters. -/
theorem IsRun.respelt (h : IsRun cs) (hrespelt : List.Forall₂ Respells cs ds) :
    IsRun ds ∧ ds.map Char.toUpper = cs.map Char.toUpper := by
  have hchars : (∀ d ∈ ds, isSymbolChar d = true) ∧ ds.map Char.toUpper = cs.map Char.toUpper := by
    replace h := h.chars
    induction hrespelt with
    | nil => exact ⟨List.forall_mem_nil _, rfl⟩
    | cons hfirst _ ih =>
      obtain ⟨hc, hcs⟩ := List.forall_mem_cons.mp h
      obtain ⟨hd, hupper⟩ := hfirst.of_isSymbolChar hc
      obtain ⟨hds, huppers⟩ := ih hcs
      exact ⟨List.forall_mem_cons.mpr ⟨hd, hds⟩, congrArg₂ List.cons hupper huppers⟩
  refine ⟨⟨fun hnil => h.ne_nil ?_, hchars.1⟩, hchars.2⟩
  rw [hnil] at hrespelt
  exact List.forall₂_nil_right_iff.mp hrespelt

/-! ## The form of a symbol -/

/-- One run, or two with a separator between them. -/
inductive HasForm : List Char → Prop where
  /-- One run. -/
  | joined {cs : List Char} (run : IsRun cs) : HasForm cs
  /-- Two runs with a separator between them. -/
  | divided {base quote : List Char} {separator : Char} (base_run : IsRun base)
    (mem : separator ∈ separators) (quote_run : IsRun quote) : HasForm (base ++ separator :: quote)

theorem hasSymbolFormat_iff : hasSymbolFormat cs = true ↔ HasForm cs := by
  constructor
  · intro h
    rw [hasSymbolFormat, Bool.and_eq_true, Bool.not_eq_true', List.isEmpty_eq_false_iff] at h
    obtain ⟨hne, hrest⟩ := h
    have hrun : IsRun (cs.takeWhile isSymbolChar) := ⟨hne, fun c => List.mem_takeWhile_imp⟩
    rw [← List.takeWhile_append_dropWhile (p := isSymbolChar) (l := cs)]
    split at hrest
    · next hnil =>
      rw [hnil, List.append_nil]
      exact .joined hrun
    · next separator quote hcons =>
      simp only [Bool.and_eq_true, List.contains_iff_mem, Bool.not_eq_true',
        List.isEmpty_eq_false_iff, List.all_eq_true] at hrest
      obtain ⟨⟨hseparator, hquote⟩, hchars⟩ := hrest
      rw [hcons]
      exact .divided hrun hseparator ⟨hquote, hchars⟩
  · rintro (hrun | ⟨hbase, hseparator, hquote⟩)
    · have hnone := List.dropWhile_eq_nil_iff.mpr hrun.chars
      have hall := List.takeWhile_eq_self_iff.mpr hrun.chars
      simp [hasSymbolFormat, hnone, hall, hrun.ne_nil]
    · have hstop := (separator_facts hseparator).2.2.2.2
      rw [hasSymbolFormat, List.takeWhile_append_of_pos hbase.chars,
        List.dropWhile_append_of_pos hbase.chars]
      simp [hstop, hbase.ne_nil, hseparator, hquote.ne_nil, List.all_eq_true.mpr hquote.chars]

/-- Symbols have characters with an upper case of their own and no blanks, so that only these are
folded. -/
theorem folded_of_hasForm (h : HasForm cs) : folded (String.ofList cs) = cs.map Char.toUpper := by
  have hplain {c : Char} (hc : isSymbolChar c = true) : upperChar c = [c.toUpper] ∧
      isBlank c.toUpper = false := by
    obtain ⟨hupper, hnormal⟩ := upperChar_of_isSymbolChar hc
    exact ⟨hupper, hnormal.facts.2.1⟩
  have hchars : ∀ c ∈ cs, upperChar c = [c.toUpper] ∧ isBlank c.toUpper = false := by
    intro c hc
    rcases h with hrun | ⟨hbase, hseparator, hquote⟩
    · exact hplain (hrun.chars c hc)
    · rcases List.mem_append.mp hc with hc | hc
      · exact hplain (hbase.chars c hc)
      · rcases List.mem_cons.mp hc with rfl | hc
        · obtain ⟨hupper, hsame, -, hblank, -⟩ := separator_facts hseparator
          exact ⟨hupper, by rw [hsame, hblank]⟩
        · exact hplain (hquote.chars c hc)
  have hupper : cs.flatMap upperChar = cs.map Char.toUpper := by
    rw [List.map_eq_flatMap]
    exact List.flatMap_congr fun c hc => (hchars c hc).1
  have hblank : ∀ c ∈ cs.map Char.toUpper, isBlank c = false :=
    List.forall_mem_map.mpr fun c hc => (hchars c hc).2
  rw [folded, Text.upper, String.toList_ofList, String.toList_ofList, hupper, trimChars_eq_self_iff]
  refine ⟨fun heq => hblank _ ?_, fun heq => hblank _ ?_⟩ <;> rw [heq] <;> simp

theorem parse?_joined (h : IsRun cs) :
    parse? (String.ofList cs) = ofChars? (cs.map Char.toUpper) := by
  rw [parse?_eq, folded_of_hasForm (.joined h)]

theorem IsNormalRun.not_mem (h : IsNormalRun cs) (hseparator : separator ∈ separators) :
    separator ∉ cs :=
  fun hmem => (h.chars separator hmem).facts.2.2 hseparator

theorem IsNormalRun.trimChars (h : IsNormalRun cs) : trimChars cs = cs := by
  rw [trimChars_eq_self_iff]
  refine ⟨fun heq => (h.chars _ ?_).facts.2.1, fun heq => (h.chars _ ?_).facts.2.1⟩ <;>
    rw [heq] <;> simp

/-- The pair of a base and a quote. -/
def pairOf (base quote : List Char) : Pair :=
  ⟨String.ofList (base.map Char.toUpper), String.ofList (quote.map Char.toUpper)⟩

theorem parse?_divided (hbase : IsRun base) (hseparator : separator ∈ separators)
    (hquote : IsRun quote) :
    parse? (String.ofList (base ++ separator :: quote)) = some (pairOf base quote) := by
  have hupper := (separator_facts hseparator).2.1
  have hdivided : Divided (base.map Char.toUpper ++ separator :: quote.map Char.toUpper) separator
      (base.map Char.toUpper) (quote.map Char.toUpper) := by
    refine ⟨?_, ⟨[], by rw [List.append_nil], nofun⟩, hbase.upper.not_mem hseparator,
      hquote.upper.not_mem hseparator⟩
    obtain ⟨before, after, hsplit⟩ := List.append_of_mem hseparator
    have hnodup : (before ++ separator :: after).Nodup := hsplit ▸ (by decide)
    refine ⟨before, after, hsplit, fun c hc hmem => ?_⟩
    have hother : c ∈ separators := by
      rw [hsplit]
      exact List.mem_append_left _ hc
    rcases List.mem_append.mp hmem with hmem | hmem
    · exact hbase.upper.not_mem hother hmem
    · rcases List.mem_cons.mp hmem with rfl | hmem
      · exact (List.nodup_append.mp hnodup).2.2 c hc c List.mem_cons_self rfl
      · exact hquote.upper.not_mem hother hmem
  rw [parse?_eq, folded_of_hasForm (.divided hbase hseparator hquote), List.map_append,
    List.map_cons, hupper, ofChars?_of_divided hdivided, ofParts?, if_neg, hbase.upper.trimChars,
    hquote.upper.trimChars]
  · rfl
  · simp [hbase.ne_nil, hquote.ne_nil]

theorem readSymbol_eq_ok_iff {symbol r : String} :
    readSymbol symbol = .ok r ↔ HasForm symbol.toList ∧ ∃ p, parse? symbol = some p ∧
    r = p.standard := by
  rw [readSymbol, ← hasSymbolFormat_iff]
  constructor
  · intro h
    split at h
    · cases h
    · split at h
      · cases h
      · next hform =>
        cases hparse : parse? symbol with
        | none =>
          rw [hparse] at h
          cases h
        | some p =>
          rw [hparse] at h
          exact ⟨by simpa using hform, p, rfl, (Except.ok.inj h).symm⟩
  · rintro ⟨hform, p, hparse, rfl⟩
    have hne : ¬ symbol.isEmpty = true := by
      rw [String.isEmpty_iff]
      rintro rfl
      cases hform
    rw [if_neg hne, if_neg (by simp [hform]), hparse]

/-! ## Normal forms -/

/-- Another spelling has the form of a symbol too, and is read as the same pair. -/
theorem HasForm.respelt (h : HasForm cs) (hrespelt : List.Forall₂ Respells cs ds) :
    HasForm ds ∧ parse? (String.ofList ds) = parse? (String.ofList cs) := by
  rcases h with hrun | @⟨base, quote, separator, hbase, hseparator, hquote⟩
  · obtain ⟨hrun', hupper⟩ := hrun.respelt hrespelt
    exact ⟨.joined hrun', by rw [parse?_joined hrun, parse?_joined hrun', hupper]⟩
  · have hbases := List.forall₂_take base.length hrespelt
    have hrest := List.forall₂_drop base.length hrespelt
    rw [List.take_left] at hbases
    rw [List.drop_left] at hrest
    obtain ⟨separator', quote', hseparators, hquotes, hdrop⟩ := List.forall₂_cons_left_iff.mp hrest
    rw [← List.take_append_drop base.length ds, hdrop]
    obtain ⟨hbase', hupperbase⟩ := hbase.respelt hbases
    obtain ⟨hquote', hupperquote⟩ := hquote.respelt hquotes
    have hseparator' := hseparators.of_separator hseparator
    refine ⟨.divided hbase' hseparator' hquote', ?_⟩
    rw [parse?_divided hbase hseparator hquote, parse?_divided hbase' hseparator' hquote',
      pairOf, pairOf, hupperbase, hupperquote]

/-- The parts of a symbol's pair are made of upper-case letters and digits. -/
theorem HasForm.normal (h : HasForm cs) (hparse : parse? (String.ofList cs) = some p) :
    IsNormalRun p.base.toList ∧ IsNormalRun p.quote.toList := by
  rcases h with hrun | ⟨hbase, hseparator, hquote⟩
  · have hnormal := hrun.upper
    rw [parse?_joined hrun] at hparse
    obtain ⟨⟨base, hne, hparts, hbase⟩, before, after, hsplit, -⟩ :=
      joined_of_ofChars? (fun separator hseparator => hnormal.not_mem hseparator) hparse
    have hcurrency : p.quote ∈ quoteCurrencies := by
      rw [hsplit]
      exact List.mem_append_right _ List.mem_cons_self
    have hnonempty : ∀ currency ∈ quoteCurrencies, currency.toList ≠ [] := by decide
    rw [hparts] at hnormal
    rw [hbase, String.toList_ofList]
    exact ⟨⟨hne, fun c hc => hnormal.chars c (List.mem_append_left _ hc)⟩,
      ⟨hnonempty _ hcurrency, fun c hc => hnormal.chars c (List.mem_append_right _ hc)⟩⟩
  · rw [parse?_divided hbase hseparator hquote] at hparse
    obtain rfl := Option.some.inj hparse
    rw [pairOf, String.toList_ofList, String.toList_ofList]
    exact ⟨hbase.upper, hquote.upper⟩

/-- The standard form of such parts is read as they are. -/
theorem parse?_standard (hbase : IsNormalRun p.base.toList) (hquote : IsNormalRun p.quote.toList) :
    HasForm p.standard.toList ∧ parse? p.standard = some p := by
  have hlist : p.standard.toList = p.base.toList ++ '/' :: p.quote.toList :=
    toList_write p .standard
  have hslash : '/' ∈ separators := List.mem_cons_self
  have hparse := parse?_divided hbase.isRun hslash hquote.isRun
  rw [pairOf, hbase.map_toUpper, hquote.map_toUpper, String.ofList_toList,
    String.ofList_toList, ← hlist, String.ofList_toList] at hparse
  rw [hlist]
  exact ⟨.divided hbase.isRun hslash hquote.isRun, hparse⟩

/-- A text is the normal form of a symbol with a pair: it is written from the two parts, which are
made of upper-case letters and digits, it is its own normal form and that of every other spelling of
the symbol, and the venue's form is the same for both. -/
structure NormalForm (symbol normal : String) (p : Pair) : Prop where
  /-- The base consists of upper-case letters and digits. -/
  base : IsNormalRun p.base.toList
  /-- The quote consists of upper-case letters and digits. -/
  quote : IsNormalRun p.quote.toList
  /-- The normal form is written from them. -/
  written : normal = p.base ++ "/" ++ p.quote
  /-- It is its own normal form. -/
  again : readSymbol normal = .ok normal
  /-- It is that of every other spelling of the symbol. -/
  respelt (symbol' : String) : List.Forall₂ Respells symbol.toList symbol'.toList →
    readSymbol symbol' = .ok normal
  /-- It is a pair, and the form of the venue is written from the same parts. -/
  venue : (parse? normal).map Pair.venue = some (p.base ++ "_" ++ p.quote)
  /-- The venue's form of the symbol is the same. -/
  same_venue : (parse? normal).map Pair.venue = (parse? symbol).map Pair.venue

/-- **What a symbol is put into is its normal form.** -/
theorem normalForm_of_readSymbol {symbol normal : String} (h : readSymbol symbol = .ok normal) :
    ∃ p, NormalForm symbol normal p := by
  obtain ⟨hform, p, hparse, rfl⟩ := readSymbol_eq_ok_iff.mp h
  have hpair : parse? (String.ofList symbol.toList) = some p :=
    (congrArg parse? String.ofList_toList).trans hparse
  obtain ⟨hbase, hquote⟩ := hform.normal hpair
  obtain ⟨hform', hagain⟩ := parse?_standard hbase hquote
  have hnormal : readSymbol p.standard = .ok p.standard :=
    readSymbol_eq_ok_iff.mpr ⟨hform', p, hagain, rfl⟩
  refine ⟨p, hbase, hquote, rfl, hnormal, fun symbol' hrespelt => ?_, ?_, ?_⟩
  · obtain ⟨hform', hsame⟩ := hform.respelt hrespelt
    rw [String.ofList_toList, String.ofList_toList, hparse] at hsame
    exact readSymbol_eq_ok_iff.mpr ⟨hform', p, hsame, rfl⟩
  · rw [hagain]
    rfl
  · rw [hagain, hparse]

/-- A symbol without a separator, and another spelling of a symbol with one. -/
theorem normalForm_of_readSymbol_one : readSymbol "1inchUsdt" = .ok "1INCH/USDT" ∧
    readSymbol "sol-usdc" = .ok "SOL/USDC" ∧ readSymbol "Sol_USDC" = .ok "SOL/USDC" ∧
      ∃ p, NormalForm "1inchUsdt" "1INCH/USDT" p := by
  have hjoined : readSymbol "1inchUsdt" = .ok "1INCH/USDT" := by decide
  have hdivided : readSymbol "sol-usdc" = .ok "SOL/USDC" := by decide
  obtain ⟨p, hnormal⟩ := normalForm_of_readSymbol hdivided
  have hrespelt : List.Forall₂ Respells "sol-usdc".toList "Sol_USDC".toList := by
    simp [Respells, separators]
  exact ⟨hjoined, hdivided, hnormal.respelt _ hrespelt, normalForm_of_readSymbol hjoined⟩

end MarketMaker.Command
