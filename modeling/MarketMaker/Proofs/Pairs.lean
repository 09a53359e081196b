import MarketMaker.Proofs.Texts
import MarketMaker.Symbol

/-!
# Pairs that are written and read again

A text is **folded** before a pair is read from it: put into upper case, and trimmed. What is read
then depends on the separators.

* The first separator **divides** the text (`Divided`): its base stands before it, and its quote
  between it and the next one of its kind. Both are trimmed (`ofChars?_of_divided`).
* A text without any is **joined**: it ends in a quote currency, and all before that is the base
  (`joined_of_ofChars?`).

A pair **comes back** when its parts are neither empty nor surrounded by blanks, and each of its two
forms is read as the same pair again, so that it can be converted from one form to the other any
number of times (`ComesBack`). Three things are in the way, and nothing else is (`comesBack_iff`): a
joined text with a blank before its quote currency, a divided one with nothing but blanks for a
quote, and one divided by a slash that has an underscore in one of its parts.
-/

namespace MarketMaker.Pair

open Text

/-! ## Folding -/

/-- The characters that a pair is read from. -/
def folded (symbol : String) : List Char := trimChars (upper symbol).toList

theorem parse?_eq (symbol : String) : parse? symbol = ofChars? (folded symbol) := rfl

/-- Characters that are their own upper case. -/
def IsUpper (cs : List Char) : Prop := ∀ c ∈ cs, upperChar c = [c]

variable {cs base quote : List Char} {separator : Char} {p : Pair}

theorem IsUpper.flatMap (h : IsUpper cs) : cs.flatMap upperChar = cs := by
  induction cs with
  | nil => rfl
  | cons c cs ih =>
    obtain ⟨hc, hcs⟩ := List.forall_mem_cons.mp h
    rw [List.flatMap_cons, hc, ih hcs]
    rfl

theorem isUpper_folded (symbol : String) : IsUpper (folded symbol) := by
  intro c hc
  have hmem := trimChars_subset hc
  rw [upper, String.toList_ofList, List.mem_flatMap] at hmem
  obtain ⟨_, -, hupper⟩ := hmem
  exact upperChar_fixed hupper

theorem isTrimmed_folded (symbol : String) : IsTrimmed (folded symbol) := isTrimmed_trimChars _

/-- What is folded already is left as it is. -/
theorem folded_ofList (hupper : IsUpper cs) (htrimmed : IsTrimmed cs) :
    folded (String.ofList cs) = cs := by
  rw [folded, upper, String.toList_ofList, String.toList_ofList, hupper.flatMap]
  exact trimChars_eq_self_iff.mpr htrimmed

/-! ## Divided texts -/

/-- A separator divides characters into a base and a quote: it is the first one in the order of the
separators that stands among them at all. -/
structure Divided (cs : List Char) (separator : Char) (base quote : List Char) : Prop where
  /-- No separator that comes before this one stands among the characters. -/
  first : ∃ before after, separators = before ++ separator :: after ∧ ∀ c ∈ before, c ∉ cs
  /-- They are the base, the separator, the quote, and the rest from the next separator on. -/
  parts : ∃ rest, cs = base ++ separator :: (quote ++ rest) ∧ ∀ c ∈ rest.head?, c = separator
  /-- The base ends at the first separator. -/
  not_mem_base : separator ∉ base
  /-- The quote ends at the second one, if there is one. -/
  not_mem_quote : separator ∉ quote

/-- No separator stands among the characters. -/
def Undivided (cs : List Char) : Prop := ∀ separator ∈ separators, separator ∉ cs

/-- Up to the next separator of a kind. -/
theorem takeWhile_part {part rest : List Char} (hpart : separator ∉ part)
    (hrest : ∀ c ∈ rest.head?, c = separator) :
    (part ++ rest).takeWhile (· != separator) = part ∧
    (part ++ rest).dropWhile (· != separator) = rest := by
  have hpass : ∀ c ∈ part, (c != separator) = true :=
    fun c hc => bne_iff_ne.mpr fun heq => hpart (heq ▸ hc)
  rw [List.takeWhile_append_of_pos hpass, List.dropWhile_append_of_pos hpass]
  cases rest with
  | nil => exact ⟨List.append_nil part, rfl⟩
  | cons c rest =>
    obtain rfl := hrest c rfl
    simp

theorem Divided.splitAt_eq (h : Divided cs separator base quote) :
    splitAt separator cs = (base, quote) := by
  obtain ⟨rest, rfl, hrest⟩ := h.parts
  have hhead : ∀ c ∈ (separator :: (quote ++ rest)).head?, c = separator := by simp
  obtain ⟨hbase, htail⟩ := takeWhile_part h.not_mem_base hhead
  rw [splitAt, hbase, htail, List.drop_one, List.tail_cons,
    (takeWhile_part h.not_mem_quote hrest).1]

theorem Divided.find?_eq (h : Divided cs separator base quote) :
    separators.find? cs.contains = some separator := by
  obtain ⟨before, after, hsplit, hbefore⟩ := h.first
  obtain ⟨rest, hcs, -⟩ := h.parts
  refine List.find?_eq_some_iff_append.mpr ⟨?_, before, after, hsplit, fun c hc => ?_⟩
  · rw [List.contains_iff_mem, hcs]
    exact List.mem_append_right _ List.mem_cons_self
  · simpa using hbefore c hc

/-- A text is divided in one way. -/
theorem Divided.unique {separator' : Char} {base' quote' : List Char}
    (h : Divided cs separator base quote) (h' : Divided cs separator' base' quote') :
    separator = separator' ∧ base = base' ∧ quote = quote' := by
  obtain rfl := Option.some.inj (h.find?_eq.symm.trans h'.find?_eq)
  exact ⟨rfl, Prod.mk.inj (h.splitAt_eq.symm.trans h'.splitAt_eq)⟩

/-- A divided text is read part by part. -/
theorem ofChars?_of_divided (h : Divided cs separator base quote) :
    ofChars? cs = ofParts? base quote := by
  simp only [ofChars?, h.find?_eq, h.splitAt_eq]

theorem Divided.ne_nil (h : Divided cs separator base quote) (hcs : ofChars? cs = some p) :
    base ≠ [] ∧ quote ≠ [] := by
  rw [ofChars?_of_divided h, ofParts?] at hcs
  split at hcs
  · cases hcs
  · next hparts => simpa using hparts

/-- The parts of a divided text that a pair was read from. -/
theorem Divided.pair_eq (h : Divided cs separator base quote) (hcs : ofChars? cs = some p) :
    p = ⟨String.ofList (trimChars base), String.ofList (trimChars quote)⟩ := by
  rw [ofChars?_of_divided h, ofParts?] at hcs
  split at hcs
  · cases hcs
  · exact (Option.some.inj hcs).symm

/-- A text is divided unless it has no separator. -/
theorem divided_or_undivided (cs : List Char) :
    (∃ separator base quote, Divided cs separator base quote) ∨ Undivided cs := by
  have hdrop {separator c : Char} {l rest : List Char}
      (h : l.dropWhile (· != separator) = c :: rest) : c = separator := by
    have hnot := List.head?_dropWhile_not (· != separator) l
    rw [h] at hnot
    simpa using hnot
  cases hfind : separators.find? cs.contains with
  | none =>
    refine .inr fun separator hseparator hmem => ?_
    exact List.find?_eq_none.mp hfind separator hseparator (List.contains_iff_mem.mpr hmem)
  | some separator =>
    obtain ⟨hmem, before, after, hsplit, hbefore⟩ := List.find?_eq_some_iff_append.mp hfind
    have hnot (l : List Char) : separator ∉ l.takeWhile (· != separator) := fun h => by
      simpa using List.mem_takeWhile_imp h
    -- The text goes on with the separator after the base, and with it or nothing after the quote.
    obtain ⟨c, rest, hrest⟩ : ∃ c rest, cs.dropWhile (· != separator) = c :: rest := by
      refine List.exists_cons_of_ne_nil fun hnil => ?_
      have hall := List.dropWhile_eq_nil_iff.mp hnil separator (List.contains_iff_mem.mp hmem)
      simp at hall
    refine .inl ⟨separator, cs.takeWhile (· != separator), rest.takeWhile (· != separator), ?_⟩
    refine ⟨⟨before, after, hsplit, fun c hc => ?_⟩, ⟨rest.dropWhile (· != separator), ?_, ?_⟩,
      hnot _, hnot _⟩
    · simpa using hbefore c hc
    · rw [List.takeWhile_append_dropWhile, ← hdrop hrest, ← hrest, hdrop hrest,
        List.takeWhile_append_dropWhile]
    · intro c hc
      obtain ⟨rest', hrest'⟩ := List.head?_eq_some_iff.mp hc
      exact hdrop hrest'

/-! ## Joined texts -/

theorem ofSuffix?_eq_some_iff {currency : String} : ofSuffix? cs currency = some p ↔
    ∃ base, base ≠ [] ∧ cs = base ++ currency.toList ∧ p = ⟨String.ofList base, currency⟩ := by
  rw [ofSuffix?]
  constructor
  · intro h
    split at h
    · next hsuffix =>
      rw [Bool.and_eq_true, List.isSuffixOf_iff_suffix, decide_eq_true_eq] at hsuffix
      obtain ⟨⟨base, rfl⟩, hlength⟩ := hsuffix
      rw [List.length_append, String.length_toList] at hlength
      refine ⟨base, List.ne_nil_of_length_pos (by omega), rfl, ?_⟩
      rw [← Option.some.inj h, List.length_append, String.length_toList, Nat.add_sub_cancel,
        List.take_left]
    · cases h
  · rintro ⟨base, hbase, rfl, rfl⟩
    have hpos := List.length_pos_of_ne_nil hbase
    have hsuffix : currency.toList.isSuffixOf (base ++ currency.toList) = true :=
      List.isSuffixOf_iff_suffix.mpr (List.suffix_append _ _)
    rw [hsuffix, List.length_append, String.length_toList, Nat.add_sub_cancel, List.take_left]
    simp [hpos]

/-- Where there is no separator, the first quote currency is taken that stands at the end of the
text, after something. -/
theorem joined_of_ofChars? (h : Undivided cs) (hcs : ofChars? cs = some p) :
    (∃ base, base ≠ [] ∧ cs = base ++ p.quote.toList ∧ p.base = String.ofList base) ∧
      ∃ before after, quoteCurrencies = before ++ p.quote :: after ∧
        ∀ currency ∈ before, ¬ ∃ base, base ≠ [] ∧ cs = base ++ currency.toList := by
  have hfind : separators.find? cs.contains = none :=
    List.find?_eq_none.mpr fun separator hseparator hmem =>
      h separator hseparator (List.contains_iff_mem.mp hmem)
  simp only [ofChars?, hfind] at hcs
  obtain ⟨before, currency, after, hsplit, hfound, hbefore⟩ := List.findSome?_eq_some_iff.mp hcs
  obtain ⟨base, hbase, hparts, rfl⟩ := ofSuffix?_eq_some_iff.mp hfound
  refine ⟨⟨base, hbase, hparts, rfl⟩, before, after, hsplit, ?_⟩
  rintro other hother ⟨base', hbase', hparts'⟩
  have hnone := hbefore other hother
  rw [ofSuffix?_eq_some_iff.mpr ⟨base', hbase', hparts', rfl⟩] at hnone
  cases hnone

/-- Of the quote currencies only one ends in another. -/
theorem nested_currencies : ∀ currency ∈ quoteCurrencies, ∀ other ∈ quoteCurrencies,
    currency.toList <:+ other.toList → currency = other ∨ currency = "USD" ∧ other = "BUSD" := by
  decide

/-- A quote currency that stands after a blank is the one that is taken. -/
theorem eq_quote_of_blank (h : Undivided cs) (hcs : ofChars? cs = some p)
    {blank : Char} {currency : String} (hcurrency : currency ∈ quoteCurrencies)
    (hblank : isBlank blank = true) (hparts : cs = base ++ blank :: currency.toList) :
    currency = p.quote := by
  obtain ⟨⟨base', -, hparts', -⟩, before, after, hsplit, hbefore⟩ := joined_of_ofChars? h hcs
  have hquote : p.quote ∈ quoteCurrencies := by
    rw [hsplit]
    exact List.mem_append_right _ List.mem_cons_self
  have hsuffix : currency.toList <:+ cs := ⟨base ++ [blank], by rw [hparts, List.append_assoc]; rfl⟩
  rcases List.suffix_or_suffix_of_suffix hsuffix ⟨base', hparts'.symm⟩ with hnested | hnested
  · rcases nested_currencies _ hcurrency _ hquote hnested with heq | ⟨rfl, hlonger⟩
    · exact heq
    · -- The blank would be the first letter of the longer one.
      rw [hparts', hlonger] at hparts
      have hparts : base' ++ ['B'] ++ "USD".toList = base ++ [blank] ++ "USD".toList := by
        simpa using hparts
      have hsame : base' ++ ['B'] = base ++ [blank] := List.append_cancel_right hparts
      obtain rfl := (List.append_inj_right' hsame rfl |> List.cons.inj).1
      cases hblank
  · rcases nested_currencies _ hquote _ hcurrency hnested with heq | ⟨hshorter, rfl⟩
    · exact heq.symm
    · -- The longer one is looked for first.
      have hmem : "BUSD" ∈ before := by
        rw [hshorter] at hsplit
        rcases before with _ | ⟨a, _ | ⟨b, _ | ⟨c, before⟩⟩⟩ <;> simp [quoteCurrencies] at hsplit
        simp [hsplit]
      refine absurd ⟨base ++ [blank], List.append_ne_nil_of_right_ne_nil _ (List.cons_ne_nil _ _),
        ?_⟩ (hbefore "BUSD" hmem)
      rw [hparts, List.append_assoc]
      rfl

/-! ## The parts of a pair -/

theorem Divided.mem (h : Divided cs separator base quote) : separator ∈ cs := by
  obtain ⟨rest, rfl, -⟩ := h.parts
  exact List.mem_append_right _ List.mem_cons_self

theorem Divided.subset (h : Divided cs separator base quote) : base ⊆ cs ∧ quote ⊆ cs := by
  obtain ⟨rest, rfl, -⟩ := h.parts
  exact ⟨fun c hc => List.mem_append_left _ hc,
    fun c hc => List.mem_append_right _ (List.mem_cons_of_mem _ (List.mem_append_left _ hc))⟩

/-- The separators that come before the one that divides a text do not stand in it. -/
theorem Divided.cases (h : Divided cs separator base quote) :
    separator = '/' ∨ separator = '_' ∧ '/' ∉ cs ∨ separator = '-' ∧ '/' ∉ cs ∧ '_' ∉ cs := by
  obtain ⟨before, after, hsplit, hbefore⟩ := h.first
  rcases before with _ | ⟨a, _ | ⟨b, _ | ⟨c, before⟩⟩⟩ <;> simp [separators] at hsplit
  · exact .inl hsplit.1.symm
  · obtain ⟨rfl, rfl, -⟩ := hsplit
    exact .inr (.inl ⟨rfl, hbefore '/' List.mem_cons_self⟩)
  · obtain ⟨rfl, rfl, rfl, -⟩ := hsplit
    exact .inr (.inr ⟨rfl, hbefore '/' List.mem_cons_self,
      hbefore '_' (List.mem_cons_of_mem _ List.mem_cons_self)⟩)

theorem Divided.not_undivided (h : Divided cs separator base quote) : ¬ Undivided cs := by
  obtain ⟨before, after, hsplit, -⟩ := h.first
  refine fun hnone => hnone separator ?_ h.mem
  rw [hsplit]
  exact List.mem_append_right _ List.mem_cons_self

/-- The separator does not stand in a pair that was read from a divided text. -/
theorem Divided.not_mem (h : Divided cs separator base quote) (hcs : ofChars? cs = some p) :
    separator ∉ p.base.toList ∧ separator ∉ p.quote.toList := by
  rw [h.pair_eq hcs, String.toList_ofList, String.toList_ofList]
  exact ⟨fun hmem => h.not_mem_base (trimChars_subset hmem),
    fun hmem => h.not_mem_quote (trimChars_subset hmem)⟩

theorem currency_trimmed :
    ∀ currency ∈ quoteCurrencies, trimChars currency.toList = currency.toList := by
  decide

/-- What a pair consists of: characters of the text. The base begins with the text, and so with no
blank; the quote has no blanks around it. -/
structure Parts (cs : List Char) (p : Pair) : Prop where
  /-- The base consists of characters of the text. -/
  base_subset : p.base.toList ⊆ cs
  /-- The quote consists of characters of the text. -/
  quote_subset : p.quote.toList ⊆ cs
  /-- The base is not empty. -/
  base_ne_nil : p.base.toList ≠ []
  /-- The base does not begin with a blank. -/
  base_first {c : Char} {rest : List Char} : p.base.toList = c :: rest → isBlank c = false
  /-- The quote has no blanks around it. -/
  quote_trimmed : IsTrimmed p.quote.toList

theorem parts_of_ofChars? (htrimmed : IsTrimmed cs) (hcs : ofChars? cs = some p) : Parts cs p := by
  rcases divided_or_undivided cs with ⟨separator, base, quote, h⟩ | h
  · obtain ⟨hbase, hquote⟩ := h.subset
    obtain ⟨hne, -⟩ := h.ne_nil hcs
    obtain ⟨rest, hparts, -⟩ := h.parts
    obtain rfl := h.pair_eq hcs
    obtain ⟨c, base', rfl⟩ := List.exists_cons_of_ne_nil hne
    have hfirst : isBlank c = false := htrimmed.first hparts
    refine ⟨?_, ?_, ?_, ?_, ?_⟩ <;> simp only [String.toList_ofList]
    · exact List.Subset.trans trimChars_subset hbase
    · exact List.Subset.trans trimChars_subset hquote
    · exact List.ne_nil_of_mem ((mem_trimChars hfirst).mpr List.mem_cons_self)
    · exact (isTrimmed_trimChars _).first
    · exact isTrimmed_trimChars _
  · obtain ⟨⟨base, hne, hparts, hbase⟩, before, after, hsplit, -⟩ := joined_of_ofChars? h hcs
    have hquote : p.quote ∈ quoteCurrencies := by
      rw [hsplit]
      exact List.mem_append_right _ List.mem_cons_self
    have hlist : p.base.toList = base := by rw [hbase, String.toList_ofList]
    refine ⟨?_, ?_, by rwa [hlist], ?_, ?_⟩
    · rw [hlist, hparts]
      exact List.subset_append_left _ _
    · rw [hparts]
      exact List.subset_append_right _ _
    · intro c rest heq
      exact htrimmed.first (by rw [hparts, ← hlist, heq, List.cons_append])
    · exact trimChars_eq_self_iff.mp (currency_trimmed _ hquote)

/-! ## The forms of a pair -/

/-- A form in which a pair is written. -/
inductive Form where
  /-- With a slash between the parts. -/
  | standard
  /-- As the venue writes it. -/
  | venue
  deriving DecidableEq

/-- What stands between the parts. -/
def Form.mark : Form → Char
  | standard => '/'
  | venue => '_'

/-- The pair in a form. -/
def write (p : Pair) : Form → String
  | .standard => p.standard
  | .venue => p.venue

/-- A text after it was converted to some forms, one after the other. -/
def convert (symbol : String) (forms : List Form) : Option String :=
  forms.foldlM (fun symbol form => (parse? symbol).map (·.write form)) symbol

theorem toList_write (p : Pair) (form : Form) :
    (p.write form).toList = p.base.toList ++ form.mark :: p.quote.toList := by
  cases form <;> simp [write, standard, venue, Form.mark]

/-- A form of a pair that was read is folded as it is. -/
theorem folded_write (hupper : IsUpper cs) (h : Parts cs p) (form : Form) :
    folded (p.write form) = p.base.toList ++ form.mark :: p.quote.toList := by
  have hseparator : upperChar form.mark = [form.mark] ∧ isBlank form.mark = false := by
    cases form <;> decide
  rw [← String.ofList_toList (s := p.write form), toList_write]
  refine folded_ofList (fun c hc => ?_) ⟨fun {c rest} heq => ?_, fun {front c} heq => ?_⟩
  · rcases List.mem_append.mp hc with hc | hc
    · exact hupper c (h.base_subset hc)
    · rcases List.mem_cons.mp hc with rfl | hc
      · exact hseparator.1
      · exact hupper c (h.quote_subset hc)
  · obtain ⟨d, base, hbase⟩ := List.exists_cons_of_ne_nil h.base_ne_nil
    rw [hbase] at heq
    obtain rfl := (List.cons.inj heq).1
    exact h.base_first hbase
  · rcases List.eq_nil_or_concat' p.quote.toList with hquote | ⟨quote, d, hquote⟩
    · rw [hquote] at heq
      obtain ⟨-, hlast⟩ := List.append_inj' heq rfl
      obtain rfl := (List.cons.inj hlast).1
      exact hseparator.2
    · rw [hquote, ← List.cons_append, ← List.append_assoc] at heq
      obtain ⟨-, hlast⟩ := List.append_inj' heq rfl
      obtain rfl := (List.cons.inj hlast).1
      exact h.quote_trimmed.last hquote

/-- Where the separators of a form do not stand in the parts, these are what the form is divided
into. -/
theorem divided_write {form : Form} (hslash : '/' ∉ p.base.toList ∧ '/' ∉ p.quote.toList)
    (hseparator : form.mark ∉ p.base.toList ∧ form.mark ∉ p.quote.toList) :
    Divided (p.base.toList ++ form.mark :: p.quote.toList) form.mark p.base.toList
      p.quote.toList := by
  refine ⟨?_, ⟨[], by rw [List.append_nil], nofun⟩, hseparator.1, hseparator.2⟩
  cases form with
  | standard => exact ⟨[], ['_', '-'], rfl, List.forall_mem_nil _⟩
  | venue => exact ⟨['/'], ['-'], rfl, by simp [hslash, Form.mark]⟩

theorem Parts.not_mem (h : Parts cs p) {c : Char} (hc : c ∉ cs) :
    c ∉ p.base.toList ∧ c ∉ p.quote.toList :=
  ⟨fun hmem => hc (h.base_subset hmem), fun hmem => hc (h.quote_subset hmem)⟩

theorem slash_not_mem (h : Parts cs p) (hcs : ofChars? cs = some p) :
    '/' ∉ p.base.toList ∧ '/' ∉ p.quote.toList := by
  rcases divided_or_undivided cs with ⟨separator, base, quote, hdivided⟩ | hundivided
  · rcases hdivided.cases with rfl | ⟨-, hslash⟩ | ⟨-, hslash, -⟩
    · exact hdivided.not_mem hcs
    · exact h.not_mem hslash
    · exact h.not_mem hslash
  · exact h.not_mem (hundivided '/' List.mem_cons_self)

/-- What a form is read as again, if its separator does not stand in the parts. -/
theorem parse?_write_iff (hupper : IsUpper cs) (hcs : ofChars? cs = some p) (h : Parts cs p)
    (form : Form) :
    parse? (p.write form) = some p ↔ p.quote ≠ "" ∧ trim p.base = p.base ∧
      form.mark ∉ p.base.toList ∧ form.mark ∉ p.quote.toList := by
  have hslash := slash_not_mem h hcs
  rw [parse?_eq, folded_write hupper h]
  constructor
  · intro hagain
    -- The form is divided by its own separator, since none that is looked for earlier stands in it.
    have hseparator : form.mark ∉ p.base.toList ∧ form.mark ∉ p.quote.toList := by
      rcases divided_or_undivided (p.base.toList ++ form.mark :: p.quote.toList) with
        ⟨separator, base, quote, hdivided⟩ | hundivided
      · have hmem : form.mark ∈ p.base.toList ++ form.mark :: p.quote.toList :=
          List.mem_append_right _ List.mem_cons_self
        have hdivides := hdivided.mem
        rcases hdivided.cases with rfl | ⟨rfl, hnot⟩ | ⟨rfl, hnot, hnot'⟩
        · cases form with
          | standard => exact hslash
          | venue => simp [hslash, Form.mark] at hdivides
        · cases form with
          | standard => exact hslash
          | venue => exact hdivided.not_mem hagain
        · cases form with
          | standard => exact absurd hmem hnot
          | venue => exact absurd hmem hnot'
      · refine absurd (List.mem_append_right _ List.mem_cons_self) (hundivided form.mark ?_)
        cases form <;> decide
    have hdivided := divided_write hslash hseparator
    refine ⟨fun hquote => (hdivided.ne_nil hagain).2 (by rw [hquote]; rfl), ?_, hseparator⟩
    have hpair := hdivided.pair_eq hagain
    exact (congrArg Pair.base hpair).symm
  · rintro ⟨hquote, hbase, hseparator⟩
    rw [ofChars?_of_divided (divided_write hslash hseparator), ofParts?, if_neg]
    · change some (Pair.mk (trim p.base) (trim p.quote)) = some p
      rw [hbase, trim, trimChars_eq_self_iff.mpr h.quote_trimmed, String.ofList_toList]
    · simpa [String.toList_eq_nil_iff, hquote] using h.base_ne_nil

/-! ## Coming back -/

/-- The parts of the pair that a text was read as are neither empty nor surrounded by blanks, each
form of the pair is read as the pair again, and so is whatever the text is converted to. -/
structure ComesBack (symbol : String) (p : Pair) : Prop where
  /-- There is a base. -/
  base_nonempty : p.base ≠ ""
  /-- There is a quote. -/
  quote_nonempty : p.quote ≠ ""
  /-- The base has no blanks around it. -/
  base_trimmed : trim p.base = p.base
  /-- The quote has no blanks around it. -/
  quote_trimmed : trim p.quote = p.quote
  /-- Each form of the pair is read as the pair. -/
  again (form : Form) : parse? (p.write form) = some p
  /-- Through whatever forms the text goes, it ends up as the last form of the pair. -/
  converted (forms : List Form) (form : Form) :
    convert symbol (forms ++ [form]) = some (p.write form)

/-- A text without a separator and with a blank before the quote currency. -/
def Spaced (cs : List Char) : Prop :=
  Undivided cs ∧ ∃ base blank, ∃ currency ∈ quoteCurrencies, isBlank blank = true ∧
    cs = base ++ blank :: currency.toList

/-- A text with nothing but blanks for a quote. -/
def LacksQuote (cs : List Char) : Prop :=
  ∃ separator base quote, Divided cs separator base quote ∧ ∀ c ∈ quote, isBlank c = true

/-- A text that is divided by a slash and has an underscore in one of its parts. -/
def Underscored (cs : List Char) : Prop :=
  ∃ base quote, Divided cs '/' base quote ∧ ('_' ∈ base ∨ '_' ∈ quote)

theorem trim_eq_self_iff {s : String} : trim s = s ↔ IsTrimmed s.toList := by
  rw [← trimChars_eq_self_iff, trim, ← String.toList_inj, String.toList_ofList]

theorem base_trimmed_iff (hcs : ofChars? cs = some p) (h : Parts cs p) :
    trim p.base = p.base ↔ ¬ Spaced cs := by
  rcases divided_or_undivided cs with ⟨separator, base, quote, hdivided⟩ | hundivided
  · refine iff_of_true ?_ fun hspaced => hdivided.not_undivided hspaced.1
    rw [trim_eq_self_iff, hdivided.pair_eq hcs, String.toList_ofList]
    exact isTrimmed_trimChars base
  · obtain ⟨⟨base, -, hparts, hbase⟩, before, after, hsplit, -⟩ := joined_of_ofChars? hundivided hcs
    have hlist : p.base.toList = base := by rw [hbase, String.toList_ofList]
    rw [trim_eq_self_iff, hlist]
    constructor
    · rintro htrimmed ⟨-, base', blank, currency, hcurrency, hblank, hparts'⟩
      have heq := eq_quote_of_blank hundivided hcs hcurrency hblank hparts'
      rw [hparts, heq, List.append_cons, List.append_left_inj] at hparts'
      rw [htrimmed.last hparts'] at hblank
      cases hblank
    · refine fun hspaced => ⟨fun {c rest} heq => h.base_first (hlist.trans heq),
        fun {front c} heq => ?_⟩
      by_contra hblank
      refine hspaced ⟨hundivided, front, c, p.quote, ?_, Bool.not_eq_false _ ▸ hblank, ?_⟩
      · rw [hsplit]
        exact List.mem_append_right _ List.mem_cons_self
      · rw [hparts, heq, List.append_assoc]
        rfl

theorem quote_nonempty_iff (hcs : ofChars? cs = some p) : p.quote ≠ "" ↔ ¬ LacksQuote cs := by
  constructor
  · rintro hquote ⟨separator, base, quote, hdivided, hblank⟩
    refine hquote ?_
    rw [hdivided.pair_eq hcs, trimChars_eq_nil_iff.mpr hblank, String.ofList_nil]
  · intro hlacks hquote
    rcases divided_or_undivided cs with ⟨separator, base, quote, hdivided⟩ | hundivided
    · refine hlacks ⟨separator, base, quote, hdivided, trimChars_eq_nil_iff.mp ?_⟩
      rw [hdivided.pair_eq hcs] at hquote
      simpa using congrArg String.toList hquote
    · obtain ⟨-, before, after, hsplit, -⟩ := joined_of_ofChars? hundivided hcs
      have hmem : "" ∈ quoteCurrencies := by
        rw [hsplit, hquote]
        exact List.mem_append_right _ List.mem_cons_self
      exact absurd hmem (by decide)

/-- An underscore is in a part of the pair only if the text is divided by a slash and has one in a
part. -/
theorem not_mem_underscore_iff (hcs : ofChars? cs = some p) (h : Parts cs p) :
    ('_' ∉ p.base.toList ∧ '_' ∉ p.quote.toList) ↔ ¬ Underscored cs := by
  have hslash {base quote : List Char} (hdivided : Divided cs '/' base quote) :
      ('_' ∉ p.base.toList ∧ '_' ∉ p.quote.toList) ↔ '_' ∉ base ∧ '_' ∉ quote := by
    rw [hdivided.pair_eq hcs, String.toList_ofList, String.toList_ofList, mem_trimChars (by decide),
      mem_trimChars (by decide)]
  constructor
  · rintro hparts ⟨base, quote, hdivided, hmem⟩
    obtain ⟨hbase, hquote⟩ := (hslash hdivided).mp hparts
    exact hmem.elim hbase hquote
  · intro hnot
    rcases divided_or_undivided cs with ⟨separator, base, quote, hdivided⟩ | hundivided
    · rcases hdivided.cases with rfl | ⟨rfl, -⟩ | ⟨rfl, -, hunderscore⟩
      · exact (hslash hdivided).mpr ⟨fun hmem => hnot ⟨base, quote, hdivided, .inl hmem⟩,
          fun hmem => hnot ⟨base, quote, hdivided, .inr hmem⟩⟩
      · exact hdivided.not_mem hcs
      · exact h.not_mem hunderscore
    · exact h.not_mem (hundivided '_' (by decide))

/-- Where each form is read again, so is what it is converted to. -/
theorem convert_eq {symbol : String} (h : parse? symbol = some p)
    (hagain : ∀ form, parse? (p.write form) = some p) (forms : List Form) (form : Form) :
    convert symbol (forms ++ [form]) = some (p.write form) := by
  induction forms generalizing symbol with
  | nil => simp [convert, h]
  | cons first forms ih =>
    have hnext := ih (hagain first)
    simpa [convert, h] using hnext

/-- **What comes back.** A text that is read as a pair has a base, and a quote without blanks around
it. The standard form of the pair is read as the pair again **if and only if** there was no blank
before the quote currency of a text without separators, and something else than blanks for a quote
in a text with one. The pair comes back, from both forms and however often they are converted into
each other, **if and only if** moreover no part of a text that is divided by a slash has an
underscore in it. -/
theorem comesBack_iff {symbol : String} {p : Pair} (h : parse? symbol = some p) :
    p.base ≠ "" ∧ trim p.quote = p.quote ∧
      (parse? p.standard = some p ↔ ¬ Spaced (folded symbol) ∧ ¬ LacksQuote (folded symbol)) ∧
      (ComesBack symbol p ↔ ¬ Spaced (folded symbol) ∧ ¬ LacksQuote (folded symbol) ∧
        ¬ Underscored (folded symbol)) := by
  have hcs : ofChars? (folded symbol) = some p := h
  have hparts := parts_of_ofChars? (isTrimmed_folded symbol) hcs
  have hbase : p.base ≠ "" := mt String.toList_eq_nil_iff.mpr hparts.base_ne_nil
  have hquote : trim p.quote = p.quote := trim_eq_self_iff.mpr hparts.quote_trimmed
  have hagain := parse?_write_iff (isUpper_folded symbol) hcs hparts
  have hslash := slash_not_mem hparts hcs
  have hspaced := base_trimmed_iff hcs hparts
  have hlacks := quote_nonempty_iff hcs
  have hunderscored := not_mem_underscore_iff hcs hparts
  refine ⟨hbase, hquote, ?_, ?_⟩
  · rw [← hspaced, ← hlacks]
    exact (hagain .standard).trans
      ⟨fun ⟨hne, htrimmed, _⟩ => ⟨htrimmed, hne⟩, fun ⟨htrimmed, hne⟩ => ⟨hne, htrimmed, hslash⟩⟩
  · rw [← hspaced, ← hlacks, ← hunderscored]
    constructor
    · intro hback
      obtain ⟨hne, htrimmed, hmark⟩ := (hagain .venue).mp (hback.again .venue)
      exact ⟨htrimmed, hne, hmark⟩
    · rintro ⟨htrimmed, hne, hmark⟩
      have hforms (form : Form) : parse? (p.write form) = some p := by
        refine (hagain form).mpr ⟨hne, htrimmed, ?_⟩
        cases form with
        | standard => exact hslash
        | venue => exact hmark
      exact ⟨hbase, hne, htrimmed, hquote, hforms, convert_eq h hforms⟩

/-- Blanks around the parts are not in the way. -/
theorem comesBack_iff_blanks : parse? "  eth / usdc  " = some ⟨"ETH", "USDC"⟩ ∧
    ComesBack "  eth / usdc  " ⟨"ETH", "USDC"⟩ := by
  have hparse : parse? "  eth / usdc  " = some ⟨"ETH", "USDC"⟩ := by decide
  have hdivided : Divided (folded "  eth / usdc  ") '/' "ETH ".toList " USDC".toList :=
    ⟨⟨[], ['_', '-'], rfl, List.forall_mem_nil _⟩, ⟨[], by decide, nofun⟩, by decide, by decide⟩
  obtain ⟨-, -, -, hiff⟩ := comesBack_iff hparse
  refine ⟨hparse, hiff.mpr ⟨fun hspaced => hdivided.not_undivided hspaced.1, ?_, ?_⟩⟩
  · rintro ⟨separator, base, quote, h, hblank⟩
    obtain ⟨-, -, rfl⟩ := hdivided.unique h
    exact absurd (hblank 'U' (by decide)) (by decide)
  · rintro ⟨base, quote, h, hmem⟩
    obtain ⟨-, rfl, rfl⟩ := hdivided.unique h
    exact absurd hmem (by decide)

/-- A blank before a quote currency is left in the base. -/
theorem not_comesBack_spaced : parse? "BTC USDT" = some ⟨"BTC ", "USDT"⟩ ∧
    ¬ ComesBack "BTC USDT" ⟨"BTC ", "USDT"⟩ := by
  refine ⟨by decide, fun h => ?_⟩
  have hparts : "BTC ".toList = ['B', 'T', 'C'] ++ [' '] := rfl
  have hblank : isBlank ' ' = false := (trim_eq_self_iff.mp h.base_trimmed).last hparts
  cases hblank

end MarketMaker.Pair
