import MarketMaker.Decimal.Numeral
import MarketMaker.Proofs.Texts

/-!
# What is read as a decimal literal

A **literal** is a sign, digits with a point among them, and a power of ten; all but one digit may
be missing, and the word for infinity may stand in place of the rest (`Literal`). Each part has a
grammar, and a reader that takes as much of it from the start of some characters as there is
(`Greedy`). Greedy readers can be put one after the other, as long as nothing of the second grammar
could be taken by the first reader (`Greedy.andThen`).

So the longest literal at the start of the characters is what is read, with its number
(`literal_eq_some_iff`). A text **begins** with it if there is nothing but blanks before
(`ofLeading_eq`), and **is** it if there is nothing but blanks behind, either
(`literal_eq_whole_iff`).
-/

namespace MarketMaker.Numeral

open Text

variable {β γ : Type} {cs ds front back rest : List Char} {negative : Bool} {n : Numeral}

/-! ## Greedy readers -/

/-- A reader takes from the start of any characters something of a grammar, and nothing of the
grammar that it meets there is longer. -/
structure Greedy (grammar : List Char → β → Prop) (read : List Char → β × List Char) : Prop where
  /-- What is taken is of the grammar, with its meaning. -/
  sound (cs : List Char) : ∃ front, cs = front ++ (read cs).2 ∧ grammar front (read cs).1
  /-- Nothing of the grammar reaches farther, and what reaches as far means the same. -/
  longest {front : List Char} {b : β} (h : grammar front b) (rest : List Char) :
    (read (front ++ rest)).2 <:+ rest ∧
    ((read (front ++ rest)).2 = rest → (read (front ++ rest)).1 = b)

/-- Something of one grammar, and then something of another. -/
inductive Then (first : List Char → β → Prop) (second : List Char → γ → Prop) :
    List Char → β × γ → Prop where
  /-- The values of the two are a pair. -/
  | intro {front back : List Char} {b : β} {c : γ} (hfront : first front b)
    (hback : second back c) : Then first second (front ++ back) (b, c)

/-- Two readers, one after the other. -/
def andThen (read : List Char → β × List Char) (next : List Char → γ × List Char) (cs : List Char) :
    (β × γ) × List Char :=
  (((read cs).1, (next (read cs).2).1), (next (read cs).2).2)

/-- The first reader has to stop where something of the second grammar begins. -/
theorem Greedy.andThen {first : List Char → β → Prop} {second : List Char → γ → Prop}
    {read : List Char → β × List Char} {next : List Char → γ × List Char}
    (hread : Greedy first read) (hnext : Greedy second next)
    (hstop : ∀ {front back : List Char} {b : β} {c : γ}, first front b → second back c → back ≠ [] →
      ∀ rest, read (front ++ (back ++ rest)) = (b, back ++ rest)) :
    Greedy (Then first second) (andThen read next) where
  sound cs := by
    obtain ⟨front, hcs, hfront⟩ := hread.sound cs
    obtain ⟨back, hrest, hback⟩ := hnext.sound (read cs).2
    refine ⟨front ++ back, ?_, .intro hfront hback⟩
    rw [List.append_assoc, Numeral.andThen, ← hrest, ← hcs]
  longest := by
    rintro _ _ (@⟨front, back, b, c, hfront, hback⟩) rest
    rw [List.append_assoc, Numeral.andThen]
    by_cases hnil : back = []
    · subst hnil
      rw [List.nil_append]
      obtain ⟨hsuffix, hsame⟩ := hread.longest hfront rest
      obtain ⟨taken, htaken, -⟩ := hnext.sound (read (front ++ rest)).2
      have hsuffix' : (next (read (front ++ rest)).2).2 <:+ (read (front ++ rest)).2 :=
        ⟨taken, htaken.symm⟩
      refine ⟨hsuffix'.trans hsuffix, fun hall => ?_⟩
      -- Nothing was taken by either, so that both have read what they would have read of nothing.
      have hfirst : (read (front ++ rest)).2 = rest := by
        refine hsuffix.eq_of_length_le ?_
        have hlength := hsuffix'.length_le
        rwa [hall] at hlength
      rw [hfirst] at hall ⊢
      have hsecond : (next rest).1 = c := (hnext.longest hback rest).2 hall
      rw [hsame hfirst, hsecond]
    · rw [hstop hfront hback hnil rest]
      obtain ⟨hsuffix, hsame⟩ := hnext.longest hback rest
      exact ⟨hsuffix, fun hall => by rw [hsame hall]⟩

/-! ## The parts of a literal -/

/-- A sign; none counts as plus. -/
inductive Sign : List Char → Bool → Prop where
  /-- No sign. -/
  | none : Sign [] false
  /-- A plus. -/
  | plus : Sign ['+'] false
  /-- A minus. -/
  | minus : Sign ['-'] true

/-- Some digits, perhaps none. -/
inductive Digits : List Char → List Char → Prop where
  /-- The value is the digits themselves. -/
  | run {ds : List Char} (digits : ∀ c ∈ ds, isDigit c = true) : Digits ds ds

/-- The digits after a point, if there is one. -/
inductive Fraction : List Char → List Char → Prop where
  /-- No point. -/
  | none : Fraction [] []
  /-- A point, and perhaps no digit behind it. -/
  | point {ds : List Char} (digits : ∀ c ∈ ds, isDigit c = true) : Fraction ('.' :: ds) ds

/-- The number that digits write. -/
def number (ds : List Char) : ℕ := Nat.ofDigits 10 (ds.reverse.map fun c => c.toNat - 48)

/-- A power of ten; none counts as the zeroth. -/
inductive Power : List Char → ℤ → Prop where
  /-- No mark. -/
  | none : Power [] 0
  /-- A mark, a sign, and at least one digit. -/
  | mark {mark : Char} {plusMinus ds : List Char} {negative : Bool}
    (hmark : mark = 'e' ∨ mark = 'E') (hsign : Sign plusMinus negative)
    (digits : ∀ c ∈ ds, isDigit c = true) (ne_nil : ds ≠ []) :
    Power (mark :: (plusMinus ++ ds)) (if negative then -(number ds : ℤ) else number ds)

theorem digitsValue_eq (ds : List Char) : digitsValue 0 ds = number ds := by
  induction ds using List.reverseRecOn with
  | nil => rfl
  | append_singleton ds c ih =>
    have hstep : digitsValue 0 (ds ++ [c]) = 10 * digitsValue 0 ds + (c.toNat - 48) := by
      rw [digitsValue, List.foldl_append]
      rfl
    rw [hstep, ih, number, number, List.reverse_append, List.map_append, List.reverse_singleton,
      List.map_singleton, List.singleton_append, Nat.ofDigits_cons]
    omega

/-- Digits go on as far as they can. -/
theorem takeWhile_digits (h : ∀ c ∈ ds, isDigit c = true) (rest : List Char) :
    (ds ++ rest).takeWhile isDigit = ds ++ rest.takeWhile isDigit ∧
      (ds ++ rest).dropWhile isDigit = rest.dropWhile isDigit :=
  ⟨List.takeWhile_append_of_pos h, List.dropWhile_append_of_pos h⟩

/-- Digits end where none follows. -/
theorem takeWhile_digits_stop (h : ∀ c ∈ ds, isDigit c = true)
    (hrest : ∀ c ∈ rest.head?, isDigit c = false) :
    (ds ++ rest).takeWhile isDigit = ds ∧ (ds ++ rest).dropWhile isDigit = rest := by
  obtain ⟨htake, hdrop⟩ := takeWhile_digits h rest
  rw [htake, hdrop]
  cases rest with
  | nil => exact ⟨List.append_nil ds, rfl⟩
  | cons c rest => simp [hrest c rfl]

theorem forall_takeWhile (cs : List Char) : ∀ c ∈ cs.takeWhile isDigit, isDigit c = true :=
  fun _ => List.mem_takeWhile_imp

/-- Nothing was passed over if everything is left. -/
theorem takeWhile_eq_nil (h : rest.dropWhile isDigit = rest) : rest.takeWhile isDigit = [] := by
  have hsplit := List.takeWhile_append_dropWhile (p := isDigit) (l := rest)
  rw [h] at hsplit
  exact List.append_left_eq_self.mp hsplit

theorem greedy_digits : Greedy Digits fun cs => (cs.takeWhile isDigit, cs.dropWhile isDigit) where
  sound cs := ⟨_, List.takeWhile_append_dropWhile.symm, .run (forall_takeWhile cs)⟩
  longest := by
    rintro _ _ ⟨h⟩ rest
    obtain ⟨htake, hdrop⟩ := takeWhile_digits h rest
    simp only [htake, hdrop]
    exact ⟨List.dropWhile_suffix _, fun hall => by rw [takeWhile_eq_nil hall, List.append_nil]⟩

theorem greedy_sign : Greedy Sign sign where
  sound cs := by
    unfold sign
    split
    · exact ⟨_, rfl, .minus⟩
    · exact ⟨_, rfl, .plus⟩
    · exact ⟨[], rfl, .none⟩
  longest := by
    rintro _ _ (_ | _ | _) rest
    · rw [List.nil_append]
      unfold sign
      split
      · exact ⟨List.suffix_cons _ _, fun hall => absurd hall.symm (List.cons_ne_self _ _)⟩
      · exact ⟨List.suffix_cons _ _, fun hall => rfl⟩
      · exact ⟨List.suffix_rfl, fun _ => rfl⟩
    · exact ⟨List.suffix_rfl, fun _ => rfl⟩
    · exact ⟨List.suffix_rfl, fun _ => rfl⟩

/-- Where no sign begins, the reader of signs takes nothing; after one it stops. -/
theorem sign_append {plusMinus : List Char} (h : Sign plusMinus negative)
    (hrest : ∀ c ∈ rest.head?, c ≠ '+' ∧ c ≠ '-') :
    sign (plusMinus ++ rest) = (negative, rest) := by
  cases h with
  | none =>
    rw [List.nil_append]
    unfold sign
    split
    · exact absurd rfl (hrest '-' rfl).2
    · exact absurd rfl (hrest '+' rfl).1
    · rfl
  | plus => rfl
  | minus => rfl

/-- The digits after a point at the start, and the rest. -/
def fractionPart : List Char → List Char × List Char
  | '.' :: more => (more.takeWhile isDigit, more.dropWhile isDigit)
  | more => ([], more)

theorem greedy_fractionPart : Greedy Fraction fractionPart where
  sound cs := by
    unfold fractionPart
    split
    · next more =>
      refine ⟨'.' :: more.takeWhile isDigit, ?_, .point (forall_takeWhile more)⟩
      rw [List.cons_append, List.takeWhile_append_dropWhile]
    · exact ⟨[], rfl, .none⟩
  longest := by
    rintro _ _ (_ | hdigits) rest
    · rw [List.nil_append]
      unfold fractionPart
      split
      · next more =>
        have hsuffix : more.dropWhile isDigit <:+ more := List.dropWhile_suffix _
        refine ⟨hsuffix.trans (List.suffix_cons _ _), fun hall => ?_⟩
        rw [show more.dropWhile isDigit = '.' :: more from hall] at hsuffix
        exact absurd hsuffix.length_le (Nat.not_succ_le_self _)
      · exact ⟨List.suffix_rfl, fun _ => rfl⟩
    · exact greedy_digits.longest (.run hdigits) rest

/-- A mark is read together with its digits, if there are any behind its sign. -/
theorem exponentPart_mark {mark : Char} (hmark : mark = 'e' ∨ mark = 'E') (cs : List Char) :
    exponentPart (mark :: cs) =
    if ((sign cs).2.takeWhile isDigit).isEmpty then (0, mark :: cs)
    else (if (sign cs).1 then -(number ((sign cs).2.takeWhile isDigit) : ℤ)
      else number ((sign cs).2.takeWhile isDigit), (sign cs).2.dropWhile isDigit) := by
  simp only [exponentPart, if_pos hmark, digitsValue_eq]

theorem exponentPart_cases (cs : List Char) : exponentPart cs = (0, cs) ∨
    ∃ front exponent rest, front ≠ [] ∧ Power front exponent ∧ cs = front ++ rest ∧
      exponentPart cs = (exponent, rest) := by
  cases cs with
  | nil => exact .inl rfl
  | cons mark cs =>
    by_cases hmark : mark = 'e' ∨ mark = 'E'
    · rw [exponentPart_mark hmark]
      obtain ⟨plusMinus, hcs, hsign⟩ := greedy_sign.sound cs
      by_cases hnone : ((sign cs).2.takeWhile isDigit).isEmpty = true
      · exact .inl (if_pos hnone)
      · rw [if_neg hnone]
        rw [List.isEmpty_iff] at hnone
        refine .inr ⟨mark :: (plusMinus ++ (sign cs).2.takeWhile isDigit), _, _,
          List.cons_ne_nil _ _, .mark hmark hsign (forall_takeWhile _) hnone, ?_, rfl⟩
        rw [List.cons_append, List.append_assoc, List.takeWhile_append_dropWhile, ← hcs]
    · refine .inl ?_
      simp only [exponentPart, if_neg hmark]

theorem head?_digits (h : ∀ c ∈ ds, isDigit c = true) (hne : ds ≠ []) (rest : List Char) :
    ∀ c ∈ (ds ++ rest).head?, isDigit c = true := by
  obtain ⟨d, ds, rfl⟩ := List.exists_cons_of_ne_nil hne
  rintro _ ⟨⟩
  exact h d List.mem_cons_self

theorem toNat_lt_of_isDigit {c : Char} (h : isDigit c = true) : c.toNat < 128 := by
  simp only [isDigit, Bool.and_eq_true, decide_eq_true_eq] at h
  have hle : c.toNat ≤ 57 := h.2
  omega

/-- Digits are no signs, and do not begin the word for infinity. -/
theorem isDigit_facts {c : Char} (h : isDigit c = true) : c ≠ '+' ∧ c ≠ '-' ∧ c ≠ 'I' := by
  obtain ⟨n, rfl⟩ := exists_basic (toNat_lt_of_isDigit h)
  revert n
  decide +kernel

theorem greedy_exponentPart : Greedy Power exponentPart where
  sound cs := by
    rcases exponentPart_cases cs with heq | ⟨front, exponent, rest, -, hpower, hcs, heq⟩ <;>
      rw [heq]
    · exact ⟨[], rfl, .none⟩
    · exact ⟨front, hcs, hpower⟩
  longest := by
    rintro _ _ (_ | @⟨mark, plusMinus, ds, negative, hmark, hsign, hdigits, hne⟩) rest
    · rw [List.nil_append]
      rcases exponentPart_cases rest with heq | ⟨front, exponent, rest', hne, -, hcs, heq⟩ <;>
        rw [heq]
      · exact ⟨List.suffix_rfl, fun _ => rfl⟩
      · exact ⟨⟨front, hcs.symm⟩,
          fun hall => absurd (List.append_left_eq_self.mp (hcs.symm.trans hall.symm)) hne⟩
    · have hhead : ∀ c ∈ (ds ++ rest).head?, c ≠ '+' ∧ c ≠ '-' := fun c hc =>
        let hfacts := isDigit_facts (head?_digits hdigits hne rest c hc)
        ⟨hfacts.1, hfacts.2.1⟩
      obtain ⟨htake, hdrop⟩ := takeWhile_digits hdigits rest
      have hsome : ¬ (ds ++ rest.takeWhile isDigit).isEmpty = true := by simp [hne]
      rw [List.cons_append, List.append_assoc, exponentPart_mark hmark, sign_append hsign hhead]
      simp only [htake, hdrop]
      rw [if_neg hsome]
      exact ⟨List.dropWhile_suffix _, fun hall => by rw [takeWhile_eq_nil hall, List.append_nil]⟩

/-! ## Decimals -/

/-- Digits, a fraction and a power of ten, each of which may be missing. -/
def Decimal : List Char → List Char × List Char × ℤ → Prop := Then Digits (Then Fraction Power)

/-- What is read of a decimal, and the rest. -/
def readDecimal : List Char → (List Char × List Char × ℤ) × List Char :=
  andThen (fun cs => (cs.takeWhile isDigit, cs.dropWhile isDigit))
    (andThen fractionPart exponentPart)

theorem Power.head? {exponent : ℤ} (h : Power back exponent) (hne : back ≠ []) (rest : List Char) :
    ∀ c ∈ (back ++ rest).head?, c = 'e' ∨ c = 'E' := by
  cases h with
  | none => exact absurd rfl hne
  | mark hmark =>
    rintro _ ⟨⟩
    exact hmark

theorem greedy_tail : Greedy (Then Fraction Power) (andThen fractionPart exponentPart) := by
  refine greedy_fractionPart.andThen greedy_exponentPart
    fun {front back fraction exponent} hfront hback hne rest => ?_
  have hhead := hback.head? hne rest
  cases hfront with
  | none =>
    rw [List.nil_append]
    unfold fractionPart
    split
    · next heq =>
      rw [heq] at hhead
      exact absurd (hhead '.' rfl) (by decide)
    · rfl
  | point hdigits =>
    have hstop : ∀ c ∈ (back ++ rest).head?, isDigit c = false := by
      intro c hc
      rcases hhead c hc with rfl | rfl <;> decide
    obtain ⟨htake, hdrop⟩ := takeWhile_digits_stop hdigits hstop
    exact Prod.ext htake hdrop

theorem greedy_readDecimal : Greedy Decimal readDecimal := by
  refine greedy_digits.andThen greedy_tail fun {front back whole tail} hfront hback hne rest => ?_
  obtain ⟨hdigits⟩ := hfront
  have hstop : ∀ c ∈ (back ++ rest).head?, isDigit c = false := by
    obtain ⟨hfraction, hpower⟩ := hback
    cases hfraction with
    | none =>
      intro c hc
      rcases hpower.head? hne rest c hc with rfl | rfl <;> decide
    | point =>
      rintro _ ⟨⟩
      decide
  obtain ⟨htake, hdrop⟩ := takeWhile_digits_stop hdigits hstop
  exact Prod.ext htake hdrop

theorem unsigned_eq (negative : Bool) (cs : List Char) : unsigned negative cs =
    if "Infinity".toList.isPrefixOf cs then
      some (infinite negative, cs.drop "Infinity".toList.length)
    else if (readDecimal cs).1.1.isEmpty && (readDecimal cs).1.2.1.isEmpty then none
    else some (decimal negative (number ((readDecimal cs).1.1 ++ (readDecimal cs).1.2.1))
      ((readDecimal cs).1.2.2 - (readDecimal cs).1.2.1.length), (readDecimal cs).2) := by
  have hnumber (whole fraction : List Char) :
      digitsValue (digitsValue 0 whole) fraction = number (whole ++ fraction) := by
    rw [← digitsValue_eq, digitsValue, digitsValue, digitsValue, List.foldl_append]
  simp only [unsigned, hnumber]
  rfl

/-! ## Literals -/

/-- A number in decimal notation, or an infinity, with a sign. -/
inductive Literal : List Char → Numeral → Prop where
  /-- A number, with at least one digit. -/
  | finite {plusMinus chars whole fraction : List Char} {exponent : ℤ} {negative : Bool}
    (hsign : Sign plusMinus negative) (hdecimal : Decimal chars (whole, fraction, exponent))
    (some_digit : whole ≠ [] ∨ fraction ≠ []) :
    Literal (plusMinus ++ chars)
      (decimal negative (number (whole ++ fraction)) (exponent - fraction.length))
  /-- An infinity, in full. -/
  | infinite {plusMinus : List Char} {negative : Bool} (hsign : Sign plusMinus negative) :
    Literal (plusMinus ++ "Infinity".toList) (infinite negative)

/-- What is read of a decimal has a digit if there is one. -/
theorem readDecimal_some {chars whole fraction : List Char} {exponent : ℤ}
    (h : Decimal chars (whole, fraction, exponent)) (hsome : whole ≠ [] ∨ fraction ≠ [])
    (rest : List Char) :
    (∀ c ∈ (chars ++ rest).head?, isDigit c = true ∨ c = '.') ∧ chars ≠ [] ∧
      ((readDecimal (chars ++ rest)).1.1 ≠ [] ∨ (readDecimal (chars ++ rest)).1.2.1 ≠ []) := by
  obtain @⟨whole, tail, _, _, ⟨hdigits⟩, htail⟩ := h
  by_cases hwhole : whole = []
  · subst hwhole
    obtain @⟨_, back, _, _, hfraction, -⟩ := htail
    cases hfraction with
    | none => simp at hsome
    | point hfraction =>
      have hne : fraction ≠ [] := by simpa using hsome
      refine ⟨?_, List.cons_ne_nil _ _, .inr ?_⟩
      · rintro _ ⟨⟩
        exact .inr rfl
      · have htake := (takeWhile_digits hfraction (back ++ rest)).1
        have hread : (readDecimal ([] ++ ('.' :: fraction ++ back) ++ rest)).1.2.1 =
            (fraction ++ (back ++ rest)).takeWhile isDigit := by
          rw [← List.append_assoc fraction]
          rfl
        rw [hread, htake]
        exact List.append_ne_nil_of_left_ne_nil hne _
  · rw [List.append_assoc]
    refine ⟨fun c hc => .inl (head?_digits hdigits hwhole _ c hc),
      List.append_ne_nil_of_left_ne_nil hwhole _, .inl ?_⟩
    rw [readDecimal, andThen, (takeWhile_digits hdigits _).1]
    exact List.append_ne_nil_of_left_ne_nil hwhole _

/-- What is read is a literal. -/
theorem literal_sound (h : literal cs = some (n, rest)) :
    ∃ front, cs = front ++ rest ∧ Literal front n := by
  obtain ⟨plusMinus, hcs, hsign⟩ := greedy_sign.sound cs
  have hunsigned : unsigned (sign cs).1 (sign cs).2 = some (n, rest) := h
  rw [unsigned_eq] at hunsigned
  split at hunsigned
  · next hprefix =>
    obtain ⟨rest', hrest⟩ := List.isPrefixOf_iff_prefix.mp hprefix
    rw [← hrest, List.drop_left] at hunsigned
    obtain ⟨rfl, rfl⟩ := Prod.mk.inj (Option.some.inj hunsigned)
    refine ⟨plusMinus ++ "Infinity".toList, ?_, .infinite hsign⟩
    rw [List.append_assoc, hrest, ← hcs]
  · split at hunsigned
    · cases hunsigned
    · next hsome =>
      obtain ⟨rfl, rfl⟩ := Prod.mk.inj (Option.some.inj hunsigned)
      obtain ⟨chars, hchars, hdecimal⟩ := greedy_readDecimal.sound (sign cs).2
      refine ⟨plusMinus ++ chars, ?_, .finite hsign hdecimal ?_⟩
      · rw [List.append_assoc, ← hchars, ← hcs]
      · rw [Bool.and_eq_true, List.isEmpty_iff, List.isEmpty_iff, not_and_or] at hsome
        exact hsome

/-- Where a literal stands, none is read that ends before it, and no other one that ends with it. -/
theorem literal_longest (h : Literal front n) (rest : List Char) :
    ∃ n' rest', literal (front ++ rest) = some (n', rest') ∧ rest' <:+ rest ∧
      (rest' = rest → n' = n) := by
  cases h with
  | @finite plusMinus chars whole fraction exponent negative hsign hdecimal hsome =>
    obtain ⟨hhead, hne, hread⟩ := readDecimal_some hdecimal hsome rest
    have hstart : ∀ c ∈ (chars ++ rest).head?, c ≠ '+' ∧ c ≠ '-' := by
      intro c hc
      rcases hhead c hc with hdigit | rfl
      · exact ⟨(isDigit_facts hdigit).1, (isDigit_facts hdigit).2.1⟩
      · decide
    have hword : ¬ "Infinity".toList.isPrefixOf (chars ++ rest) = true := by
      intro hprefix
      obtain ⟨tail, htail⟩ := List.isPrefixOf_iff_prefix.mp hprefix
      rcases hhead 'I' (by rw [← htail]; rfl) with hdigit | heq
      · exact (isDigit_facts hdigit).2.2 rfl
      · exact absurd heq (by decide)
    obtain ⟨hsuffix, hsame⟩ := greedy_readDecimal.longest hdecimal rest
    rw [List.append_assoc, literal, sign_append hsign hstart]
    simp only [unsigned_eq]
    rw [if_neg hword,
      if_neg (by rwa [Bool.and_eq_true, List.isEmpty_iff, List.isEmpty_iff, not_and_or])]
    exact ⟨_, _, rfl, hsuffix, fun hall => by rw [hsame hall]⟩
  | @infinite plusMinus negative hsign =>
    have hstart : ∀ c ∈ ("Infinity".toList ++ rest).head?, c ≠ '+' ∧ c ≠ '-' := by
      rintro _ ⟨⟩
      decide
    have hword : "Infinity".toList.isPrefixOf ("Infinity".toList ++ rest) = true :=
      List.isPrefixOf_iff_prefix.mpr (List.prefix_append _ _)
    rw [List.append_assoc, literal, sign_append hsign hstart]
    simp only [unsigned_eq]
    rw [if_pos hword, List.drop_left]
    exact ⟨_, _, rfl, List.suffix_rfl, fun _ => rfl⟩

/-- The longest literal that some characters begin with, and what is left of them. -/
structure Longest (cs front rest : List Char) (n : Numeral) : Prop where
  /-- The characters are the literal and what is left. -/
  split : cs = front ++ rest
  /-- What they begin with is a literal of the number. -/
  literal : Literal front n
  /-- No literal that they begin with is longer. -/
  longest {front' rest' : List Char} {n' : Numeral} : cs = front' ++ rest' → Literal front' n' →
    front'.length ≤ front.length

/-- **The longest literal is read.** -/
theorem literal_eq_some_iff : literal cs = some (n, rest) ↔ ∃ front, Longest cs front rest n := by
  constructor
  · intro h
    obtain ⟨front, hcs, hliteral⟩ := literal_sound h
    refine ⟨front, hcs, hliteral, fun {front' rest' n'} hcs' hliteral' => ?_⟩
    obtain ⟨found, left, hfound, hsuffix, -⟩ := literal_longest hliteral' rest'
    rw [← hcs', h] at hfound
    obtain ⟨rfl, rfl⟩ := Prod.mk.inj (Option.some.inj hfound)
    have hlength := hsuffix.length_le
    have htotal := congrArg List.length (hcs.symm.trans hcs')
    rw [List.length_append, List.length_append] at htotal
    omega
  · rintro ⟨front, hcs, hliteral, hlongest⟩
    obtain ⟨found, left, hfound, hsuffix, hsame⟩ := literal_longest hliteral rest
    rw [← hcs] at hfound
    obtain ⟨front', hcs', hliteral'⟩ := literal_sound hfound
    have hlength := hlongest hcs' hliteral'
    have htotal := congrArg List.length (hcs.symm.trans hcs')
    rw [List.length_append, List.length_append] at htotal
    obtain rfl := hsuffix.eq_of_length_le (by omega)
    rw [hfound, hsame rfl]

theorem literal_eq_none_iff :
    literal cs = none ↔ ∀ front rest n, cs = front ++ rest → ¬ Literal front n := by
  constructor
  · rintro h front rest n rfl hliteral
    obtain ⟨_, _, hfound, -⟩ := literal_longest hliteral rest
    rw [h] at hfound
    cases hfound
  · intro h
    cases hread : literal cs with
    | none => rfl
    | some result =>
      obtain ⟨n, rest⟩ := result
      obtain ⟨front, hcs, hliteral⟩ := literal_sound hread
      exact absurd hliteral (h front _ _ hcs)

/-- A literal can be read in one way only. -/
theorem literal_eq_whole_iff : literal cs = some (n, []) ↔ Literal cs n := by
  rw [literal_eq_some_iff]
  constructor
  · rintro ⟨front, hcs, hliteral, -⟩
    rwa [hcs, List.append_nil]
  · intro h
    refine ⟨cs, (List.append_nil cs).symm, h, fun {front' rest' n'} hcs' _ => ?_⟩
    rw [hcs', List.length_append]
    exact Nat.le_add_right _ _

/-! ## Characters -/

/-- The characters that literals consist of. -/
def isLiteralChar (c : Char) : Bool := isDigit c || "+-.eEInfinity".toList.contains c

theorem isLiteralChar_facts {c : Char} (h : isLiteralChar c = true) :
    isBlank c = false ∧ c ∉ ['x', 'X', 'o', 'O', 'b', 'B'] := by
  have hbasic : c.toNat < 128 := by
    rw [isLiteralChar, Bool.or_eq_true, List.contains_iff_mem] at h
    rcases h with h | h
    · exact toNat_lt_of_isDigit h
    · have hword : ∀ c ∈ "+-.eEInfinity".toList, c.toNat < 128 := by simp
      exact hword c h
  obtain ⟨n, rfl⟩ := exists_basic hbasic
  clear hbasic
  revert n
  decide +kernel

theorem isLiteralChar_of_isDigit (h : ∀ c ∈ ds, isDigit c = true) :
    ∀ c ∈ ds, isLiteralChar c = true :=
  fun c hc => by rw [isLiteralChar, h c hc, Bool.true_or]

theorem Sign.chars (h : Sign cs negative) : ∀ c ∈ cs, isLiteralChar c = true := by
  cases h <;> simp [isLiteralChar]

theorem Fraction.chars (h : Fraction cs ds) : ∀ c ∈ cs, isLiteralChar c = true := by
  cases h with
  | none => exact List.forall_mem_nil _
  | point hdigits => exact List.forall_mem_cons.mpr ⟨by decide, isLiteralChar_of_isDigit hdigits⟩

theorem Power.chars {exponent : ℤ} (h : Power cs exponent) : ∀ c ∈ cs, isLiteralChar c = true := by
  cases h with
  | none => exact List.forall_mem_nil _
  | mark hmark hsign hdigits =>
    refine List.forall_mem_cons.mpr ⟨by rcases hmark with rfl | rfl <;> decide, ?_⟩
    exact List.forall_mem_append.mpr ⟨hsign.chars, isLiteralChar_of_isDigit hdigits⟩

theorem Literal.chars (h : Literal cs n) : ∀ c ∈ cs, isLiteralChar c = true := by
  cases h with
  | finite hsign hdecimal =>
    obtain ⟨⟨hdigits⟩, ⟨hfraction, hpower⟩⟩ := hdecimal
    simp only [List.forall_mem_append]
    exact ⟨hsign.chars, isLiteralChar_of_isDigit hdigits, hfraction.chars, hpower.chars⟩
  | infinite hsign => exact List.forall_mem_append.mpr ⟨hsign.chars, by simp [isLiteralChar]⟩

theorem Literal.ne_nil (h : Literal cs n) : cs ≠ [] := by
  cases h with
  | finite hsign hdecimal hsome =>
    exact List.append_ne_nil_of_right_ne_nil _ (readDecimal_some hdecimal hsome []).2.1
  | infinite hsign => exact List.append_ne_nil_of_right_ne_nil _ (by decide)

/-- A literal that stands before blanks does not reach into them. -/
theorem Literal.split (h : Literal front n) (hback : ∀ c ∈ back, isBlank c = true)
    (hcs : cs ++ back = front ++ rest) : ∃ rest', cs = front ++ rest' ∧ rest = rest' ++ back := by
  rcases List.append_eq_append_iff.mp hcs with ⟨more, hfront, hmore⟩ | ⟨rest', hcs, hrest⟩
  · have hnil : more = [] := by
      refine List.eq_nil_iff_forall_not_mem.mpr fun c hc => ?_
      have hblank := hback c (by rw [hmore]; exact List.mem_append_left _ hc)
      rw [(isLiteralChar_facts (h.chars c (by rw [hfront]; exact List.mem_append_right _ hc))).1]
        at hblank
      cases hblank
    subst hnil
    exact ⟨[], by rw [hfront, List.append_nil, List.append_nil], hmore.symm⟩
  · exact ⟨rest', hcs, hrest⟩

/-- Blanks at the end make no difference to what is read. -/
theorem literal_append (hback : ∀ c ∈ back, isBlank c = true) :
    literal (cs ++ back) = (literal cs).map fun (n, rest) => (n, rest ++ back) := by
  cases hread : literal cs with
  | none =>
    refine literal_eq_none_iff.mpr fun front rest n hcs hliteral => ?_
    obtain ⟨rest', hcs', -⟩ := hliteral.split hback hcs
    exact literal_eq_none_iff.mp hread front rest' n hcs' hliteral
  | some result =>
    obtain ⟨n, rest⟩ := result
    obtain ⟨front, rfl, hliteral, hlongest⟩ := literal_eq_some_iff.mp hread
    refine literal_eq_some_iff.mpr ⟨front, List.append_assoc _ _ _, hliteral,
      fun {front' rest' n'} hcs hliteral' => ?_⟩
    obtain ⟨rest'', hcs', -⟩ := hliteral'.split hback hcs
    exact hlongest hcs' hliteral'

/-! ## Texts -/

/-- The characters of a text, without the blanks around them. -/
def core (s : String) : List Char := trimChars s.toList

/-- The text is a literal, with nothing but blanks around it. -/
def IsLiteral (s : String) (n : Numeral) : Prop := Literal (core s) n

/-- The text begins with a literal, and goes on after it with something else than blanks. -/
def GoesOn (s : String) (n : Numeral) : Prop :=
  ∃ front rest, rest ≠ [] ∧ Longest (core s) front rest n

/-- The text does not begin with a literal. -/
def LacksLiteral (s : String) : Prop := ∀ front rest n, core s = front ++ rest → ¬ Literal front n

variable {s : String}

/-- The literal at the start is looked for behind the blanks. -/
theorem ofLeading_eq (s : String) :
    ofLeading s = ((literal (core s)).map Prod.fst).getD notANumber := by
  obtain ⟨back, hback, hdrop⟩ := dropWhile_eq_trimChars_append s.toList
  rw [ofLeading, hdrop, literal_append hback, ← core]
  cases literal (core s) <;> rfl

theorem ofLeading_of_isLiteral (h : IsLiteral s n) : ofLeading s = n := by
  rw [ofLeading_eq, literal_eq_whole_iff.mpr h]
  rfl

theorem ofLeading_of_goesOn (h : GoesOn s n) : ofLeading s = n := by
  obtain ⟨front, rest, -, hlongest⟩ := h
  rw [ofLeading_eq, literal_eq_some_iff.mpr ⟨front, hlongest⟩]
  rfl

theorem ofLeading_of_lacksLiteral (h : LacksLiteral s) : ofLeading s = notANumber := by
  rw [ofLeading_eq, literal_eq_none_iff.mpr h]
  rfl

/-- A text is a literal, begins with one, or does not. -/
theorem literal_cases (s : String) : (∃ n, IsLiteral s n) ∨ (∃ n, GoesOn s n) ∨ LacksLiteral s := by
  cases hread : literal (core s) with
  | none => exact .inr (.inr (literal_eq_none_iff.mp hread))
  | some result =>
    obtain ⟨n, rest⟩ := result
    by_cases hrest : rest = []
    · subst hrest
      exact .inl ⟨n, literal_eq_whole_iff.mp hread⟩
    · obtain ⟨front, hlongest⟩ := literal_eq_some_iff.mp hread
      exact .inr (.inl ⟨n, front, rest, hrest, hlongest⟩)

/-- Only one of these is the case, with one number. -/
theorem GoesOn.not_isLiteral {m : Numeral} (h : GoesOn s n) : ¬ IsLiteral s m := by
  obtain ⟨front, rest, hrest, hlongest⟩ := h
  intro hliteral
  have hwhole := literal_eq_whole_iff.mpr hliteral
  rw [literal_eq_some_iff.mpr ⟨front, hlongest⟩] at hwhole
  exact hrest (Prod.mk.inj (Option.some.inj hwhole)).2

end MarketMaker.Numeral
