import MarketMaker.Proofs.Candles
import MarketMaker.Proofs.Readings

/-!
# The texts in the venue's cells

A number in a cell may be given as a text. It is the number of the longest literal that the text
begins with, and whatever comes after that literal is passed over (`cellNumber_of_text`). A text
without a literal at its start has no finite number, so that its row is complained about; but one
that **goes on** after a literal, such as a number with separators between its thousands, is taken
for that literal.

A table is **read in full** if all texts that it is read from are literals from end to end, and it
is complained about because of every other one. This is so if and only if no text goes on, or the
table is complained about anyway (`readInFull_iff`).
-/

namespace MarketMaker.Candles

open Scalar LawfulScalar Numeral

variable {α : Type} [Scalar α] {v payload : Value α} {row : List (Value α)}
  {rows : List (List (Value α))} {s : String} {column : ℕ}

/-- The columns that bars are made from. -/
def usedColumns : List ℕ := [0, 2, 3, 4, 5]

/-- A text stands in a cell that a bar is made from. -/
structure HasText (row : List (Value α)) (column : ℕ) (s : String) : Prop where
  /-- The column is one that a bar is made from. -/
  used : column ∈ usedColumns
  /-- The text is what stands in it. -/
  text : (cell row column).spelling? = some s

/-- A text in a cell is read by its start. -/
theorem cellNumber_of_text (h : v.spelling? = some s) : cellNumber v = (ofLeading s).value := by
  cases v with
  | string | unpaired =>
    obtain rfl := Option.some.inj h
    rfl
  | _ => cases h

/-- The numbers of a complete bar are read from cells with finite numbers. -/
theorem isFinite_cellNumber [AbsorbingScalar α] (h : Complete (barOf row))
    (hcolumn : column ∈ usedColumns) : isFinite (cellNumber (cell row column)) = true := by
  simp only [usedColumns, List.mem_cons, List.not_mem_nil, or_false] at hcolumn
  rcases hcolumn with rfl | rfl | rfl | rfl | rfl
  · exact (AbsorbingScalar.isFinite_of_mul h.openTime).1
  · exact h.close
  · exact h.high
  · exact h.low
  · exact h.opening

/-- A text of a complete bar begins with a literal in digits. -/
theorem HasText.literal [Legible α] (h : HasText row column s) (hcomplete : Complete (barOf row)) :
    ∃ negative digits exponent, (IsLiteral s (decimal negative digits exponent) ∨
      GoesOn s (decimal negative digits exponent)) ∧
        cellNumber (cell row column) = (decimal negative digits exponent).value := by
  have hfinite := isFinite_cellNumber hcomplete h.used
  rw [cellNumber_of_text h.text] at hfinite ⊢
  obtain ⟨negative, digits, exponent, hdigits⟩ := exists_digits_of_isFinite hfinite
  refine ⟨negative, digits, exponent, ?_, by rw [hdigits]⟩
  rcases literal_cases s with ⟨n, hliteral⟩ | ⟨n, hgoesOn⟩ | hlacks
  · rw [← hdigits, ofLeading_of_isLiteral hliteral]
    exact .inl hliteral
  · rw [← hdigits, ofLeading_of_goesOn hgoesOn]
    exact .inr hgoesOn
  · rw [ofLeading_of_lacksLiteral hlacks] at hdigits
    cases hdigits

/-- A table with a row whose bar is not complete is complained about because of a row. -/
theorem IsTable.parse_refused [LawfulScalar α] (h : IsTable payload rows) (hrow : row ∈ rows)
    (hbad : ¬ Complete (barOf row)) :
    ∃ bad ∈ rows, parse payload = .error (.provider (.badCandle bad)) := by
  rcases complete_or_first rows with hall | ⟨before, bad, after, rfl, hbefore, hfirst⟩
  · exact absurd (hall row hrow) hbad
  · exact ⟨bad, List.mem_append_cons_self, h.parse_of_not_complete hbefore hfirst⟩

/-- What a table says is read from texts that are literals from end to end, and every other text is
complained about. -/
structure ReadInFull (payload : Value α) (rows : List (List (Value α))) : Prop where
  /-- Where bars are read, each text is a literal and stands for its number. -/
  literal {bars : List (Bar α)} {row : List (Value α)} {column : ℕ}
    {s : String} : parse payload = .ok bars → row ∈ rows →
    HasText row column s → ∃ n, IsLiteral s n ∧ cellNumber (cell row column) = n.value
  /-- A row with a text that is no literal is complained about, or one before it. -/
  refused {row : List (Value α)} {column : ℕ} {s : String} : row ∈ rows → HasText row column s →
    (¬ ∃ n, IsLiteral s n) → ∃ bad ∈ rows, parse payload = .error (.provider (.badCandle bad))

/-- **Texts are read by their start.** In a table that is accepted every row has its bar, and each
text that a bar is made from begins with a literal in digits, of which it has the number. The table
is read in full **if and only if** it is refused because of a row, or no text goes on after its
literal. -/
theorem readInFull_iff [Legible α] (h : IsTable payload rows) :
    (∀ bars, parse payload = .ok bars → ∀ row ∈ rows, (∃ b ∈ bars, StandsFor row b) ∧
      ∀ column s, HasText row column s →
      ∃ negative digits exponent, (IsLiteral s (decimal negative digits exponent) ∨
        GoesOn s (decimal negative digits exponent)) ∧
          cellNumber (cell row column) = (decimal negative digits exponent).value) ∧
      (ReadInFull payload rows ↔
        (∃ bad ∈ rows, parse payload = .error (.provider (.badCandle bad))) ∨
        ∀ row ∈ rows, ∀ column s, HasText row column s → ¬ ∃ n, GoesOn s n) := by
  have haccepted {bars : List (Bar α)} (hparse : parse payload = .ok bars) :
      (∀ row ∈ rows, Complete (barOf row)) ∧ bars = chronological (rows.map barOf) := by
    obtain ⟨found, hfound, hall, hbars⟩ := parse_eq_ok_iff.mp hparse
    obtain rfl := hfound.unique h
    exact ⟨hall, hbars⟩
  constructor
  · intro bars hparse row hrow
    obtain ⟨hall, rfl⟩ := haccepted hparse
    refine ⟨⟨barOf row, ?_, (h.isRow row hrow).standsFor_iff.mpr rfl⟩,
      fun column s htext => htext.literal (hall row hrow)⟩
    exact (List.mergeSort_perm _ _).mem_iff.mpr (List.mem_map_of_mem hrow)
  · constructor
    · intro hfull
      rcases complete_or_first rows with hall | ⟨before, bad, after, rfl, hbefore, hfirst⟩
      · refine .inr fun row hrow column s htext => ?_
        rintro ⟨n, hgoesOn⟩
        obtain ⟨m, hliteral, -⟩ := hfull.literal (h.parse_of_complete hall) hrow htext
        exact hgoesOn.not_isLiteral hliteral
      · exact .inl (h.parse_refused List.mem_append_cons_self hfirst)
    · rintro (⟨bad, hbad, hrefused⟩ | hnone)
      · refine ⟨fun hparse => ?_, fun _ _ _ => ⟨bad, hbad, hrefused⟩⟩
        rw [hrefused] at hparse
        cases hparse
      · refine ⟨fun hparse hrow htext => ?_, fun hrow htext hnot => ?_⟩
        · obtain ⟨negative, digits, exponent, hliteral, hnumber⟩ :=
            htext.literal ((haccepted hparse).1 _ hrow)
          exact ⟨_, hliteral.resolve_right fun hgoesOn => hnone _ hrow _ _ htext ⟨_, hgoesOn⟩,
            hnumber⟩
        · refine h.parse_refused hrow fun hcomplete => ?_
          obtain ⟨negative, digits, exponent, hliteral | hgoesOn, -⟩ := htext.literal hcomplete
          · exact hnot ⟨_, hliteral⟩
          · exact hnone _ hrow _ _ htext ⟨_, hgoesOn⟩

/-- A row of texts. -/
def rowOf (texts : List String) : List (Value Float) := texts.map .string

/-- Blanks around the texts, signs and powers of ten are no harm. -/
theorem readInFull_iff_blanks :
    let row := rowOf [" 1700000000", "2,5", "1.5e2", "+160", "140.0 ", "145."]
    IsTable (table [row]) [row] ∧ ReadInFull (table [row]) [row] := by
  intro row
  have htable : IsTable (table [row]) [row] := rows?_eq_some_iff.mp rfl
  have hread : ∀ column ∈ usedColumns,
      ((cell row column).spelling?.bind fun s => literal (core s)).map Prod.snd = some [] := by
    decide
  refine ⟨htable, (readInFull_iff htable).2.mpr (.inr fun found hfound column s htext => ?_)⟩
  obtain rfl := List.mem_singleton.mp hfound
  have hnone := hread column htext.used
  rw [htext.text, Option.bind_some, Option.map_eq_some_iff] at hnone
  obtain ⟨⟨n, _⟩, hliteral, rfl⟩ := hnone
  rintro ⟨m, hgoesOn⟩
  exact hgoesOn.not_isLiteral (literal_eq_whole_iff.mp hliteral)

/-- A number with separators between its thousands is taken for the first of its digits. -/
theorem not_readInFull_thousands :
    let row := rowOf ["1700000000", "1", "1,234.5", "2", "1", "1"]
    IsTable (table [row]) [row] ∧ HasText row 2 "1,234.5" ∧ parse (table [row]) = .ok [barOf row] ∧
      (barOf row).close = (decimal false 1 0).value ∧ ¬ ReadInFull (table [row]) [row] := by
  intro row
  have htable : IsTable (table [row]) [row] := rows?_eq_some_iff.mp rfl
  have hcomplete : isComplete (barOf row) = true := by decide +kernel
  have hparse : parse (table [row]) = .ok [barOf row] := by
    rw [htable.parse_of_complete (List.forall_mem_singleton.mpr (isComplete_iff.mp hcomplete))]
    exact congrArg Except.ok (List.mergeSort_singleton _)
  have htext : HasText row 2 "1,234.5" := ⟨by decide, rfl⟩
  refine ⟨htable, htext, hparse, rfl, fun hfull => ?_⟩
  obtain ⟨n, hliteral, -⟩ := hfull.literal hparse List.mem_cons_self htext
  have hread : literal (core "1,234.5") = some (decimal false 1 0, ",234.5".toList) := rfl
  rw [literal_eq_whole_iff.mpr hliteral] at hread
  cases hread

end MarketMaker.Candles
