import MarketMaker.Proofs.Binary64
import MarketMaker.Market.Candles

/-!
# What the venue's rows are read as

A payload **is a table** of rows when it lists them, and each row has six cells or more. A row
**stands for** one bar, which is **complete** when all of its numbers are finite.

* Tables are all that is read (`rows?_eq_some_iff`), and the first row without a complete bar is the
  one that is complained about (`IsTable.parse_of_not_complete`).
* What comes out is a **chronicle** of the bars in the order of the payload: the same bars, by the
  time they opened, and in their old order where they opened at one time
  (`chronicle_chronological`). Where no two of them did, they have only one chronicle, however they
  were listed (`Chronicle.unique`).
-/

namespace MarketMaker.Candles

open Scalar LawfulScalar

variable {α : Type} [Scalar α]

/-! ## Tables -/

/-- A text, a number or a flag. -/
inductive IsCell : Value α → Prop where
  /-- A text. -/
  | string (s : String) : IsCell (.string s)
  /-- A text in units that do not pair up. -/
  | unpaired (units : List Nat) : IsCell (.unpaired units)
  /-- A number. -/
  | number {x : α} (h : IsNumber x) : IsCell (.number x)
  /-- A flag. -/
  | bool (b : Bool) : IsCell (.bool b)

/-- A row of six cells or more. -/
structure IsRow (row : List (Value α)) : Prop where
  /-- There are at least six cells. -/
  columns : 6 ≤ row.length
  /-- Each of them is a cell of a table. -/
  cells : ∀ v ∈ row, IsCell v

/-- The payload that lists these rows. -/
def table (rows : List (List (Value α))) : Value α := .array (rows.map .array)

/-- The payload lists these rows, and they are rows. -/
structure IsTable (payload : Value α) (rows : List (List (Value α))) : Prop where
  /-- The payload is the list of the rows. -/
  lists : payload = table rows
  /-- Each of them is a row. -/
  isRow : ∀ row ∈ rows, IsRow row

/-- Rows are a table in any order. -/
theorem IsTable.perm {payload : Value α} {rows rows' : List (List (Value α))}
    (h : IsTable payload rows) (hperm : rows.Perm rows') : IsTable (table rows') rows' :=
  ⟨rfl, fun row hrow => h.isRow row (hperm.mem_iff.mpr hrow)⟩

section Tables

variable [LawfulScalar α] {items row : List (Value α)} {rows : List (List (Value α))}
  {v payload : Value α}

theorem isCell_iff : isCell v = true ↔ IsCell v := by
  constructor
  · intro h
    cases v with
    | string s => exact .string s
    | unpaired units => exact .unpaired units
    | bool b => exact .bool b
    | number x =>
      apply IsCell.number
      rw [← isNaN_eq_false_iff]
      simpa [isCell] using h
    | _ => cases h
  · intro h
    cases h with
    | number hx => simp [isCell, isNaN_eq_false_iff.mpr hx]
    | _ => rfl

theorem cells?_eq_some_iff : cells? v = some row ↔ v = .array row ∧ IsRow row := by
  have hrow (items : List (Value α)) : (6 ≤ items.length && items.all isCell) = true ↔
      IsRow items := by
    simp only [Bool.and_eq_true, decide_eq_true_eq, List.all_eq_true, isCell_iff]
    exact ⟨fun ⟨hcolumns, hcells⟩ => ⟨hcolumns, hcells⟩, fun h => ⟨h.columns, h.cells⟩⟩
  cases v with
  | array items =>
    rw [cells?, Option.ite_none_right_eq_some, hrow]
    constructor
    · rintro ⟨h, ⟨⟩⟩
      exact ⟨rfl, h⟩
    · rintro ⟨⟨⟩, h⟩
      exact ⟨h, rfl⟩
  | _ => simp [cells?]

theorem mapM_cells?_eq_some_iff :
    items.mapM cells? = some rows ↔ items = rows.map .array ∧ ∀ row ∈ rows, IsRow row := by
  induction items generalizing rows with
  | nil => cases rows <;> simp
  | cons v items ih =>
    rw [List.mapM_cons]
    simp only [bind, Option.bind_eq_some_iff, cells?_eq_some_iff, ih, pure, Option.some.injEq]
    cases rows with
    | nil => simp
    | cons row rows =>
      simp only [List.map_cons, List.cons.injEq, List.forall_mem_cons]
      constructor
      · rintro ⟨_, ⟨rfl, hrow⟩, _, ⟨rfl, hrows⟩, rfl, rfl⟩
        exact ⟨⟨rfl, rfl⟩, hrow, hrows⟩
      · rintro ⟨⟨rfl, rfl⟩, hrow, hrows⟩
        exact ⟨row, ⟨rfl, hrow⟩, rows, ⟨rfl, hrows⟩, rfl, rfl⟩

/-- The rows of a table are found, and nothing else is taken for a table. -/
theorem rows?_eq_some_iff : rows? payload = some rows ↔ IsTable payload rows := by
  cases payload with
  | array items =>
    rw [rows?, mapM_cells?_eq_some_iff]
    constructor
    · rintro ⟨rfl, hrows⟩
      exact ⟨rfl, hrows⟩
    · rintro ⟨⟨⟩, hrows⟩
      exact ⟨rfl, hrows⟩
  | _ =>
    constructor
    · rintro ⟨⟩
    · rintro ⟨⟨⟩, -⟩

/-- A payload lists its rows in one way. -/
theorem IsTable.unique {rows' : List (List (Value α))} (h : IsTable payload rows)
    (h' : IsTable payload rows') : rows = rows' := by
  rw [← rows?_eq_some_iff] at h h'
  exact Option.some.inj (h.symm.trans h')

end Tables

/-! ## Bars -/

/-- The bar that a row stands for: the first cell holds the seconds at which it opened, and the
third to the sixth hold its close, its high, its low and its opening. -/
inductive StandsFor : List (Value α) → Bar α → Prop where
  /-- The other cells do not count. -/
  | columns (seconds volume close high low opening : Value α) (others : List (Value α)) :
    StandsFor (seconds :: volume :: close :: high :: low :: opening :: others)
      { openTime := cellNumber seconds * 1000
        close := cellNumber close
        high := cellNumber high
        low := cellNumber low
        opening := cellNumber opening }

/-- A bar whose numbers are all finite. -/
structure Complete (b : Bar α) : Prop where
  /-- The time is finite. -/
  openTime : isFinite b.openTime = true
  /-- The opening price is finite. -/
  opening : isFinite b.opening = true
  /-- The highest price is finite. -/
  high : isFinite b.high = true
  /-- The lowest price is finite. -/
  low : isFinite b.low = true
  /-- The closing price is finite. -/
  close : isFinite b.close = true

section Rows

variable {row : List (Value α)} {rows : List (List (Value α))} {b : Bar α} {bars : List (Bar α)}
  {error : EngineError α}

theorem IsRow.standsFor_iff (h : IsRow row) : StandsFor row b ↔ b = barOf row := by
  obtain ⟨hcolumns, -⟩ := h
  match row, hcolumns with
  | seconds :: volume :: close :: high :: low :: opening :: others, _ =>
    constructor
    · rintro ⟨⟩
      rfl
    · rintro rfl
      exact .columns seconds volume close high low opening others

theorem forall₂_standsFor_iff (h : ∀ row ∈ rows, IsRow row) :
    List.Forall₂ StandsFor rows bars ↔ bars = rows.map barOf := by
  induction rows generalizing bars with
  | nil => rw [List.forall₂_nil_left_iff, List.map_nil]
  | cons row rows ih =>
    rw [List.forall_mem_cons] at h
    simp only [List.forall₂_cons_left_iff, h.1.standsFor_iff, ih h.2, List.map_cons]
    constructor
    · rintro ⟨_, _, rfl, rfl, rfl⟩
      rfl
    · rintro rfl
      exact ⟨_, _, rfl, rfl, rfl⟩

theorem isComplete_iff : isComplete b = true ↔ Complete b := by
  simp only [isComplete, Bool.and_eq_true]
  constructor
  · rintro ⟨⟨⟨⟨hopenTime, hopening⟩, hhigh⟩, hlow⟩, hclose⟩
    exact ⟨hopenTime, hopening, hhigh, hlow, hclose⟩
  · rintro ⟨hopenTime, hopening, hhigh, hlow, hclose⟩
    exact ⟨⟨⟨⟨hopenTime, hopening⟩, hhigh⟩, hlow⟩, hclose⟩

theorem readRow_of_complete (h : Complete (barOf row)) : readRow row = .ok (barOf row) :=
  if_pos (isComplete_iff.mpr h)

theorem readRow_of_not_complete (h : ¬ Complete (barOf row)) :
    readRow row = .error (.provider (.badCandle row)) :=
  if_neg fun hcomplete => h (isComplete_iff.mp hcomplete)

/-- Rows of complete bars are read as these. -/
theorem mapM_readRow_of_complete (h : ∀ row ∈ rows, Complete (barOf row)) :
    rows.mapM readRow = .ok (rows.map barOf) := by
  induction rows with
  | nil => rfl
  | cons row rows ih =>
    rw [List.forall_mem_cons] at h
    rw [List.mapM_cons, readRow_of_complete h.1, ih h.2]
    rfl

/-- The first row without a complete bar is complained about. -/
theorem mapM_readRow_of_not_complete {before after : List (List (Value α))}
    (hbefore : ∀ row ∈ before, Complete (barOf row)) (h : ¬ Complete (barOf row)) :
    (before ++ row :: after).mapM readRow = .error (.provider (.badCandle row)) := by
  rw [List.mapM_append, mapM_readRow_of_complete hbefore, List.mapM_cons, readRow_of_not_complete h]
  rfl

/-- There is a first row without a complete bar, unless all of them have one. -/
theorem complete_or_first (rows : List (List (Value α))) :
    (∀ row ∈ rows, Complete (barOf row)) ∨
      ∃ before row after, rows = before ++ row :: after ∧ (∀ row ∈ before, Complete (barOf row)) ∧
        ¬ Complete (barOf row) := by
  induction rows with
  | nil => exact .inl (List.forall_mem_nil _)
  | cons row rows ih =>
    by_cases hrow : Complete (barOf row)
    · rcases ih with hall | ⟨before, bad, after, rfl, hbefore, hbad⟩
      · exact .inl (List.forall_mem_cons.mpr ⟨hrow, hall⟩)
      · exact .inr ⟨row :: before, bad, after, rfl, List.forall_mem_cons.mpr ⟨hrow, hbefore⟩, hbad⟩
    · exact .inr ⟨[], row, rows, rfl, List.forall_mem_nil _, hrow⟩

end Rows

/-! ## Chronicles -/

/-- The same bars as those that were listed, by the time they opened. Those of one time keep their
order. -/
structure Chronicle (listed bars : List (Bar α)) : Prop where
  /-- No bar is left out, put in or counted twice. -/
  perm : bars.Perm listed
  /-- The bars stand by the time they opened. -/
  ordered : bars.Pairwise fun a b => a.openTime ≤ b.openTime
  /-- The bars of one time stand as they were listed. -/
  stable (time : α) : bars.filter (same ·.openTime time) = listed.filter (same ·.openTime time)

/-- Two bars that opened at different times. -/
def Apart (a b : Bar α) : Prop := same a.openTime b.openTime = false

instance : DecidableRel (@Apart α _) :=
  fun a b => inferInstanceAs (Decidable (same a.openTime b.openTime = false))

/-- The order of opening times, carried on to bars of which the time is not known: these come
last. -/
def opensBy (a b : Bar α) : Bool :=
  !isFinite b.openTime || isFinite a.openTime && decide (a.openTime ≤ b.openTime)

theorem opensBy_eq {a b : Bar α} (ha : Complete a) (hb : Complete b) :
    opensBy a b = decide (a.openTime ≤ b.openTime) := by
  simp [opensBy, ha.openTime, hb.openTime]

/-- Complete bars are sorted by an order that is total on all bars. -/
theorem chronological_eq {bars : List (Bar α)} (h : ∀ b ∈ bars, Complete b) :
    chronological bars = bars.mergeSort opensBy := by
  have hagree : ∀ a ∈ bars, ∀ b ∈ bars, decide (a.openTime ≤ b.openTime) = opensBy (id a) (id b) :=
    fun a ha b hb => (opensBy_eq (h a ha) (h b hb)).symm
  have hmap := List.map_mergeSort hagree
  rwa [List.map_id, List.map_id] at hmap

section Chronicles

variable [LawfulScalar α] {listed bars : List (Bar α)}

theorem opensBy_trans (a b c : Bar α) (hab : opensBy a b = true) (hbc : opensBy b c = true) :
    opensBy a c = true := by
  simp only [opensBy, Bool.or_eq_true, Bool.not_eq_true', Bool.and_eq_true, decide_eq_true_eq]
    at hab hbc ⊢
  rcases hbc with hc | ⟨hb, hle⟩
  · exact .inl hc
  · rcases hab with hunknown | ⟨ha, hle'⟩
    · rw [hb] at hunknown
      cases hunknown
    · exact .inr ⟨ha, le_trans hle' hle⟩

theorem opensBy_total (a b : Bar α) : (opensBy a b || opensBy b a) = true := by
  simp only [opensBy, Bool.or_eq_true, Bool.not_eq_true', Bool.and_eq_true, decide_eq_true_eq]
  cases ha : isFinite a.openTime with
  | false => exact .inr (.inl rfl)
  | true =>
    cases hb : isFinite b.openTime with
    | false => exact .inl (.inl rfl)
    | true =>
      rcases le_total (isNumber_of_isFinite ha) (isNumber_of_isFinite hb) with hle | hle
      · exact .inl (.inr ⟨rfl, hle⟩)
      · exact .inr (.inr ⟨rfl, hle⟩)

/-- Complete bars are put into a chronicle of themselves. -/
theorem chronicle_chronological (h : ∀ b ∈ bars, Complete b) :
    Chronicle bars (chronological bars) where
  perm := List.mergeSort_perm _ _
  ordered := by
    have hsorted := List.pairwise_mergeSort opensBy_trans opensBy_total bars
    rw [← chronological_eq h] at hsorted
    refine hsorted.imp_of_mem fun {a b} ha hb hab => ?_
    rw [opensBy_eq (h a (List.mem_mergeSort.mp ha)) (h b (List.mem_mergeSort.mp hb))] at hab
    exact of_decide_eq_true hab
  stable time := by
    rw [chronological_eq h]
    generalize hp : (fun b : Bar α => same b.openTime time) = p
    -- The bars of one time are in order where they are listed, so sorting takes none of them past
    -- another.
    have hpairwise : (bars.filter p).Pairwise fun a b => opensBy a b = true := by
      refine List.pairwise_of_forall_mem_list fun a ha b hb => ?_
      rw [List.mem_filter, ← hp] at ha hb
      rw [opensBy_eq (h a ha.1) (h b hb.1), decide_eq_true_eq]
      exact le_trans ((same_iff _ _).mp ha.2).1 ((same_iff _ _).mp hb.2).2
    have hsublist :=
      (List.sublist_mergeSort opensBy_trans opensBy_total hpairwise List.filter_sublist).filter p
    rw [List.filter_filter] at hsublist
    simp only [Bool.and_self] at hsublist
    exact (hsublist.eq_of_length ((List.mergeSort_perm bars opensBy).filter p).length_eq.symm).symm

instance : Std.Symm (@Apart α _) where
  symm a b hab := by
    rw [Apart, ← Bool.not_eq_true, same_iff] at hab ⊢
    exact fun ⟨hle, hge⟩ => hab ⟨hge, hle⟩

/-- Bars of different times have one chronicle, however they are listed. -/
theorem Chronicle.unique {listed' bars' : List (Bar α)} (h : Chronicle listed bars)
    (h' : Chronicle listed' bars') (hperm : listed'.Perm listed) (hapart : listed.Pairwise Apart) :
    bars' = bars := by
  refine List.Perm.eq_of_pairwise ?_ h'.ordered h.ordered (h'.perm.trans (hperm.trans h.perm.symm))
  intro a b ha hb hle hge
  have ha := hperm.mem_iff.mp (h'.perm.mem_iff.mp ha)
  have hb := h.perm.mem_iff.mp hb
  -- Two bars on the list that opened at one time are one bar.
  by_contra hne
  have hdiffer : same a.openTime b.openTime = false := hapart.forall ha hb hne
  rw [(same_iff _ _).mpr ⟨hle, hge⟩] at hdiffer
  cases hdiffer

end Chronicles

/-! ## Answers -/

section Answers

variable [LawfulScalar α] {payload : Value α} {rows : List (List (Value α))} {bars : List (Bar α)}

theorem parse_of_not_table (h : ¬ ∃ rows, IsTable payload rows) :
    parse payload = .error (.provider .badFormat) := by
  have hnone : rows? payload = none := by
    rw [Option.eq_none_iff_forall_ne_some]
    exact fun rows hrows => h ⟨rows, rows?_eq_some_iff.mp hrows⟩
  rw [parse, hnone]

theorem IsTable.parse_eq (h : IsTable payload rows) :
    parse payload = (rows.mapM readRow).map chronological := by
  rw [parse, rows?_eq_some_iff.mpr h]

theorem IsTable.parse_of_complete (h : IsTable payload rows)
    (hcomplete : ∀ row ∈ rows, Complete (barOf row)) :
    parse payload = .ok (chronological (rows.map barOf)) := by
  rw [h.parse_eq, mapM_readRow_of_complete hcomplete]
  rfl

/-- The first row without a complete bar is complained about. -/
theorem IsTable.parse_of_not_complete {before after : List (List (Value α))} {row : List (Value α)}
    (h : IsTable payload (before ++ row :: after)) (hbefore : ∀ row ∈ before, Complete (barOf row))
    (hrow : ¬ Complete (barOf row)) : parse payload = .error (.provider (.badCandle row)) := by
  rw [h.parse_eq, mapM_readRow_of_not_complete hbefore hrow]
  rfl

/-- An answer is what the rows stand for, or a complaint about the source. -/
theorem parse_cases (payload : Value α) :
    ((¬ ∃ rows, IsTable payload rows) ∧ parse payload = .error (.provider .badFormat)) ∨
      (∃ rows row, IsTable payload rows ∧ row ∈ rows ∧ ¬ Complete (barOf row) ∧
        parse payload = .error (.provider (.badCandle row))) ∨
      ∃ rows, IsTable payload rows ∧ (∀ row ∈ rows, Complete (barOf row)) ∧
        parse payload = .ok (chronological (rows.map barOf)) := by
  by_cases htable : ∃ rows, IsTable payload rows
  · obtain ⟨rows, htable⟩ := htable
    rcases complete_or_first rows with hall | ⟨before, row, after, rfl, hbefore, hrow⟩
    · exact .inr (.inr ⟨rows, htable, hall, htable.parse_of_complete hall⟩)
    · exact .inr (.inl ⟨_, row, htable, List.mem_append_cons_self, hrow,
        htable.parse_of_not_complete hbefore hrow⟩)
  · exact .inl ⟨htable, parse_of_not_table htable⟩

/-- Bars are read only from a table, and only if all of its rows have complete ones. -/
theorem parse_eq_ok_iff : parse payload = .ok bars ↔
    ∃ rows, IsTable payload rows ∧ (∀ row ∈ rows, Complete (barOf row)) ∧
      bars = chronological (rows.map barOf) := by
  constructor
  · intro h
    rcases parse_cases payload with ⟨_, hparse⟩ | ⟨_, _, _, _, _, hparse⟩ |
      ⟨rows, htable, hall, hparse⟩
    · rw [hparse] at h
      cases h
    · rw [hparse] at h
      cases h
    · rw [hparse] at h
      exact ⟨rows, htable, hall, (Except.ok.inj h).symm⟩
  · rintro ⟨rows, htable, hall, rfl⟩
    exact htable.parse_of_complete hall

/-- What a complaint is about: the payload as a whole, or a row. -/
theorem parse_eq_error_cases {error : EngineError α} (h : parse payload = .error error) :
    ((¬ ∃ rows, IsTable payload rows) ∧ error = .provider .badFormat) ∨
      ∃ rows row, IsTable payload rows ∧ row ∈ rows ∧ ¬ Complete (barOf row) ∧
        error = .provider (.badCandle row) := by
  rcases parse_cases payload with ⟨hnone, hparse⟩ | ⟨rows, row, htable, hrow, hbad, hparse⟩ |
    ⟨_, _, _, hparse⟩
  · rw [hparse] at h
    exact .inl ⟨hnone, (Except.error.inj h).symm⟩
  · rw [hparse] at h
    exact .inr ⟨rows, row, htable, hrow, hbad, (Except.error.inj h).symm⟩
  · rw [hparse] at h
    cases h

/-- What is no table is complained about, and so is a table with a row that stands for a bar that is
not complete. -/
theorem parse_eq_error_iff :
    (∃ error, parse payload = .error error) ↔ (¬ ∃ rows, IsTable payload rows) ∨
    ∃ rows, IsTable payload rows ∧ ∃ row ∈ rows, ∃ b, StandsFor row b ∧ ¬ Complete b := by
  constructor
  · rintro ⟨error, h⟩
    rcases parse_eq_error_cases h with ⟨hnone, -⟩ | ⟨rows, row, htable, hrow, hbad, -⟩
    · exact .inl hnone
    · exact .inr ⟨rows, htable, row, hrow, barOf row,
        (htable.isRow row hrow).standsFor_iff.mpr rfl, hbad⟩
  · rintro (hnone | ⟨rows, htable, row, hrow, b, hb, hbad⟩)
    · exact ⟨_, parse_of_not_table hnone⟩
    · obtain rfl := (htable.isRow row hrow).standsFor_iff.mp hb
      cases h : parse payload with
      | error error => exact ⟨error, rfl⟩
      | ok bars =>
        obtain ⟨found, hfound, hall, -⟩ := parse_eq_ok_iff.mp h
        obtain rfl := hfound.unique htable
        exact absurd (hall row hrow) hbad

/-- What is read is a chronicle of the bars that the rows stand for. -/
theorem chronicle_of_parse_eq_ok (h : parse payload = .ok bars) :
    ∃ rows listed, IsTable payload rows ∧
    List.Forall₂ StandsFor rows listed ∧ (∀ b ∈ bars, Complete b) ∧ Chronicle listed bars := by
  obtain ⟨rows, htable, hall, rfl⟩ := parse_eq_ok_iff.mp h
  rw [← List.forall_mem_map (P := Complete)] at hall
  have hchronicle := chronicle_chronological hall
  exact ⟨rows, rows.map barOf, htable, (forall₂_standsFor_iff htable.isRow).mpr rfl,
    fun b hb => hall b (hchronicle.perm.mem_iff.mp hb), hchronicle⟩

/-- Rows of different times can be listed in any order. -/
theorem IsTable.parse_perm {rows' : List (List (Value α))} (htable : IsTable payload rows)
    (hperm : rows.Perm rows') (hapart : (rows.map barOf).Pairwise Apart)
    (h : parse payload = .ok bars) : parse (table rows') = .ok bars := by
  obtain ⟨found, hfound, hall, rfl⟩ := parse_eq_ok_iff.mp h
  obtain rfl := hfound.unique htable
  have hall' : ∀ row ∈ rows', Complete (barOf row) :=
    fun row hrow => hall row (hperm.mem_iff.mpr hrow)
  rw [(htable.perm hperm).parse_of_complete hall']
  rw [← List.forall_mem_map (P := Complete)] at hall hall'
  rw [(chronicle_chronological hall).unique (chronicle_chronological hall')
    (hperm.map barOf).symm hapart]

end Answers

/-- **Nothing is lost, invented or misplaced.** A payload that is not a table, or one with a row
whose bar has a number that is not finite, is complained about, and nothing else is. What is read
from any other is a chronicle of the bars that the rows stand for, one for each row; and if no two
of them opened at one time, the order of the rows does not matter. -/
theorem rows_are_chronicled [LawfulScalar α] (payload : Value α) :
    (∀ error, parse payload = .error error → ∃ fault, error = .provider fault) ∧
      ((∃ error, parse payload = .error error) ↔ (¬ ∃ rows, IsTable payload rows) ∨
        ∃ rows, IsTable payload rows ∧ ∃ row ∈ rows, ∃ b, StandsFor row b ∧ ¬ Complete b) ∧
      (∀ bars, parse payload = .ok bars → ∃ rows listed, IsTable payload rows ∧
        List.Forall₂ StandsFor rows listed ∧
        (∀ b ∈ bars, Complete b) ∧ Chronicle listed bars) ∧
      ∀ rows listed, IsTable payload rows → List.Forall₂ StandsFor rows listed →
        listed.Pairwise Apart →
        ∀ rows', rows.Perm rows' → ∀ bars, parse (table rows') = .ok bars ↔
          parse payload = .ok bars := by
  refine ⟨?_, parse_eq_error_iff, fun bars => chronicle_of_parse_eq_ok, ?_⟩
  · intro error h
    rcases parse_eq_error_cases h with ⟨-, rfl⟩ | ⟨_, row, -, -, -, rfl⟩
    · exact ⟨.badFormat, rfl⟩
    · exact ⟨.badCandle row, rfl⟩
  · intro rows listed htable hlisted hapart rows' hperm bars
    obtain rfl := (forall₂_standsFor_iff htable.isRow).mp hlisted
    constructor
    · intro h
      have hapart' : (rows'.map barOf).Pairwise Apart :=
        hapart.perm (hperm.map barOf) (Std.Symm.symm _ _)
      rw [htable.lists]
      exact (htable.perm hperm).parse_perm hperm.symm hapart' h
    · exact htable.parse_perm hperm hapart

/-- A row of texts and a flag, of a candle that has all its prices in one place. -/
def level (seconds price : String) : List (Value Float) :=
  [.string seconds, .string "2.5", .string price, .string price, .string price,
    .string price, .bool true]

/-- Three minutes, the newest first: they are turned around. -/
theorem rows_are_chronicled_newestFirst :
    let rows := [level "1700000120" "99", level "1700000060" "102.25", level "1700000000" "101.5"]
    let listed := rows.map barOf
    IsTable (table rows) rows ∧ List.Forall₂ StandsFor rows listed ∧ listed.Pairwise Apart ∧
      parse (table rows) = .ok listed.reverse := by
  intro rows listed
  have htable : IsTable (table rows) rows := rows?_eq_some_iff.mp rfl
  have hlisted : List.Forall₂ StandsFor rows listed := (forall₂_standsFor_iff htable.isRow).mpr rfl
  have hapart : listed.Pairwise Apart := by decide +kernel
  have hsorted : parse (table rows.reverse) = .ok listed.reverse := by
    have hcomplete : ∀ row ∈ rows.reverse, isComplete (barOf row) = true := by decide +kernel
    have hordered : listed.reverse.Pairwise fun a b => decide (a.openTime ≤ b.openTime) = true := by
      decide +kernel
    rw [(htable.perm rows.reverse_perm.symm).parse_of_complete fun row hrow =>
      isComplete_iff.mp (hcomplete row hrow)]
    exact congrArg Except.ok (List.mergeSort_of_pairwise hordered)
  obtain ⟨-, -, -, hany⟩ := rows_are_chronicled (table rows)
  exact ⟨htable, hlisted, hapart,
    (hany rows listed htable hlisted hapart _ rows.reverse_perm.symm _).mp hsorted⟩

end MarketMaker.Candles
