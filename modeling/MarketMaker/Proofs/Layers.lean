import MarketMaker.Config.Environment
import MarketMaker.Proofs.Grammar

/-!
# Settings in layers

The fields of an object replace each other: under each name the last one counts (`get_ofFields`). A
configuration is read from such fields, first those of the environment and then the overrides. So
for each setting there is one value: the last override that is defined, or else the variable of the
setting (`get_layered`).

Nothing but these values is read. For a numeric setting it does not even matter which value is
given, as long as it is read as the same number (`parse_congr`).
-/

namespace MarketMaker.Value

/-! ## Fields that replace each other -/

variable {α β : Type} {name : String}

theorem lookup_cons_eq (name key : String) (v : β) (fields : List (String × β)) :
    ((key, v) :: fields).lookup name = if name = key then some v else fields.lookup name := by
  rw [List.lookup_cons]
  by_cases hname : name = key
  · rw [if_pos hname, beq_iff_eq.mpr hname]
  · rw [if_neg hname, beq_eq_false_iff_ne.mpr hname]

/-- A field that is replaced keeps its place. -/
theorem lookup_replace (name key : String) (v : β) (fields : List (String × β)) :
    (fields.map fun f => if f.1 == key then (key, v) else f).lookup name =
      if name = key then (fields.lookup name).map fun _ => v else fields.lookup name := by
  induction fields with
  | nil => simp
  | cons f fields ih =>
    obtain ⟨old, w⟩ := f
    by_cases hold : old = key
    · subst hold
      rw [List.map_cons, if_pos (beq_self_eq_true old), lookup_cons_eq, lookup_cons_eq, ih]
      split <;> rfl
    · rw [List.map_cons, if_neg (by simpa using hold), lookup_cons_eq, lookup_cons_eq, ih]
      by_cases hname : name = old
      · rw [if_pos hname, if_pos hname, if_neg fun hkey => hold (hname.symm.trans hkey)]
      · rw [if_neg hname, if_neg hname]

theorem lookup_setField (name key : String) (v : Value α) (fields : List (String × Value α)) :
    (setField fields key v).lookup name = if name = key then some v else fields.lookup name := by
  unfold setField
  split
  · next hany =>
    rw [lookup_replace]
    by_cases hname : name = key
    · obtain ⟨f, hmem, hf⟩ := List.any_eq_true.mp hany
      have hsome : (fields.lookup name).isSome = true :=
        List.lookup_isSome_iff.mpr ⟨f, hmem, beq_iff_eq.mpr (hname.trans (beq_iff_eq.mp hf).symm)⟩
      obtain ⟨w, hw⟩ := Option.isSome_iff_exists.mp hsome
      rw [if_pos hname, if_pos hname, hw, Option.map_some]
    · rw [if_neg hname, if_neg hname]
  · next hany =>
    rw [List.lookup_append, lookup_cons_eq]
    by_cases hname : name = key
    · have hnone : fields.lookup name = none := List.lookup_eq_none_iff.mpr fun f hmem =>
        bne_iff_ne.mpr fun heq =>
          hany (List.any_eq_true.mpr ⟨f, hmem, beq_iff_eq.mpr (heq.symm.trans hname)⟩)
      rw [if_pos hname, if_pos hname, hnone, Option.none_or]
    · rw [if_neg hname, if_neg hname, List.lookup_nil, Option.or_none]

/-- The last field of a name counts. -/
theorem lookup_foldl_setField (fields acc : List (String × Value α)) (name : String) :
    (fields.foldl (fun acc f => setField acc f.1 f.2) acc).lookup name =
      (fields.reverse.lookup name).or (acc.lookup name) := by
  induction fields generalizing acc with
  | nil => rfl
  | cons f fields ih =>
    rw [List.foldl_cons, ih, lookup_setField, List.reverse_cons, List.lookup_append,
      Option.or_assoc, lookup_cons_eq]
    split <;> rfl

theorem lookup_filter {keep : String × β → Bool} (h : ∀ v, keep (name, v) = true)
    (fields : List (String × β)) : (fields.filter keep).lookup name = fields.lookup name := by
  induction fields with
  | nil => rfl
  | cons f fields ih =>
    obtain ⟨key, v⟩ := f
    rw [List.filter_cons, lookup_cons_eq]
    split
    · rw [lookup_cons_eq, ih]
    · next hkeep => rw [ih, if_neg fun (heq : name = key) => hkeep (heq ▸ h v)]

/-- An object keeps the fields first that are named after a place in a row. For the others that
makes no difference. -/
theorem lookup_arranged (h : place? name = none) (fields : List (String × Value α)) :
    (arranged fields).lookup name = fields.lookup name := by
  have hplaces : (((fields.filterMap fun f => (place? f.1).map fun n => (n, f)).mergeSort
      fun a b => decide (a.1 ≤ b.1)).map (·.2)).lookup name = none := by
    refine List.lookup_eq_none_iff.mpr fun f hmem => bne_iff_ne.mpr fun heq => ?_
    obtain ⟨placed, hplaced, rfl⟩ := List.mem_map.mp hmem
    obtain ⟨f, -, hf⟩ := List.mem_filterMap.mp (List.mem_mergeSort.mp hplaced)
    obtain ⟨n, hn, rfl⟩ := Option.map_eq_some_iff.mp hf
    rw [heq] at h
    cases h.symm.trans hn
  rw [arranged, List.lookup_append, hplaces, Option.none_or,
    lookup_filter fun v => by rw [h, Option.isNone_none]]

theorem get_ofFields (h : place? name = none) (fields : List (String × Value α)) :
    (ofFields fields).get name = (fields.reverse.lookup name).getD undefined := by
  rw [ofFields, get, lookup_arranged h, lookup_foldl_setField, List.lookup_nil, Option.or_none]

end MarketMaker.Value

namespace MarketMaker.Config

/-! ## Overrides before the environment -/

variable {α : Type}

theorem Setting.place?_name (s : Setting) : Value.place? s.name = none := by
  cases s <;> decide

theorem Setting.variableName_inj {s t : Setting} (h : s.variableName = t.variableName) : s = t := by
  have hall : ∀ s ∈ Setting.all, ∀ t ∈ Setting.all, s.variableName = t.variableName → s = t := by
    decide
  exact hall s s.mem_all t t.mem_all h

/-- What settings give under their names is found there. -/
theorem lookup_filterMap_name (f : Setting → Option (Value α)) (t : Setting)
    (settings : List Setting) :
    (settings.filterMap fun s => (f s).map fun v => (s.name, v)).lookup t.name =
      if t ∈ settings then f t else none := by
  induction settings with
  | nil => rfl
  | cons s settings ih =>
    by_cases hst : s = t
    · subst hst
      cases hf : f s with
      | none => simp [hf, ih]
      | some v => simp [hf]
    · have hname : t.name ≠ s.name := fun heq => hst (Setting.name_inj heq).symm
      have hmem : t ∈ s :: settings ↔ t ∈ settings := by simp [Ne.symm hst]
      simp only [hmem, ← ih]
      cases hf : f s with
      | none => simp [hf]
      | some v => simp [hf, Value.lookup_cons_eq, hname]

/-- The override under a name: the last one that is defined. -/
def override? (overrides : List (String × Value α)) (name : String) : Option (Value α) :=
  (overrides.filter fun f => !f.2.isUndefined).reverse.lookup name

/-- What the environment gives for a setting: the value of its variable, trimmed, unless it is
blank. -/
def environmentValue? (environment : List (String × String)) (s : Setting) : Option (Value α) :=
  (lookupVariable environment s.variableName).map .string

/-- **Overrides come before the environment.** -/
theorem get_layered (environment : List (String × String)) (overrides : List (String × Value α))
    (s : Setting) :
    (layered environment overrides).get s.name =
      ((override? overrides s.name).or (environmentValue? environment s)).getD .undefined := by
  have hfields : layered environment overrides = .ofFields (
      (Setting.all.filterMap fun s => (environmentValue? environment s).map fun v => (s.name, v)) ++
        overrides.filter fun f => !f.2.isUndefined) := by
    rw [layered, fromEnvironment, List.map_filterMap]
    simp only [environmentValue?, Option.map_map]
    rfl
  rw [hfields, Value.get_ofFields s.place?_name, List.reverse_append, List.lookup_append,
    ← override?, ← List.filterMap_reverse, lookup_filterMap_name,
    if_pos (List.mem_reverse.mpr s.mem_all)]

section Single

variable {overrides : List (String × Value α)} {name : String}

theorem override?_append (first second : List (String × Value α)) (name : String) :
    override? (first ++ second) name = (override? second name).or (override? first name) := by
  simp only [override?, List.filter_append, List.reverse_append, List.lookup_append]

theorem override?_eq_none (h : name ∉ overrides.map Prod.fst) :
    override? overrides name = none := by
  refine List.lookup_eq_none_iff.mpr fun f hmem => bne_iff_ne.mpr fun heq => h ?_
  exact heq ▸ List.mem_map_of_mem (List.mem_of_mem_filter (List.mem_reverse.mp hmem))

theorem override?_singleton (name key : String) (v : Value α) :
    override? [(key, v)] name = if name = key ∧ v.isUndefined = false then some v else none := by
  cases hv : v.isUndefined <;> simp [override?, hv, Value.lookup_cons_eq]

/-- A field among others of other names is the override of its own name, if it is defined. -/
theorem override?_own {first rest : List (String × Value α)}
    (h : name ∉ (first ++ rest).map Prod.fst) (v : Value α) :
    override? (first ++ (name, v) :: rest) name = if v.isUndefined then none else some v := by
  rw [List.map_append, List.mem_append, not_or] at h
  rw [List.append_cons, override?_append, override?_append, override?_eq_none h.1,
    override?_eq_none h.2, override?_singleton]
  cases v.isUndefined <;> simp

/-- It makes no difference for any other name. -/
theorem override?_other {key : String} (h : name ≠ key) (first rest : List (String × Value α))
    (v : Value α) :
    override? (first ++ (key, v) :: rest) name = override? (first ++ rest) name := by
  rw [List.append_cons, override?_append, override?_append, override?_append, override?_singleton,
    if_neg fun hname => h hname.1, Option.none_or]

end Single

theorem environmentValue?_own (environment : List (String × String)) (s : Setting) {text : String}
    (h : Text.trimChars text.toList ≠ []) :
    environmentValue? ((s.variableName, text) :: environment) s =
      some (.string (Text.trim text) : Value α) := by
  have hgiven : (Text.trim text).isEmpty = false := by
    rwa [Text.trim, ← Bool.not_eq_true, String.isEmpty_iff, String.ofList_eq_empty_iff]
  simp [environmentValue?, lookupVariable, hgiven]

theorem environmentValue?_other {s t : Setting} (h : t ≠ s) (environment : List (String × String))
    (text : String) :
    (environmentValue? ((s.variableName, text) :: environment) t : Option (Value α)) =
      environmentValue? environment t := by
  have hname : t.variableName ≠ s.variableName := fun heq => h (Setting.variableName_inj heq)
  rw [environmentValue?, environmentValue?, lookupVariable, lookupVariable, Value.lookup_cons_eq,
    if_neg hname]

/-! ## What is read of a number -/

open Scalar

variable {input input' v w : Value α} {c : Config α} {s : Setting}

theorem pick_of_given (hgiven : (input.get s.name).isUndefined = false) (default : Value α) :
    pick input s default = input.get s.name :=
  if_neg (Bool.eq_false_iff.mp hgiven)

variable [Scalar α] [NumberText α]

/-- Two values that are given, and read as the same number. -/
structure Alike (v w : Value α) : Prop where
  /-- The one is given and has a text. -/
  left : v.isUndefined = false ∧ v.hasText = true
  /-- The other is given and has a text. -/
  right : w.isUndefined = false ∧ w.hasText = true
  /-- They are read as the same number. -/
  amount : v.amount = w.amount

theorem Alike.symm (h : Alike v w) : Alike w v := ⟨h.right, h.left, h.amount.symm⟩

variable [LawfulScalar α]

/-- A value that is given for a numeric setting, and can be read, is admitted if it passes every
check. -/
theorem admits_given_iff (hs : s.isNumeric = true) (hgiven : v.isUndefined = false)
    (hreadable : v.hasText = true) : Admits s v ↔ complaints s v.amount = [] := by
  rw [admits_iff, and_iff_right fun _ => hreadable, faults_of_isNumeric hs,
    if_neg (Bool.eq_false_iff.mp hgiven)]

/-- A configuration has the number that is given for a setting. -/
theorem number_of_parse (h : parse input = .ok c) (hs : s.isNumeric = true)
    (hgiven : (input.get s.name).isUndefined = false) : c.number s = (input.get s.name).amount := by
  obtain ⟨-, -, hdescribes, -⟩ := parse_eq_ok_iff.mp h
  rw [hdescribes.number s hs, pick_of_given hgiven]

theorem isNumber_of_parse (h : parse input = .ok c) (hs : s.isNumeric = true)
    (hgiven : (input.get s.name).isUndefined = false) : IsNumber (input.get s.name).amount := by
  obtain ⟨-, hadmits, -, -⟩ := parse_eq_ok_iff.mp h
  have hfaults := (admits_iff.mp (hadmits s)).2
  rw [faults_of_isNumeric hs, if_neg (Bool.eq_false_iff.mp hgiven)] at hfaults
  exact (complaints_eq_nil_iff_holds.mp hfaults).1

/-- It makes no difference which of two values is given for a numeric setting, if they are read as
the same number. -/
theorem parse_congr (hs : s.isNumeric = true) (hobject : ∃ fields, input' = .object fields)
    (hothers : ∀ t, t ≠ s → input.get t.name = input'.get t.name)
    (halike : Alike (input.get s.name) (input'.get s.name)) (h : parse input = .ok c) :
    parse input' = .ok c := by
  obtain ⟨-, hadmits, hdescribes, hcoherent⟩ := parse_eq_ok_iff.mp h
  have hpick {t : Setting} (ht : t ≠ s) (default : Value α) :
      pick input' t default = pick input t default := by
    rw [pick, pick, hothers t ht]
  refine parse_eq_ok_iff.mpr ⟨hobject, fun t => ?_, ⟨?_, ?_, ?_, fun t ht => ?_⟩, hcoherent⟩
  · by_cases hts : t = s
    · subst hts
      rw [admits_given_iff hs halike.right.1 halike.right.2, ← halike.amount,
        ← admits_given_iff hs halike.left.1 halike.left.2]
      exact hadmits t
    · exact hothers t hts ▸ hadmits t
  · exact hdescribes.symbol.trans (hpick (by rintro rfl; cases hs) _).symm
  · rw [hpick (by rintro rfl; cases hs)]
    exact hdescribes.mode
  · rw [hpick (by rintro rfl; cases hs)]
    exact hdescribes.interval
  · by_cases hts : t = s
    · subst hts
      rw [number_of_parse h hs halike.left.1, halike.amount, pick_of_given halike.right.1]
    · rw [hpick hts]
      exact hdescribes.number t ht

end MarketMaker.Config
