import MarketMaker.Proofs.Layers

/-!
# Overrides keep the environment out

Of all that an environment and its overrides hold, only what is **chosen** counts: for each setting
its override, and where there is none, the variable of the setting. This is so because nothing else
of an input is read, neither for the configuration nor for the words of an error
(`parse_eq_of_get`).

Layers that **agree** on what is chosen can therefore not be told apart. They may differ in the
variables of settings that are overridden, however wrong, in variables of no setting, and in
overrides of no setting.
-/

namespace MarketMaker.Config

variable {α : Type}

/-! ## What is chosen -/

section Chosen

variable (environment : List (String × String)) (overrides : List (String × Value α))

/-- What counts for a setting: its override, or else what the environment gives. -/
def chosen? (s : Setting) : Option (Value α) :=
  match override? overrides s.name with
  | some v => some v
  | none => environmentValue? environment s

/-- The input that has what counts for each setting, and nothing else. -/
def chosen : Value α :=
  .object (Setting.all.filterMap fun s =>
    (chosen? environment overrides s).map fun v => (s.name, v))

theorem get_chosen (s : Setting) :
    (chosen environment overrides).get s.name =
      (chosen? environment overrides s).getD .undefined := by
  rw [chosen, Value.get, lookup_filterMap_name, if_pos s.mem_all]

theorem get_layered_eq_get_chosen (s : Setting) :
    (layered environment overrides).get s.name = (chosen environment overrides).get s.name := by
  rw [get_layered, get_chosen, chosen?]
  cases override? overrides s.name <;> rfl

end Chosen

/-! ## What is read -/

section Reading

variable [Scalar α] [NumberText α] {fields fields' : List (String × Value α)}

/-- All that is read of an object is what it gives for the settings. -/
theorem parse_eq_of_get
    (h : ∀ s : Setting, (Value.object fields).get s.name = (Value.object fields').get s.name) :
    parse (.object fields) = parse (.object fields') := by
  have hreadable : isReadable (.object fields) = isReadable (.object fields') := by
    simp only [isReadable, h]
  have hread : Config.read (.object fields) = Config.read (.object fields') := by
    simp only [Config.read, h]
  simp only [parse, hreadable, hread]

/-- **A configuration is read from what is chosen.** -/
theorem load_eq_parse_chosen (environment : List (String × String))
    (overrides : List (String × Value α)) :
    load environment overrides = parse (chosen environment overrides) :=
  parse_eq_of_get (get_layered_eq_get_chosen environment overrides)

end Reading

/-! ## What makes no difference -/

/-- Two environments with their overrides that agree on what counts: they have the same overrides of
the settings, and where a setting is not overridden, the same text in its variable, trimmed, or a
blank one in both. -/
structure Agree (environment : List (String × String)) (overrides : List (String × Value α))
    (environment' : List (String × String)) (overrides' : List (String × Value α)) : Prop where
  /-- Each setting has the same override in both, or none. -/
  override (s : Setting) : override? overrides s.name = override? overrides' s.name
  /-- A setting without one has the same text in its variable. -/
  given (s : Setting) : override? overrides s.name = none →
    lookupVariable environment s.variableName = lookupVariable environment' s.variableName

variable {environment environment' : List (String × String)}
  {overrides overrides' : List (String × Value α)}

theorem Agree.chosen_eq (h : Agree environment overrides environment' overrides') :
    chosen environment overrides = chosen environment' overrides' := by
  have hchosen (s : Setting) :
      chosen? environment overrides s = chosen? environment' overrides' s := by
    unfold chosen?
    rw [← h.override s]
    cases hs : override? overrides s.name with
    | some v => rfl
    | none => rw [environmentValue?, h.given s hs, environmentValue?]
  simp only [chosen, hchosen]

/-- A variable makes no difference if it belongs to a setting with an override, or to none. -/
theorem Agree.of_variable {name : String} (text : String)
    (h : ∀ s : Setting, s.variableName = name → override? overrides s.name ≠ none) :
    Agree ((name, text) :: environment) overrides environment overrides := by
  refine ⟨fun s => rfl, fun s hs => ?_⟩
  have hname : s.variableName ≠ name := fun heq => h s heq hs
  rw [lookupVariable, Value.lookup_cons_eq, if_neg hname, lookupVariable]

/-- Neither does an override of no setting. -/
theorem Agree.of_override {name : String} (v : Value α) (h : ∀ s : Setting, s.name ≠ name)
    (first rest : List (String × Value α)) :
    Agree environment (first ++ (name, v) :: rest) environment (first ++ rest) :=
  ⟨fun s => override?_other (h s) first rest v, fun _ _ => rfl⟩

variable [Scalar α] [NumberText α]

/-- **Overrides keep the environment out.** What an environment and its overrides come to, a
configuration or an error, is what the input of the chosen values comes to. It is the same for all
environments and overrides that agree on what counts: whatever is in the variable of a setting that
is overridden, in a variable of no setting, or in an override of no setting. -/
theorem load_layers (environment : List (String × String)) (overrides : List (String × Value α)) :
    load environment overrides = parse (chosen environment overrides) ∧
      (∀ environment' overrides', Agree environment overrides environment' overrides' →
        load environment overrides = load environment' overrides') ∧
      (∀ (s : Setting) (text : String), override? overrides s.name ≠ none →
        load ((s.variableName, text) :: environment) overrides = load environment overrides) ∧
      (∀ name text : String, (∀ s : Setting, s.variableName ≠ name) →
        load ((name, text) :: environment) overrides = load environment overrides) ∧
      ∀ (name : String) (v : Value α) (first rest : List (String × Value α)), overrides =
        first ++ rest → (∀ s : Setting, s.name ≠ name) →
          load environment (first ++ (name, v) :: rest) = load environment overrides := by
  have hagree {e e' : List (String × String)} {o o' : List (String × Value α)}
      (h : Agree e o e' o') : load e o = load e' o' := by
    rw [load_eq_parse_chosen, load_eq_parse_chosen, h.chosen_eq]
  refine ⟨load_eq_parse_chosen environment overrides, fun _ _ => hagree, fun s text hs => ?_,
    fun name text hname => ?_, fun name v first rest hsplit hname => ?_⟩
  · refine hagree (.of_variable text fun t ht => ?_)
    rwa [Setting.variableName_inj ht]
  · exact hagree (.of_variable text fun s hs => absurd hs (hname s))
  · rw [hsplit]
    exact hagree (.of_override v hname first rest)

/-- A profit factor that is no number, a mode that there is not and a symbol of blanks do no harm
where the first two are overridden and the third is left to its default. -/
theorem load_layers_spoilt :
    let spoilt := [("MM_PROFIT_FACTOR", "many"), ("MM_MODE", "none"), ("MM_SYMBOL", "  "),
      ("MM_MIN_SPREAD", " 0 ")]
    let plain := [("MM_MIN_SPREAD", "0"), ("PATH", "/bin")]
    let overrides : List (String × Value Float) :=
      [("profitFactor", .number 3), ("mode", "fixed"), ("symbol", .undefined)]
    Agree spoilt overrides plain overrides ∧ load spoilt overrides = load plain overrides ∧
      load (("MM_PROFIT_FACTOR", "more") :: plain) overrides = load plain overrides ∧
      load plain (overrides ++ [("colour", .string "red")]) = load plain overrides ∧
      ∃ c, load plain overrides = .ok c ∧ c.profitFactor = 3 := by
  intro spoilt plain overrides
  have hagree : Agree spoilt overrides plain overrides := by
    refine ⟨fun s => rfl, fun s hs => ?_⟩
    cases s with
    | profitFactor => cases hs
    | mode => cases hs
    | _ => rfl
  obtain ⟨-, hsame, -⟩ := load_layers spoilt overrides
  obtain ⟨-, -, hoverridden, -, hunknown⟩ := load_layers plain overrides
  refine ⟨hagree, hsame plain overrides hagree, hoverridden .profitFactor "more" nofun,
    hunknown "colour" (.string "red") overrides [] rfl fun s => ?_, ?_⟩
  · cases s <;> decide
  · have haccepted : (load plain overrides).isOk = true := by decide +kernel
    cases hc : load plain overrides with
    | error f =>
      rw [hc] at haccepted
      cases haccepted
    | ok c =>
      have hget : (layered plain overrides).get Setting.profitFactor.name = .number 3 :=
        get_layered plain overrides .profitFactor
      have hnumber := number_of_parse (s := .profitFactor) hc rfl (by rw [hget]; rfl)
      rw [hget] at hnumber
      exact ⟨c, rfl, hnumber⟩

end MarketMaker.Config
