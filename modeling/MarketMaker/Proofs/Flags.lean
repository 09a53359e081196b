import MarketMaker.Command.Program
import MarketMaker.Proofs.Layers
import MarketMaker.Proofs.Readings

/-!
# Flags and variables

Nine numeric settings can be given as a flag of a command (`Tunable`), and each of them also as a
variable of the environment. Here a run with the flag is compared to a run with the variable, all
other arguments and variables being the same.

The overrides of a command are a list of entries, each of which only looks at the switch that it is
read from (`Entry.read_congr`). So a flag is one more override among the others
(`Tunable.overrides_cases`), and both runs read their configurations from inputs that differ in one
setting only (`Tunable.Inputs`). The flag gives it as the number that the text begins with; the
variable gives the text, and the text is read as a whole. Both runs end in the same way if the two
readings agree, and in no other case unless both fail (`Tunable.sameOutcome_iff_readsAlike`).
-/

namespace MarketMaker.Command

open Config Numeral Scalar LawfulScalar

/-! ## Switches -/

section Switches

variable {a : Arguments} {s t : Switch}

theorem value?_withValue_of_ne (h : t.name ≠ s.name) (text : String) (a : Arguments) :
    (a.withValue s text).value? t = a.value? t := by
  rw [Arguments.value?, Arguments.value?, Arguments.withValue, List.reverse_cons,
    List.lookup_append, Value.lookup_cons_eq, if_neg h, List.lookup_nil, Option.or_none]

theorem value?_withValue (h : a.value? s = none) (text : String) :
    (a.withValue s text).value? s = some text := by
  have hnone : a.values.reverse.lookup s.name = none := by
    cases hlookup : a.values.reverse.lookup s.name with
    | none => rfl
    | some v =>
      rw [Arguments.value?, hlookup] at h
      cases h
  rw [Arguments.value?, Arguments.withValue, List.reverse_cons, List.lookup_append, hnone,
    Value.lookup_cons_eq, if_pos rfl]
  rfl

end Switches

/-! ## Overrides, one by one -/

/-- One of the overrides of a command. It only looks at one switch. -/
structure Entry (α : Type) where
  /-- The setting that is overridden. -/
  setting : Setting
  /-- The switch that overrides it. -/
  switch : Switch
  /-- Reads the name of the setting and its value, or complains. -/
  read : Arguments → Except FlagError (String × Value α)
  /-- Nothing counts but the value of the switch. -/
  read_congr {a b : Arguments} : a.value? switch = b.value? switch → read a = read b
  /-- What is read is for the setting. -/
  name_of_read {a : Arguments} {f : String × Value α} : read a = .ok f → f.1 = setting.name

variable {α : Type}

namespace Entry

def symbol : Entry α where
  setting := .symbol
  switch := .symbol
  read a := (fun symbol => overrideText .symbol (some symbol)) <$> readSymbol (textOf a .symbol)
  read_congr h := by rw [textOf, textOf, h]
  name_of_read h := by obtain ⟨symbol, -, rfl⟩ := Guards.map_eq_ok.mp h; rfl

def interval (switch : Switch) : Entry α where
  setting := .volatilityInterval
  switch
  read a :=
    (fun i => overrideText .volatilityInterval (i.map (·.name))) <$> readGivenInterval a switch
  read_congr h := by rw [readGivenInterval, readGivenInterval, givenText?, givenText?, h]
  name_of_read h := by obtain ⟨i, -, rfl⟩ := Guards.map_eq_ok.mp h; rfl

def mode : Entry α where
  setting := .mode
  switch := .mode
  read a := (fun m => overrideText .mode (m.map (·.name))) <$> readGivenMode a .mode
  read_congr h := by rw [readGivenMode, readGivenMode, givenText?, givenText?, h]
  name_of_read h := by obtain ⟨m, -, rfl⟩ := Guards.map_eq_ok.mp h; rfl

/-- A mode that no argument changes. -/
def fixedMode (m : Mode) : Entry α where
  setting := .mode
  switch := .mode
  read _ := pure (overrideText .mode (some m.name))
  read_congr _ := rfl
  name_of_read h := by cases h; rfl

variable [Scalar α]

def number (setting : Setting) (switch : Switch) (label : String) : Entry α where
  setting
  switch
  read a := overrideNumber setting <$> readOptional (a.value? switch) label
  read_congr h := by rw [h]
  name_of_read h := by obtain ⟨x, -, rfl⟩ := Guards.map_eq_ok.mp h; rfl

end Entry

section Entries

variable {a : Arguments} {s : Switch} {entries : List (Entry α)}

theorem names_of_mapM {fields : List (String × Value α)}
    (h : entries.mapM (·.read a) = .ok fields) :
    fields.map Prod.fst = entries.map (·.setting.name) := by
  induction entries generalizing fields with
  | nil =>
    cases h
    rfl
  | cons e entries ih =>
    rw [List.mapM_cons] at h
    obtain ⟨f, hf, h⟩ := Guards.bind_eq_ok.mp h
    obtain ⟨rest, hrest, h⟩ := Guards.bind_eq_ok.mp h
    cases h
    rw [List.map_cons, List.map_cons, e.name_of_read hf, ih hrest]

theorem mapM_withValue (h : ∀ e ∈ entries, e.switch.name ≠ s.name) (text : String) (a : Arguments) :
    entries.mapM (·.read (a.withValue s text)) = entries.mapM (·.read a) := by
  induction entries with
  | nil => rfl
  | cons e entries ih =>
    obtain ⟨he, hentries⟩ := List.forall_mem_cons.mp h
    rw [List.mapM_cons, List.mapM_cons, ih hentries,
      e.read_congr (value?_withValue_of_ne he text a)]

variable [Scalar α]

theorem readNumber_eq_ok_iff {text label : String} {x : α} :
    readNumber text label = .ok x ↔ isNaN x = false ∧ (ofLeading text).value = x := by
  change (if isNaN ((ofLeading text).value : α) then _ else _) = _ ↔ _
  by_cases hnan : isNaN ((ofLeading text).value : α) = true
  · rw [if_pos hnan]
    refine iff_of_false nofun ?_
    rintro ⟨hx, rfl⟩
    exact Bool.false_ne_true (hx.symm.trans hnan)
  · rw [if_neg hnan, Except.ok.injEq]
    refine ⟨?_, And.right⟩
    rintro rfl
    exact ⟨Bool.eq_false_iff.mpr hnan, rfl⟩

theorem read_number_of_none {setting : Setting} {label : String} (h : a.value? s = none) :
    (Entry.number setting s label : Entry α).read a = pure (setting.name, .undefined) := by
  change overrideNumber setting <$> readOptional (a.value? s) label = _
  rw [h]
  rfl

theorem read_number_withValue {setting : Setting} {label text : String} (h : a.value? s = none) :
    (Entry.number setting s label : Entry α).read (a.withValue s text) =
      (fun x => (setting.name, .number x)) <$> readNumber text label := by
  change overrideNumber setting <$> readOptional ((a.withValue s text).value? s) label = _
  rw [value?_withValue h, readOptional]
  cases readNumber (α := α) text label <;> rfl

/-- The overrides of the command `run`. -/
def runEntries : List (Entry α) :=
  [.symbol, .mode, .interval .runInterval,
    .number .updateIntervalSeconds .updateInterval "Update interval",
    .number .riskFactor .riskFactor "Risk factor", .number .minSpread .minSpread "Min spread"]

/-- The overrides of the command `optimize`. -/
def optimizeEntries : List (Entry α) :=
  [.symbol, .fixedMode .autoOptimize, .interval .configuredInterval,
    .number .lookback .lookback "Lookback",
    .number .targetFillProbability .fillProbability "Fill probability",
    .number .stopLossRiskProbability .stopLossProbability "Stop-loss probability",
    .number .profitFactor .profitFactor "Profit factor",
    .number .maxHoldingTimeDays .maxHoldingDays "Max holding days",
    .number .orderRefreshTimeSeconds .refreshSeconds "Refresh seconds"]

theorem runOverrides_eq (a : Arguments) :
    runOverrides a = (runEntries : List (Entry α)).mapM (·.read a) := by
  simp only [runOverrides, runEntries, List.mapM_cons, List.mapM_nil, Entry.symbol,
    Entry.mode, Entry.interval, Entry.number, map_eq_pure_bind, bind_assoc, pure_bind]

theorem optimizeOverrides_eq (a : Arguments) :
    optimizeOverrides a = (optimizeEntries : List (Entry α)).mapM (·.read a) := by
  simp only [optimizeOverrides, optimizeEntries, List.mapM_cons, List.mapM_nil,
    Entry.symbol, Entry.fixedMode, Entry.interval, Entry.number, map_eq_pure_bind,
    bind_assoc, pure_bind]

/-- No two overrides are of one setting, or read from one switch. -/
theorem nodup_runEntries : ((runEntries : List (Entry α)).map (·.setting)).Nodup ∧
    ((runEntries : List (Entry α)).map (·.switch.name)).Nodup := by
  simp only [runEntries, List.map_cons, List.map_nil, Entry.symbol, Entry.mode,
    Entry.interval, Entry.number]
  decide

theorem nodup_optimizeEntries : ((optimizeEntries : List (Entry α)).map (·.setting)).Nodup ∧
    ((optimizeEntries : List (Entry α)).map (·.switch.name)).Nodup := by
  simp only [optimizeEntries, List.map_cons, List.map_nil, Entry.symbol, Entry.fixedMode,
    Entry.interval, Entry.number]
  decide

end Entries

/-! ## Settings that have a flag -/

/-- A numeric setting that can be given as a flag of `run`, or else of `optimize`. -/
inductive Tunable where
  | updateInterval
  | riskFactor
  | minSpread
  | lookback
  | fillProbability
  | stopLossProbability
  | profitFactor
  | maxHoldingDays
  | refreshSeconds

namespace Tunable

def setting : Tunable → Setting
  | updateInterval => .updateIntervalSeconds
  | riskFactor => .riskFactor
  | minSpread => .minSpread
  | lookback => .lookback
  | fillProbability => .targetFillProbability
  | stopLossProbability => .stopLossRiskProbability
  | profitFactor => .profitFactor
  | maxHoldingDays => .maxHoldingTimeDays
  | refreshSeconds => .orderRefreshTimeSeconds

/-- The flag. -/
def switch : Tunable → Switch
  | updateInterval => .updateInterval
  | riskFactor => .riskFactor
  | minSpread => .minSpread
  | lookback => .lookback
  | fillProbability => .fillProbability
  | stopLossProbability => .stopLossProbability
  | profitFactor => .profitFactor
  | maxHoldingDays => .maxHoldingDays
  | refreshSeconds => .refreshSeconds

/-- What the flag is called when something is wrong with it. -/
def label : Tunable → String
  | updateInterval => "Update interval"
  | riskFactor => "Risk factor"
  | minSpread => "Min spread"
  | lookback => "Lookback"
  | fillProbability => "Fill probability"
  | stopLossProbability => "Stop-loss probability"
  | profitFactor => "Profit factor"
  | maxHoldingDays => "Max holding days"
  | refreshSeconds => "Refresh seconds"

theorem isNumeric_setting (t : Tunable) : t.setting.isNumeric = true := by
  cases t <;> rfl

variable [Scalar α]

/-- The overrides of the command that has the flag. -/
def overrides : Tunable → Arguments → Except FlagError (List (String × Value α))
  | updateInterval | riskFactor | minSpread => runOverrides
  | _ => optimizeOverrides

def entries : Tunable → List (Entry α)
  | updateInterval | riskFactor | minSpread => runEntries
  | _ => optimizeEntries

theorem overrides_eq (t : Tunable) (a : Arguments) :
    t.overrides a = (t.entries : List (Entry α)).mapM (·.read a) := by
  cases t with
  | updateInterval | riskFactor | minSpread => exact runOverrides_eq a
  | _ => exact optimizeOverrides_eq a

/-- One override is the flag, and no other is of its setting or read from its switch. -/
theorem entries_split (t : Tunable) : ∃ before after : List (Entry α),
    t.entries = before ++ .number t.setting t.switch t.label :: after ∧
      ∀ e ∈ before ++ after, e.setting ≠ t.setting ∧ e.switch.name ≠ t.switch.name := by
  have hmem : (.number t.setting t.switch t.label : Entry α) ∈ t.entries := by
    cases t <;> simp [entries, runEntries, optimizeEntries, setting, switch, label]
  have hnodup : ((t.entries : List (Entry α)).map (·.setting)).Nodup ∧
      ((t.entries : List (Entry α)).map (·.switch.name)).Nodup := by
    cases t with
    | updateInterval | riskFactor | minSpread => exact nodup_runEntries
    | _ => exact nodup_optimizeEntries
  obtain ⟨before, after, hsplit⟩ := List.append_of_mem hmem
  rw [hsplit, List.map_append, List.map_append, List.map_cons, List.map_cons, List.nodup_middle,
    List.nodup_middle, List.nodup_cons, List.nodup_cons, ← List.map_append, ← List.map_append]
    at hnodup
  obtain ⟨⟨hsetting, -⟩, hswitch, -⟩ := hnodup
  exact ⟨before, after, hsplit, fun e he => ⟨fun heq => hsetting (List.mem_map.mpr ⟨e, he, heq⟩),
    fun heq => hswitch (List.mem_map.mpr ⟨e, he, heq⟩)⟩⟩

/-- A flag is one more override if its text begins with a number, unless something is wrong with the
other flags. -/
theorem overrides_cases (t : Tunable) {a : Arguments} (h : a.value? t.switch = none) :
    (∃ first rest : List (String × Value α), t.setting.name ∉ (first ++ rest).map Prod.fst ∧
        t.overrides a = .ok (first ++ (t.setting.name, .undefined) :: rest) ∧
        ∀ text, t.overrides (a.withValue t.switch text) =
          (fun x => first ++ (t.setting.name, .number x) :: rest) <$> readNumber text t.label) ∨
      (∀ fields : List (String × Value α), t.overrides a ≠ .ok fields) ∧
        ∀ text, ∀ fields : List (String × Value α), t.overrides (a.withValue t.switch text) ≠
          .ok fields := by
  obtain ⟨before, after, hsplit, hothers⟩ := t.entries_split (α := α)
  have hplain : t.overrides a = (do
      let first ← before.mapM (·.read a)
      let rest ← after.mapM (·.read a)
      return first ++ (t.setting.name, .undefined) :: rest) := by
    rw [overrides_eq, hsplit, List.mapM_append]
    simp only [List.mapM_cons, read_number_of_none h, bind_assoc, pure_bind]
  have hflag (text : String) : t.overrides (a.withValue t.switch text) = (do
      let first ← before.mapM (·.read a)
      let x ← readNumber text t.label
      let rest ← after.mapM (·.read a)
      return first ++ (t.setting.name, .number x) :: rest) := by
    rw [overrides_eq, hsplit, List.mapM_append, List.mapM_cons,
      mapM_withValue fun e he => (hothers e (List.mem_append_left _ he)).2,
      mapM_withValue fun e he => (hothers e (List.mem_append_right _ he)).2]
    simp only [read_number_withValue h, map_eq_pure_bind, bind_assoc, pure_bind]
  cases hbefore : before.mapM (·.read a) with
  | error f =>
    refine .inr ⟨fun fields => ?_, fun text fields => ?_⟩
    · rw [hplain, hbefore]
      exact nofun
    · rw [hflag, hbefore]
      exact nofun
  | ok first =>
    cases hafter : after.mapM (·.read a) with
    | error f =>
      refine .inr ⟨fun fields => ?_, fun text fields => ?_⟩
      · rw [hplain, hbefore, hafter]
        exact nofun
      · rw [hflag, hbefore, hafter]
        cases readNumber (α := α) text t.label <;> exact nofun
    | ok rest =>
      refine .inl ⟨first, rest, fun hmem => ?_, ?_, fun text => ?_⟩
      · rw [List.map_append, names_of_mapM hbefore, names_of_mapM hafter, ← List.map_append] at hmem
        obtain ⟨e, he, hname⟩ := List.mem_map.mp hmem
        exact (hothers e he).1 (Setting.name_inj hname)
      · rw [hplain, hbefore, hafter]
        rfl
      · rw [hflag, hbefore, hafter]
        rfl

end Tunable

/-! ## Two runs -/

/-- Both fail, or both give the same. -/
inductive SameOutcome {ε β : Type} : Except ε β → Except ε β → Prop where
  /-- Both fail, each in its own way. -/
  | failed (e f : ε) : SameOutcome (.error e) (.error f)
  /-- Both give this. -/
  | given (b : β) : SameOutcome (.ok b) (.ok b)

theorem sameOutcome_iff {ε β : Type} {x y : Except ε β} :
    SameOutcome x y ↔ ∀ b, x = .ok b ↔ y = .ok b := by
  constructor
  · rintro (⟨e, f⟩ | ⟨b⟩) c
    · exact iff_of_false nofun nofun
    · rfl
  · intro h
    cases x with
    | error e =>
      cases y with
      | error f => exact .failed e f
      | ok b => cases (h b).mpr rfl
    | ok b => exact (h b).mp rfl ▸ .given b

theorem sameOutcome_of_refused {ε β : Type} {x y : Except ε β} (h : ∀ b, x ≠ .ok b ∧ y ≠ .ok b) :
    SameOutcome x y :=
  sameOutcome_iff.mpr fun b => iff_of_false (h b).1 (h b).2

namespace Tunable

variable [Scalar α] [NumberText α]

/-- The configuration of a command that is given a text as the flag. -/
def byFlag (t : Tunable) (environment : List (String × String)) (a : Arguments) (text : String) :
    Except (Failure α) (Config α) :=
  Program.configure environment (t.overrides (a.withValue t.switch text))

/-- The configuration of a command that is given a text as the variable. -/
def byVariable (t : Tunable) (environment : List (String × String))
    (a : Arguments) (text : String) : Except (Failure α) (Config α) :=
  Program.configure ((t.setting.variableName, text) :: environment) (t.overrides a)

variable {t : Tunable} {environment : List (String × String)} {a : Arguments} {text : String}

theorem configure_eq_ok_iff {overrides : Except FlagError (List (String × Value α))}
    {c : Config α} :
    Program.configure environment overrides = .ok c ↔
      ∃ fields, overrides = .ok fields ∧ parse (layered environment fields) = .ok c := by
  simp only [Program.configure, load, Guards.bind_eq_ok, Guards.mapError_eq_ok]

/-- What two runs read their configurations from: inputs that differ in one setting at most, which
is given as a number to the one, and as a text to the other. -/
structure Inputs (t : Tunable) (environment : List (String × String))
    (a : Arguments) (text : String) (left right : Value α) : Prop where
  /-- Both inputs are objects. -/
  objects : (∃ fields, left = .object fields) ∧ ∃ fields, right = .object fields
  /-- The run that is given the flag parses the one input. -/
  byFlag (c : Config α) : t.byFlag environment a text = .ok c ↔ parse left = .ok c
  /-- The run that is given the variable parses the other. -/
  byVariable (c : Config α) : t.byVariable environment a text = .ok c ↔ parse right = .ok c
  /-- The flag is read as a number by its longest leading literal. -/
  number : left.get t.setting.name = .number (ofLeading text).value
  /-- The variable is handed over as its text. -/
  text : right.get t.setting.name = .string (Text.trim text)
  /-- All other settings are the same in both. -/
  others (s : Setting) : s ≠ t.setting → left.get s.name = right.get s.name

variable [Legible α]

/-- Each of two runs reads a configuration, unless something is wrong with the arguments that both
are given. -/
theorem inputs_or_refused (t : Tunable) (environment : List (String × String))
    (h : a.value? t.switch = none) (htext : core text ≠ []) :
    (∃ left right : Value α, t.Inputs environment a text left right) ∨
      ∀ c : Config α, t.byFlag environment a text ≠ .ok c ∧
        t.byVariable environment a text ≠ .ok c := by
  rcases t.overrides_cases (α := α) h with ⟨first, rest, hname, hplain, hflag⟩ | ⟨hplain, hflag⟩
  · have hnumber (environment : List (String × String)) (x : α) :
        (layered environment (first ++ (t.setting.name, .number x) :: rest)).get t.setting.name =
          .number x := by
      rw [get_layered, override?_own hname]
      rfl
    refine .inl
      ⟨layered environment (first ++ (t.setting.name, .number (ofLeading text).value) :: rest),
        layered ((t.setting.variableName, text) :: environment)
          (first ++ (t.setting.name, .undefined) :: rest),
        ⟨⟨_, rfl⟩, ⟨_, rfl⟩⟩, fun c => ?_, fun c => ?_, hnumber _ _, ?_, fun s hs => ?_⟩
    · rw [byFlag, configure_eq_ok_iff, hflag]
      constructor
      · rintro ⟨fields, hfields, hparse⟩
        obtain ⟨x, hx, rfl⟩ := Guards.map_eq_ok.mp hfields
        obtain ⟨-, rfl⟩ := readNumber_eq_ok_iff.mp hx
        exact hparse
      · intro hparse
        have hread := isNumber_of_parse hparse t.isNumeric_setting (by rw [hnumber]; rfl)
        rw [hnumber] at hread
        exact ⟨_, Guards.map_eq_ok.mpr ⟨_, readNumber_eq_ok_iff.mpr ⟨isNaN_eq_false_iff.mpr hread,
          rfl⟩, rfl⟩, hparse⟩
    · rw [byVariable, configure_eq_ok_iff, hplain]
      exact ⟨fun ⟨_, heq, hparse⟩ => Except.ok.inj heq ▸ hparse, fun hparse => ⟨_, rfl, hparse⟩⟩
    · rw [get_layered, override?_own hname, environmentValue?_own _ _ htext]
      rfl
    · have hne : s.name ≠ t.setting.name := fun heq => hs (Setting.name_inj heq)
      rw [get_layered, get_layered, override?_other hne, override?_other hne,
        environmentValue?_other hs]
  · refine .inr fun c => ⟨fun hc => ?_, fun hc => ?_⟩
    · obtain ⟨fields, hfields, -⟩ := configure_eq_ok_iff.mp hc
      exact hflag text fields hfields
    · obtain ⟨fields, hfields, -⟩ := configure_eq_ok_iff.mp hc
      exact hplain fields hfields

namespace Inputs

variable {left right : Value α} {c : Config α} (h : t.Inputs environment a text left right)

include h

theorem number_of_byFlag (hc : t.byFlag environment a text = .ok c) :
    c.number t.setting = (ofLeading text).value := by
  rw [number_of_parse ((h.byFlag c).mp hc) t.isNumeric_setting (by rw [h.number]; rfl), h.number]
  rfl

theorem number_of_byVariable (hc : t.byVariable environment a text = .ok c) :
    c.number t.setting = (ofWhole text).value := by
  rw [number_of_parse ((h.byVariable c).mp hc) t.isNumeric_setting (by rw [h.text]; rfl),
    h.text, Value.amount, ofWhole_trim]

theorem sameOutcome [Numeric α] (heq : ((ofLeading text).value : α) = (ofWhole text).value) :
    SameOutcome (t.byFlag environment a text)
      (t.byVariable environment a text : Except (Failure α) (Config α)) := by
  have hamount : (.string (Text.trim text) : Value α).amount = (ofWhole text).value := by
    rw [Value.amount, ofWhole_trim]
  have halike : Alike (left.get t.setting.name) (right.get t.setting.name) := by
    rw [h.number, h.text]
    exact ⟨⟨rfl, Numeric.hasText _⟩, ⟨rfl, rfl⟩, heq.trans hamount.symm⟩
  refine sameOutcome_iff.mpr fun c => ?_
  rw [h.byFlag, h.byVariable]
  exact ⟨parse_congr t.isNumeric_setting h.objects.2 h.others halike,
    parse_congr t.isNumeric_setting h.objects.1 (fun s hs => (h.others s hs).symm) halike.symm⟩

end Inputs

/-- **A flag and a variable.** A run that is given a text as a flag takes the number that the text
begins with, and a run that is given it as a variable takes the number that the text is as a whole.
Both fail or have the same configuration **if and only if** both readings of the text agree, or
neither run is accepted. -/
theorem sameOutcome_iff_readsAlike [Numeric α] (t : Tunable) (environment : List (String × String))
    (a : Arguments) (text : String) (h : a.value? t.switch = none) (htext : core text ≠ []) :
    (∀ c : Config α, t.byFlag environment a text = .ok c →
      c.number t.setting = (ofLeading text).value) ∧
      (∀ c : Config α, t.byVariable environment a text = .ok c →
        c.number t.setting = (ofWhole text).value) ∧
      (SameOutcome (t.byFlag environment a text)
        (t.byVariable environment a text : Except (Failure α) (Config α)) ↔
        ReadsAlike text ∨
          ∀ c : Config α, t.byFlag environment a text ≠ .ok c ∧
            t.byVariable environment a text ≠ .ok c) := by
  rcases t.inputs_or_refused (α := α) environment h htext with ⟨left, right, hinputs⟩ | hrefused
  · refine ⟨fun c => hinputs.number_of_byFlag, fun c => hinputs.number_of_byVariable,
      fun hsame => ?_, ?_⟩
    · rw [sameOutcome_iff] at hsame
      by_cases hflag : ∃ c : Config α, t.byFlag environment a text = .ok c
      · obtain ⟨c, hc⟩ := hflag
        refine .inl ((value_eq_iff (α := α) htext).mp ?_)
        exact (hinputs.number_of_byFlag hc).symm.trans
          (hinputs.number_of_byVariable ((hsame c).mp hc))
      · exact .inr fun c => ⟨fun hc => hflag ⟨c, hc⟩, fun hc => hflag ⟨c, (hsame c).mpr hc⟩⟩
    · rintro (halike | hrefused)
      · exact hinputs.sameOutcome ((value_eq_iff htext).mpr halike)
      · exact sameOutcome_of_refused hrefused
  · exact ⟨fun c hc => absurd hc (hrefused c).1, fun c hc => absurd hc (hrefused c).2,
      iff_of_true (sameOutcome_of_refused hrefused) (.inr hrefused)⟩

/-- The arguments of a command that is given no more than its pair. -/
def pairOnly : Arguments := { values := [("symbol", "BTC/USDT")] }

/-- Blanks around a number are no harm. -/
theorem sameOutcome_iff_readsAlike_blanks :
    pairOnly.value? profitFactor.switch = none ∧ core " 2.5 " ≠ [] ∧
      SameOutcome (profitFactor.byFlag [] pairOnly " 2.5 ")
        (profitFactor.byVariable [] pairOnly " 2.5 " : Except (Failure Float) (Config Float)) := by
  have hfree : pairOnly.value? profitFactor.switch = none := by decide
  have htext : core " 2.5 " ≠ [] := by decide
  have hliteral : IsLiteral " 2.5 " (.decimal false 25 (-1)) := literal_eq_whole_iff.mp rfl
  obtain ⟨-, -, hiff⟩ :=
    sameOutcome_iff_readsAlike (α := Float) profitFactor [] pairOnly " 2.5 " hfree htext
  exact ⟨hfree, htext, hiff.mpr (.inl (.inl ⟨_, hliteral⟩))⟩

/-- A number with a decimal comma is taken for the whole number before the comma if it is a flag,
and for no number if it is a variable. -/
theorem not_sameOutcome_comma :
    (∃ c : Config Float, profitFactor.byFlag [] pairOnly "2,5" = .ok c ∧
      c.profitFactor = (decimal false 2 0).value) ∧
      (∀ c : Config Float, profitFactor.byVariable [] pairOnly "2,5" ≠ .ok c) ∧
      ¬ SameOutcome (profitFactor.byFlag [] pairOnly "2,5")
        (profitFactor.byVariable [] pairOnly "2,5" : Except (Failure Float) (Config Float)) := by
  have hflag :
      (profitFactor.byFlag [] pairOnly "2,5" : Except (Failure Float) (Config Float)).isOk =
        true := by
    decide +kernel
  have hvariable :
      (profitFactor.byVariable [] pairOnly "2,5" : Except (Failure Float) (Config Float)).isOk =
        false := by
    decide +kernel
  have hrefused : ∀ c : Config Float, profitFactor.byVariable [] pairOnly "2,5" ≠ .ok c := by
    intro c hc
    rw [hc] at hvariable
    cases hvariable
  cases hc : (profitFactor.byFlag [] pairOnly "2,5" : Except (Failure Float) (Config Float)) with
  | error f =>
    rw [hc] at hflag
    cases hflag
  | ok c =>
    refine ⟨⟨c, rfl, ?_⟩, hrefused, fun hsame => hrefused c ((sameOutcome_iff.mp hsame c).mp rfl)⟩
    have hfree : pairOnly.value? profitFactor.switch = none := by decide
    have htext : core "2,5" ≠ [] := by decide
    rcases profitFactor.inputs_or_refused (α := Float) [] hfree htext with
      ⟨left, right, hinputs⟩ | hneither
    · exact hinputs.number_of_byFlag hc
    · exact absurd hc (hneither c).1

end Tunable

end MarketMaker.Command
