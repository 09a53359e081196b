import MarketMaker.Proofs.Analysis
import MarketMaker.Proofs.Binary64

/-!
# The grammar of configurations

What a configuration can be read from, setting by setting, and what is said about the rest.

* A setting **admits** a value when there is none, so that the default holds, or when the value is
  of the right kind: a text that is not empty, the name of a mode or of an interval, or something
  that can be read as a number and passes every check.
* A configuration is **described** by an input when each of its settings is the value given, or else
  the default.
* A configuration is **coherent** when its settings fit together.

An input is accepted if it is an object, each setting admits what is given for it, and the
configuration that it describes is coherent. The fields of an accepted configuration are such an
input themselves, and describe the same configuration again.

If a setting does not admit what is given for it, the **faults** of the input are listed, in the
order of the settings. There is one exception: a numeric setting is read by way of its text. An
object that claims to write itself, and does not, has none, and then nothing is listed at all.
-/

namespace MarketMaker.Config

open Scalar LawfulScalar

variable {α : Type} [Scalar α]

/-! ## The grammar -/

/-- What a check asks of a number. -/
def Check.Holds : Check → α → Prop
  | .whole, x => isWhole x = true
  | .atLeast bound, x => (bound : α) ≤ x
  | .positive, x => 0 < x

/-- What a setting admits. -/
inductive Admits [NumberText α] : Setting → Value α → Prop
  /-- Nothing is given. -/
  | absent (s : Setting) : Admits s .undefined
  /-- A symbol is a text that is not empty. -/
  | text {text : String} (nonempty : text ≠ "") : Admits .symbol (.string text)
  /-- A text in units that do not pair up is never empty. -/
  | unpaired (units : List Nat) : Admits .symbol (.unpaired units)
  /-- A mode is given by its name. -/
  | mode (m : Mode) : Admits .mode (.string m.name)
  /-- An interval is given by its name. -/
  | interval (i : Interval) : Admits .volatilityInterval (.string i.name)
  /-- A numeric setting is given as what reads as a number in its range. -/
  | number {s : Setting} {v : Value α} (numeric : s.isNumeric = true) (readable : v.hasText = true)
      (isNumber : IsNumber v.amount) (checks : ∀ check ∈ s.checks, check.Holds v.amount) :
      Admits s v

/-- What is given for a setting, or else the default. -/
def pick (input : Value α) (s : Setting) (default : Value α) : Value α :=
  if (input.get s.name).isUndefined then default else input.get s.name

/-- Each setting of a configuration is what an input gives for it, or else the default. -/
structure Describes [NumberText α] (input : Value α) (c : Config α) : Prop where
  /-- The symbol is the one given, as it stands. -/
  symbol : c.symbol = pick input .symbol "BTC/USDT"
  /-- The mode is the one of the name that is given. -/
  mode : ∃ m : Mode, c.mode = .known m ∧ pick input .mode Mode.fixed.name = .string m.name
  /-- The interval is the one of the name that is given. -/
  interval : ∃ i : Interval, c.volatilityInterval = .known i ∧
    pick input .volatilityInterval Interval.oneMinute.name = .string i.name
  /-- A numeric setting is the number that is given. -/
  number (s : Setting) : s.isNumeric = true →
    c.number s = (pick input s (.number s.defaultNumber)).amount

/-- The settings of a configuration fit together. -/
structure Coherent (c : Config α) : Prop where
  /-- The risk factor is finite and above zero. -/
  riskFactor : isFinite c.riskFactor = true ∧ 0 < c.riskFactor
  /-- The fill probability lies strictly between zero and one. -/
  fill : 0 < c.targetFillProbability ∧ c.targetFillProbability < 1
  /-- So does the probability of the stop loss. -/
  stopLoss : 0 < c.stopLossRiskProbability ∧ c.stopLossRiskProbability < 1
  /-- The bounds of the risk aversion are above zero, in order and finite. -/
  bounds : 0 < c.gammaMin ∧ c.gammaMin ≤ c.gammaMax ∧ isFinite c.gammaMax = true
  /-- The risk factor lies within them, unless it is all there is. -/
  within : c.mode = .known .fixed ∨ c.gammaMin ≤ c.riskFactor ∧ c.riskFactor ≤ c.gammaMax

/-! ## The faults -/

/-- What is wrong with a value that should be a text. -/
def textFaults : Value α → List Complaint
  | .string text => if text = "" then [.empty] else []
  | .unpaired _ => []
  | other => [.wrongKind "string" other.kind]

/-- What is wrong with a value that should be one of a few names. -/
def nameFaults (names : List String) : Value α → List Complaint
  | .string name => if name ∈ names then [] else [.unknownChoice (choices names) name]
  | .unpaired units => [.unknownChoice (choices names) (Text.spell units)]
  | other => [.wrongKind (choices names) other.kind]

/-- What is wrong with a value that is given for a setting, in the order of the checks. -/
def Setting.faults [NumberText α] (s : Setting) (v : Value α) : List Complaint :=
  if v.isUndefined then [] else
  match s with
  | .symbol => textFaults v
  | .mode => nameFaults (Mode.all.map Mode.name) v
  | .volatilityInterval => nameFaults (Interval.all.map Interval.name) v
  | s => complaints s v.amount

/-- What is wrong with an input, setting by setting. -/
def faults [NumberText α] (input : Value α) : List Issue :=
  Setting.all.flatMap fun s => (s.faults (input.get s.name)).map fun complaint =>
    ⟨s.name, complaint⟩

/-! ## Setting by setting -/

theorem ofName?_name_mode (m : Mode) : (Named.ofName? m.name : Option Mode) = some m := by
  cases m <;> rfl

theorem ofName?_name_interval (i : Interval) :
    (Named.ofName? i.name : Option Interval) = some i := by
  cases i <;> rfl

theorem Setting.mem_all (s : Setting) : s ∈ Setting.all := by
  cases s <;> decide

theorem Setting.name_inj {s t : Setting} (h : s.name = t.name) : s = t := by
  have hall : ∀ s ∈ Setting.all, ∀ t ∈ Setting.all, s.name = t.name → s = t := by decide
  exact hall s s.mem_all t t.mem_all h

section Faults

variable [LawfulScalar α]

theorem Check.complaint?_eq_none_iff {check : Check} {x : α} (hx : IsNumber x) :
    check.complaint? x = none ↔ check.Holds x := by
  cases check with
  | whole => exact whole_complaint?
  | atLeast bound =>
    rw [atLeast_complaint?]
    exact ⟨le_of_not_lt hx (isNumber_natCast bound), fun hle hlt => not_le_of_lt hlt hle⟩
  | positive =>
    rw [positive_complaint?]
    refine ⟨fun hnot => ?_, not_le_of_lt⟩
    exact lt_iff.mpr ⟨(le_total isNumber_zero hx).resolve_right hnot, hnot⟩

/-- What passes the checks of a setting is a number, and all of them hold of it. -/
theorem complaints_eq_nil_iff_holds {s : Setting} {x : α} :
    complaints s x = [] ↔ IsNumber x ∧ ∀ check ∈ s.checks, check.Holds x := by
  rw [complaints_eq_nil_iff, isNaN_eq_false_iff]
  constructor
  · exact fun ⟨hx, hpasses⟩ =>
      ⟨hx, fun check hcheck => (check.complaint?_eq_none_iff hx).mp (hpasses check hcheck)⟩
  · exact fun ⟨hx, hholds⟩ =>
      ⟨hx, fun check hcheck => (check.complaint?_eq_none_iff hx).mpr (hholds check hcheck)⟩

omit [LawfulScalar α] in
theorem textFaults_eq_nil_iff {v : Value α} :
    textFaults v = [] ↔ (∃ text, text ≠ "" ∧ v = .string text) ∨ ∃ units, v = .unpaired units := by
  cases v <;> simp [textFaults]

omit [LawfulScalar α] in
theorem nameFaults_eq_nil_iff {names : List String} {v : Value α} :
    nameFaults names v = [] ↔ ∃ name ∈ names, v = .string name := by
  cases v <;> simp [nameFaults]

variable [NumberText α]

omit [LawfulScalar α] in
theorem faults_of_isNumeric {s : Setting} (hs : s.isNumeric = true) (v : Value α) :
    s.faults v = if v.isUndefined then [] else complaints s v.amount := by
  cases s with
  | symbol | mode | volatilityInterval => cases hs
  | _ => rfl

/-- A setting admits what it finds no fault with, as long as that can be read. -/
theorem admits_iff {s : Setting} {v : Value α} :
    Admits s v ↔ (s.isNumeric = true → v.hasText = true) ∧ s.faults v = [] := by
  constructor
  · intro h
    cases h with
    | absent s => exact ⟨fun _ => rfl, rfl⟩
    | text nonempty => exact ⟨nofun, if_neg nonempty⟩
    | unpaired units => exact ⟨nofun, rfl⟩
    | mode m => exact ⟨nofun, by cases m <;> rfl⟩
    | interval i => exact ⟨nofun, by cases i <;> rfl⟩
    | number numeric readable isNumber checks =>
      refine ⟨fun _ => readable, ?_⟩
      rw [faults_of_isNumeric numeric, complaints_eq_nil_iff_holds.mpr ⟨isNumber, checks⟩, ite_self]
  · rintro ⟨hreadable, hfaults⟩
    by_cases hgiven : v.isUndefined = true
    · cases v with
      | undefined => exact .absent s
      | _ => cases hgiven
    · by_cases hs : s.isNumeric = true
      · rw [faults_of_isNumeric hs, if_neg hgiven, complaints_eq_nil_iff_holds] at hfaults
        exact .number hs (hreadable hs) hfaults.1 hfaults.2
      · have hgiven {l : List Complaint} : (if v.isUndefined then [] else l) = l := if_neg hgiven
        cases s with
        | symbol =>
          rcases textFaults_eq_nil_iff.mp (hgiven.symm.trans hfaults) with ⟨text, hnonempty, rfl⟩ |
            ⟨units, rfl⟩
          · exact .text hnonempty
          · exact .unpaired units
        | mode =>
          obtain ⟨name, hname, rfl⟩ := nameFaults_eq_nil_iff.mp (hgiven.symm.trans hfaults)
          obtain ⟨m, -, rfl⟩ := List.mem_map.mp hname
          exact .mode m
        | volatilityInterval =>
          obtain ⟨name, hname, rfl⟩ := nameFaults_eq_nil_iff.mp (hgiven.symm.trans hfaults)
          obtain ⟨i, -, rfl⟩ := List.mem_map.mp hname
          exact .interval i
        | _ => exact absurd rfl hs

end Faults

/-! ## Reading -/

section Reading

variable [NumberText α]

omit [NumberText α] in
theorem readText_issues (s : Setting) (default : String) (v : Value α) :
    (readText s default v).issues = (if v.isUndefined then [] else textFaults v).map fun c =>
      ⟨s.name, c⟩ := by
  cases v with
  | string text => by_cases h : text = "" <;> simp [readText, textFaults, h, Value.isUndefined,
    Reading.complain, pure]
  | _ => rfl

omit [NumberText α] in
/-- A name is looked up among all names, and found if it is one of them. -/
theorem readChoice_issues {β : Type} [Named β] (s : Setting) (default : β) (v : Value α) :
    (readChoice s default v).issues =
      (if v.isUndefined then [] else nameFaults ((Named.all : List β).map Named.name) v).map
        fun c => ⟨s.name, c⟩ := by
  cases v with
  | string name =>
    have hiff : name ∈ (Named.all : List β).map Named.name ↔
        ∃ b, (Named.ofName? name : Option β) = some b := by
      simp [Named.ofName?, ← Option.isSome_iff_exists, List.find?_isSome]
    cases hname : (Named.ofName? name : Option β) with
    | some b => simp [readChoice, hname, nameFaults, hiff, Value.isUndefined, pure]
    | none => simp [readChoice, hname, nameFaults, hiff, Value.isUndefined, Reading.complain]
  | _ => rfl

theorem readNumber_issues (s : Setting) (v : Value α) :
    (readNumber s v).issues = (if v.isUndefined then [] else complaints s v.amount).map fun c =>
      ⟨s.name, c⟩ := by
  cases v <;> rfl

/-- What is complained of while an input is read are its faults. -/
theorem issues_read (input : Value α) : (Config.read input).issues = faults input := by
  simp only [Config.read, bind, pure, readText_issues, readChoice_issues, readNumber_issues]
  rfl

omit [NumberText α] in
theorem readText_value {s : Setting} {default : String} {v : Value α} :
    (readText s default v).value = if v.isUndefined then .string default else v := by
  cases v with
  | string text =>
    by_cases h : text = "" <;> simp [readText, h, Value.isUndefined, Reading.complain, pure]
  | _ => rfl

theorem readNumber_value {s : Setting} {v : Value α} :
    (readNumber s v).value = (if v.isUndefined then .number s.defaultNumber else v).amount := by
  cases v <;> rfl

omit [NumberText α] in
/-- A choice without faults is of something that goes by the name given, or by the name of the
default. -/
theorem readChoice_of_faults {β : Type} [Named β]
    (hnames : ∀ b : β, Named.ofName? (Named.name b) = some b) {s : Setting}
    {default : β} {v : Value α}
    (h : (if v.isUndefined then [] else nameFaults ((Named.all : List β).map Named.name) v) = []) :
    ∃ b : β, (readChoice s default v).value = .known b ∧
      (if v.isUndefined then .string (Named.name default) else v) = .string (Named.name b) := by
  by_cases hgiven : v.isUndefined = true
  · cases v with
    | undefined => exact ⟨default, rfl, rfl⟩
    | _ => cases hgiven
  · obtain ⟨name, hname, rfl⟩ := nameFaults_eq_nil_iff.mp ((if_neg hgiven).symm.trans h)
    obtain ⟨b, -, rfl⟩ := List.mem_map.mp hname
    exact ⟨b, by simp [readChoice, hnames, pure], rfl⟩

theorem faults_eq_nil_iff {input : Value α} :
    faults input = [] ↔ ∀ s : Setting, s.faults (input.get s.name) = [] := by
  rw [faults, List.flatMap_eq_nil_iff]
  constructor
  · exact fun h s => List.map_eq_nil_iff.mp (h s s.mem_all)
  · exact fun h s _ => List.map_eq_nil_iff.mpr (h s)

/-- An input without faults describes what is read from it. -/
theorem describes_read {input : Value α} (h : faults input = []) :
    Describes input (Config.read input).value where
  symbol := readText_value
  mode := readChoice_of_faults ofName?_name_mode (faults_eq_nil_iff.mp h .mode)
  interval :=
    readChoice_of_faults ofName?_name_interval (faults_eq_nil_iff.mp h .volatilityInterval)
  number s hs := by
    refine Eq.trans ?_ (readNumber_value (s := s))
    cases s with
    | symbol | mode | volatilityInterval => cases hs
    | _ => rfl

/-- An input describes one configuration at most. -/
theorem Describes.unique {input : Value α} {c c' : Config α} (h : Describes input c)
    (h' : Describes input c') : c = c' := by
  obtain ⟨m, hmode, hm⟩ := h.mode
  obtain ⟨m', hmode', hm'⟩ := h'.mode
  obtain ⟨i, hinterval, hi⟩ := h.interval
  obtain ⟨i', hinterval', hi'⟩ := h'.interval
  have hmodes : m = m' := by
    have hname : m.name = m'.name := Value.string.inj (hm.symm.trans hm')
    rw [← Option.some_inj, ← ofName?_name_mode, hname, ofName?_name_mode]
  have hintervals : i = i' := by
    have hname : i.name = i'.name := Value.string.inj (hi.symm.trans hi')
    rw [← Option.some_inj, ← ofName?_name_interval, hname, ofName?_name_interval]
  have hnumber (s : Setting) (hs : s.isNumeric = true) : c.number s = c'.number s :=
    (h.number s hs).trans (h'.number s hs).symm
  have hsymbol := h.symbol.trans h'.symbol.symm
  have hmode := hmode.trans (hmodes ▸ hmode'.symm)
  have hinterval := hinterval.trans (hintervals ▸ hinterval'.symm)
  cases c
  cases c'
  simp only [Config.mk.injEq]
  exact ⟨hsymbol, hmode, hnumber .riskFactor rfl, hinterval, hnumber .lookback rfl,
    hnumber .updateIntervalSeconds rfl, hnumber .retryBackoffSeconds rfl,
    hnumber .fetchTimeoutMs rfl, hnumber .learningRate rfl, hnumber .rewardWindow rfl,
    hnumber .gammaMin rfl, hnumber .gammaMax rfl, hnumber .targetFillProbability rfl,
    hnumber .stopLossRiskProbability rfl, hnumber .profitFactor rfl,
    hnumber .maxHoldingTimeDays rfl, hnumber .orderRefreshTimeSeconds rfl,
    hnumber .timeHorizonSeconds rfl, hnumber .minSpread rfl, hnumber .orderAmountShapeFactor rfl,
    hnumber .significantChangeThreshold rfl⟩

/-- What is read from an object without faults is the configuration that it describes. -/
theorem parse_of_readable {fields : List (String × Value α)}
    (h : isReadable (.object fields) = true) :
    parse (.object fields) = if faults (.object fields) = [] then
        (validate (Config.read (.object fields)).value).mapError (·.failure)
      else .error (EngineError.configuration (.issues (faults (.object fields)))).failure := by
  simp [parse, h, issues_read]

theorem parse_of_not_readable {fields : List (String × Value α)}
    (h : isReadable (.object fields) = false) : parse (.object fields) = .error .textless := by
  simp [parse, h]

omit [Scalar α] in
theorem isReadable_iff {input : Value α} :
    isReadable input = true ↔ ∀ s : Setting, s.isNumeric = true →
    (input.get s.name).hasText = true := by
  rw [isReadable, List.all_eq_true]
  constructor
  · intro h s hs
    simpa [hs] using h s s.mem_all
  · intro h s _
    cases hs : s.isNumeric with
    | true => exact h s hs
    | false => rfl

/-- Every setting admits what an object gives for it if the object can be read and has no faults. -/
theorem admits_all_iff [LawfulScalar α] {input : Value α} :
    (∀ s : Setting, Admits s (input.get s.name)) ↔ isReadable input = true ∧ faults input = [] := by
  rw [isReadable_iff, faults_eq_nil_iff, ← forall_and]
  exact forall_congr' fun s => admits_iff

omit [NumberText α] in
theorem validate_eq_ok_iff {c c' : Config α} : validate c = .ok c' ↔ c = c' ∧ c.check = .ok () := by
  rw [validate, Guards.bind_eq_ok]
  constructor
  · rintro ⟨u, hcheck, hc⟩
    exact ⟨Except.ok.inj hc, hcheck⟩
  · rintro ⟨rfl, hcheck⟩
    exact ⟨(), hcheck, rfl⟩

end Reading

/-! ## What is accepted -/

section Accepted

variable [LawfulScalar α]

theorem check_eq_ok_iff_coherent {c : Config α} : c.check = .ok () ↔ c.Coherent := by
  rw [check_eq_ok_iff]
  have hmode : c.mode.is .fixed = true ↔ c.mode = .known .fixed := by
    cases c.mode <;> simp [Choice.is]
  simp only [isPositive, Sizing.isProbability, hasValidBounds, Gamma.validBounds,
    riskFactorWithin, hmode, Bool.and_eq_true, decide_eq_true_iff, Bool.not_eq_true',
    decide_eq_false_iff_not]
  constructor
  · rintro ⟨hrisk, hfill, hstop, ⟨⟨hpos, hle⟩, hfinite⟩, hwithin⟩
    obtain ⟨hmin, hmax⟩ := isNumber_of_le hle
    have hnumber := isNumber_of_isFinite hrisk.1
    exact ⟨hrisk, hfill, hstop, ⟨hpos, hle, hfinite⟩,
      hwithin.imp_right fun h => ⟨le_of_not_lt hnumber hmin h.1, le_of_not_lt hmax hnumber h.2⟩⟩
  · rintro ⟨hrisk, hfill, hstop, ⟨hpos, hle, hfinite⟩, hwithin⟩
    exact ⟨hrisk, hfill, hstop, ⟨⟨hpos, hle⟩, hfinite⟩,
      hwithin.imp_right fun h => ⟨fun hlt => not_le_of_lt hlt h.1, fun hlt => not_le_of_lt hlt h.2⟩⟩

variable [NumberText α]

/-- **What is accepted.** -/
theorem parse_eq_ok_iff {input : Value α} {c : Config α} : parse input = .ok c ↔
    (∃ fields, input = .object fields) ∧ (∀ s : Setting, Admits s (input.get s.name)) ∧
    Describes input c ∧
      c.Coherent := by
  have hother (e : EngineError α) :
      (Except.error e.failure : Except (Failure α) (Config α)) ≠ .ok c := nofun
  cases input with
  | object fields =>
    rw [admits_all_iff, ← check_eq_ok_iff_coherent]
    cases hreadable : isReadable (.object fields) with
    | false => simp [parse_of_not_readable hreadable]
    | true =>
      rw [parse_of_readable hreadable]
      by_cases hfaults : faults (.object fields) = []
      · rw [if_pos hfaults, Guards.mapError_eq_ok, validate_eq_ok_iff]
        constructor
        · rintro ⟨rfl, hcheck⟩
          exact ⟨⟨fields, rfl⟩, ⟨rfl, hfaults⟩, describes_read hfaults, hcheck⟩
        · rintro ⟨-, -, hdescribes, hcheck⟩
          obtain rfl := hdescribes.unique (describes_read hfaults)
          exact ⟨rfl, hcheck⟩
      · simp [hfaults]
  | _ => simp [parse]

omit [LawfulScalar α] [NumberText α] in
/-- What the fields of a configuration give for a numeric setting. -/
theorem get_fields {c : Config α} {s : Setting} (hs : s.isNumeric = true) :
    (Value.object c.fields).get s.name = .number (c.number s) := by
  cases s with
  | symbol | mode | volatilityInterval => cases hs
  | _ => rfl

/-- The fields of an accepted configuration: none is missing, and every setting admits its own. -/
theorem admits_fields [Standard α] [Numeric α] {input : Value α} {c : Config α}
    (h : parse input = .ok c) (s : Setting) :
    ((Value.object c.fields).get s.name).isUndefined = false ∧
      Admits s ((Value.object c.fields).get s.name) := by
  obtain ⟨-, hadmits, hdescribes, -⟩ := parse_eq_ok_iff.mp h
  by_cases hs : s.isNumeric = true
  · obtain ⟨hnumber, hchecks⟩ := complaints_eq_nil_iff_holds.mp ((accepted_of_parse h).passes s hs)
    rw [get_fields hs]
    exact ⟨rfl, .number hs (Numeric.hasText _) hnumber hchecks⟩
  · cases s with
    | symbol =>
      change c.symbol.isUndefined = false ∧ Admits .symbol c.symbol
      rw [hdescribes.symbol, pick]
      cases hgiven : (input.get Setting.symbol.name).isUndefined with
      | true => exact ⟨rfl, .text (by decide)⟩
      | false => exact ⟨hgiven, hadmits .symbol⟩
    | mode =>
      obtain ⟨m, hmode, -⟩ := hdescribes.mode
      change c.mode.value.isUndefined = false ∧ Admits .mode c.mode.value
      rw [hmode]
      exact ⟨rfl, .mode m⟩
    | volatilityInterval =>
      obtain ⟨i, hinterval, -⟩ := hdescribes.interval
      change c.volatilityInterval.value.isUndefined = false ∧
        Admits .volatilityInterval c.volatilityInterval.value
      rw [hinterval]
      exact ⟨rfl, .interval i⟩
    | _ => exact absurd rfl hs

/-- **Accepted once, accepted again.** The fields of an accepted configuration describe it. -/
theorem parse_fields [Standard α] [Numeric α] {input : Value α} {c : Config α}
    (h : parse input = .ok c) : parse (.object c.fields) = .ok c := by
  obtain ⟨-, -, hdescribes, hcoherent⟩ := parse_eq_ok_iff.mp h
  have hpick (s : Setting) (default : Value α) :
      pick (.object c.fields) s default = (Value.object c.fields).get s.name := by
    rw [pick, (admits_fields h s).1]
    rfl
  obtain ⟨m, hmode, -⟩ := hdescribes.mode
  obtain ⟨i, hinterval, -⟩ := hdescribes.interval
  refine parse_eq_ok_iff.mpr ⟨⟨_, rfl⟩, fun s => (admits_fields h s).2, ?_, hcoherent⟩
  refine ⟨(hpick .symbol _).symm, ⟨m, hmode, ?_⟩, ⟨i, hinterval, ?_⟩, fun s hs => ?_⟩
  · rw [hpick]
    exact congrArg Choice.value hmode
  · rw [hpick]
    exact congrArg Choice.value hinterval
  · rw [hpick, get_fields hs]
    rfl

/-! ## What is refused -/

/-- The fault of an input that is no object. -/
def shapeFault (input : Value α) : Issue :=
  ⟨"", if input.isUndefined then .required else .wrongKind "object" input.kind⟩

/-- A setting is listed if it does not admit what is given for it. -/
theorem listed_iff {input : Value α} (h : isReadable input = true) (s : Setting) :
    (∃ complaint, ⟨s.name, complaint⟩ ∈ faults input) ↔ ¬ Admits s (input.get s.name) := by
  have hlisted : (∃ complaint, ⟨s.name, complaint⟩ ∈ faults input) ↔
      s.faults (input.get s.name) ≠ [] := by
    rw [ne_eq, List.eq_nil_iff_forall_not_mem, not_forall_not]
    refine exists_congr fun complaint => ?_
    simp only [faults, List.mem_flatMap, List.mem_map, Issue.mk.injEq]
    constructor
    · rintro ⟨t, -, _, hmem, hname, rfl⟩
      obtain rfl := Setting.name_inj hname
      exact hmem
    · exact fun hmem => ⟨s, s.mem_all, complaint, hmem, rfl, rfl⟩
  rw [hlisted, admits_iff, and_iff_right (isReadable_iff.mp h s)]

/-- Something is wrong with an object: it is either listed, or cannot be read. -/
theorem parse_eq_issues_iff {fields : List (String × Value α)} {s : Setting}
    (hs : ¬ Admits s ((Value.object fields).get s.name)) :
    parse (.object fields) =
      .error (EngineError.configuration (.issues (faults (.object fields)))).failure ↔
      isReadable (.object fields) = true := by
  cases hreadable : isReadable (.object fields) with
  | true =>
    have hfaults : faults (.object fields) ≠ [] :=
      fun hnone => hs (admits_all_iff.mpr ⟨hreadable, hnone⟩ s)
    rw [parse_of_readable hreadable, if_neg hfaults]
    exact iff_of_true rfl rfl
  | false =>
    rw [parse_of_not_readable hreadable]
    exact iff_of_false nofun nofun

/-- **What a configuration is read from.** An input is accepted exactly if it is an object, each
setting admits what is given for it, and the configuration that it describes is coherent. An
accepted configuration has every setting once, each of them set and admitted, and is accepted again,
as it is.

If some setting of an object does not admit what is given for it, exactly these settings are listed,
each with all that is wrong with it, **if and only if** everything that is given for a numeric
setting has a text. What is no object has one fault. -/
theorem parse_grammar_iff [Standard α] [Numeric α] (input : Value α) :
    (∀ c : Config α, parse input = .ok c ↔ (∃ fields, input = .object fields) ∧
        (∀ s : Setting, Admits s (input.get s.name)) ∧ Describes input c ∧ c.Coherent) ∧
      (∀ c : Config α, parse input = .ok c → c.fields.map Prod.fst = Setting.all.map Setting.name ∧
        (∀ s : Setting, ((Value.object c.fields).get s.name).isUndefined = false ∧
          Admits s ((Value.object c.fields).get s.name)) ∧
        parse (.object c.fields) = .ok c) ∧
      (∀ fields, input = .object fields → (∃ s : Setting, ¬ Admits s (input.get s.name)) →
        ((parse input = .error (EngineError.configuration (.issues (faults input))).failure ∧
            ∀ s : Setting, (∃ complaint, ⟨s.name, complaint⟩ ∈ faults input) ↔
              ¬ Admits s (input.get s.name)) ↔
          ∀ s : Setting, s.isNumeric = true → (input.get s.name).hasText = true)) ∧
      ((∀ fields, input ≠ .object fields) →
        parse input = .error (EngineError.configuration (.issues [shapeFault input])).failure) := by
  refine ⟨fun c => parse_eq_ok_iff, fun c h => ⟨rfl, admits_fields h, parse_fields h⟩, ?_, ?_⟩
  · rintro fields rfl ⟨s, hs⟩
    rw [← isReadable_iff, parse_eq_issues_iff hs]
    exact ⟨And.left, fun hreadable => ⟨hreadable, listed_iff hreadable⟩⟩
  · intro hshape
    cases input with
    | object fields => exact absurd rfl (hshape fields)
    | _ => rfl

/-- The configuration of an engine that is told no more than its mode is accepted, and so is what it
consists of. -/
theorem parse_grammar_iff_defaults :
    parse (.object [("mode", .string "fixed")]) = .ok (preset .fixed : Config Extended) ∧
      parse (.object (preset .fixed : Config Extended).fields) = .ok (preset .fixed) := by
  have hparse :
      parse (.object [("mode", .string "fixed")]) = .ok (preset .fixed : Config Extended) :=
    parse_mode (m := .fixed) (Extended.isExactAnalysis.check_preset .fixed)
  obtain ⟨-, haccepted, -⟩ :=
    parse_grammar_iff (α := Extended) (.object [("mode", .string "fixed")])
  exact ⟨hparse, (haccepted _ hparse).2.2⟩

/-- A risk factor that claims to write itself, and does not, is not admitted; yet it is not
listed. -/
theorem parse_not_listed_textless :
    let input : Value Float := .object [("riskFactor", .object [("toString", .number 1)])]
    ¬ Admits .riskFactor (input.get Setting.riskFactor.name) ∧
      faults input = [⟨"riskFactor", .wrongKind "number" "nan"⟩] ∧
      parse input ≠ .error (EngineError.configuration (.issues (faults input))).failure := by
  intro input
  have hfaults : faults input = [⟨"riskFactor", .wrongKind "number" "nan"⟩] := by decide +kernel
  have hunreadable : (input.get Setting.riskFactor.name).hasText = false := by decide
  refine ⟨fun hadmits => ?_, hfaults, nofun⟩
  exact Bool.false_ne_true (hunreadable.symm.trans ((admits_iff.mp hadmits).1 rfl))

end Accepted

end MarketMaker.Config
