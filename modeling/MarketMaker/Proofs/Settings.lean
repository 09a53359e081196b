import MarketMaker.Config
import MarketMaker.Proofs.Guards
import MarketMaker.Proofs.Laws

/-!
# Settings that were accepted

What a configuration has established once it was read and nothing was complained of (`Accepted`):
the mode and the interval are known, every number passes the checks of its setting, and the settings
hold together. A number that was not given is a default, and every default passes its own checks
where scalars are `Standard`.

The checks let infinities through, except where a number has to be whole.
-/

namespace MarketMaker.Config

open Scalar LawfulScalar

variable {α : Type} [Scalar α]

/-! ## Settings that hold together -/

/-- The settings of a configuration hold together when its risk factor is finite and above zero,
both probabilities are such, the bounds are in order, and the risk factor lies within them unless it
is constant. -/
theorem check_eq_ok_iff {c : Config α} : c.check = .ok () ↔
    isPositive c.riskFactor = true ∧ Sizing.isProbability c.targetFillProbability = true ∧
      Sizing.isProbability c.stopLossRiskProbability = true ∧ c.hasValidBounds = true ∧
      (c.mode.is .fixed = true ∨ c.riskFactorWithin = true) := by
  have hprobability (name : String) (p : α) :
      (∃ u, Sizing.checkProbability name p = .ok u) ↔ Sizing.isProbability p = true := by
    unfold Sizing.checkProbability
    cases Sizing.isProbability p <;> simp
  have hlast (e : EngineError α) :
      (if (!c.mode.is .fixed && !c.riskFactorWithin) = true then throw e
        else pure () : Except (EngineError α) Unit) = .ok () ↔
      c.mode.is .fixed = true ∨ c.riskFactorWithin = true := by
    cases c.mode.is .fixed <;> cases c.riskFactorWithin <;>
      simp [throw, throwThe, MonadExceptOf.throw, pure, Except.pure]
  dsimp only [check]
  simp only [Guards.guard_eq_ok, Guards.bind_eq_ok, exists_and_right, hprobability,
    hlast, Bool.not_eq_true', Bool.not_eq_false]

/-! ## Settings one by one -/

/-- The number that a configuration holds for a setting; zero for a setting that is none. -/
def number (c : Config α) : Setting → α
  | .riskFactor => c.riskFactor
  | .lookback => c.lookback
  | .updateIntervalSeconds => c.updateIntervalSeconds
  | .retryBackoffSeconds => c.retryBackoffSeconds
  | .fetchTimeoutMs => c.fetchTimeoutMs
  | .learningRate => c.learningRate
  | .rewardWindow => c.rewardWindow
  | .gammaMin => c.gammaMin
  | .gammaMax => c.gammaMax
  | .targetFillProbability => c.targetFillProbability
  | .stopLossRiskProbability => c.stopLossRiskProbability
  | .profitFactor => c.profitFactor
  | .maxHoldingTimeDays => c.maxHoldingTimeDays
  | .orderRefreshTimeSeconds => c.orderRefreshTimeSeconds
  | .timeHorizonSeconds => c.timeHorizonSeconds
  | .minSpread => c.minSpread
  | .orderAmountShapeFactor => c.orderAmountShapeFactor
  | .significantChangeThreshold => c.significantChangeThreshold
  | .symbol | .mode | .volatilityInterval => 0

/-- All numbers of a configuration are finite. -/
def Finite (c : Config α) : Prop := ∀ s : Setting, s.isNumeric = true → isFinite (c.number s) = true

/-- What passes the checks of a setting is a number, and passes each of them. -/
theorem complaints_eq_nil_iff {s : Setting} {x : α} :
    complaints s x = [] ↔ isNaN x = false ∧ ∀ check ∈ s.checks, check.complaint? x = none := by
  unfold complaints
  cases isNaN x with
  | true => simp
  | false => simp [List.filterMap_eq_nil_iff]

theorem whole_complaint? {x : α} : Check.whole.complaint? x = none ↔ isWhole x = true := by
  simp [Check.complaint?]

theorem atLeast_complaint? {bound : Nat} {x : α} :
    (Check.atLeast bound).complaint? x = none ↔ ¬ x < (bound : α) := by
  simp [Check.complaint?]

theorem positive_complaint? {x : α} : Check.positive.complaint? x = none ↔ ¬ x ≤ 0 := by
  simp [Check.complaint?]

/-- Scalars among which the engine can be configured: the defaults pass their own checks, and whole
numbers are whole. -/
class Standard (α : Type) [Scalar α] : Prop where
  /-- Every default passes the checks of its setting. -/
  default_passes (s : Setting) : complaints s (s.defaultNumber : α) = []
  /-- A whole number above zero is at least one. -/
  one_le_of_isWhole {x : α} : isWhole x = true → 0 < x → 1 ≤ x
  /-- The thresholds of the rule are in order. -/
  volatility_le : (Gamma.Rules.default : Gamma.Rules α).lowVolatility ≤
    Gamma.Rules.default.highVolatility

/-- A configuration that nothing was complained of. -/
structure Accepted (c : Config α) : Prop where
  /-- The mode is a known one. -/
  mode : ∃ m, c.mode = .known m
  /-- The interval is a known one. -/
  interval : ∃ i, c.volatilityInterval = .known i
  /-- No numeric setting is complained of. -/
  passes (s : Setting) : s.isNumeric = true → complaints s (c.number s) = []
  /-- The settings fit together. -/
  check : c.check = .ok ()

section Reading

variable [NumberText α]

omit [NumberText α] in
/-- A choice without complaints is of a known thing. -/
theorem readChoice_known {β : Type} [Named β] {s : Setting} {default : β} {v : Value α}
    (h : (readChoice s default v).issues = []) :
    ∃ b, (readChoice s default v).value = .known b := by
  unfold readChoice at h ⊢
  cases v with
  | undefined => exact ⟨default, rfl⟩
  | string name =>
    dsimp only at h ⊢
    cases hname : (Named.ofName? name : Option β) with
    | some b => exact ⟨b, rfl⟩
    | none =>
      rw [hname] at h
      cases h
  | _ => cases h

/-- A number without complaints passes the checks, or is the default. -/
theorem readNumber_passes [Standard α] {s : Setting} {v : Value α}
    (h : (readNumber s v).issues = []) : complaints s (readNumber s v).value = [] := by
  unfold readNumber at h ⊢
  cases v with
  | undefined => exact Standard.default_passes s
  | _ => exact List.map_eq_nil_iff.mp h

/-- What is read without complaints has read every number without any. -/
theorem number_read {input : Value α} (h : (read input).issues = []) {s : Setting}
    (hs : s.isNumeric = true) :
    (read input).value.number s = (readNumber s (input.get s.name)).value ∧
      (readNumber s (input.get s.name)).issues = [] := by
  simp only [Config.read, bind, pure, List.append_eq_nil_iff] at h
  cases s with
  | symbol | mode | volatilityInterval => cases hs
  | _ => exact ⟨rfl, by simp only [h]⟩

/-- **What the configuration of an accepted input has established.** -/
theorem accepted_of_parse [Standard α] {input : Value α} {c : Config α} (h : parse input = .ok c) :
    c.Accepted := by
  unfold parse at h
  split at h
  · split at h
    · cases h
    · dsimp only at h
      split at h
      · next hissues =>
        have hnone : (Config.read (.object _)).issues = [] := List.isEmpty_iff.mp hissues
        obtain ⟨u, hcheck, hvalid⟩ := Guards.bind_eq_ok.mp (Guards.mapError_eq_ok.mp h)
        obtain rfl := Except.ok.inj hvalid
        have hchoices := hnone
        simp only [Config.read, bind, pure, List.append_eq_nil_iff] at hchoices
        refine ⟨readChoice_known hchoices.2.1, readChoice_known hchoices.2.2.2.1,
          fun s hs => ?_, hcheck⟩
        obtain ⟨hnumber, hquiet⟩ := number_read hnone hs
        rw [hnumber]
        exact readNumber_passes hquiet
      · unfold EngineError.failure at h
        split at h <;> cases h
  · unfold EngineError.failure at h
    split at h <;> cases h
  · unfold EngineError.failure at h
    split at h <;> cases h

end Reading

/-! ## Next to nothing given -/

/-- The configuration of an engine that is told no more than its mode. -/
def preset (m : Mode) : Config α where
  symbol := .string "BTC/USDT"
  mode := .known m
  riskFactor := Setting.riskFactor.defaultNumber
  volatilityInterval := .known .oneMinute
  lookback := Setting.lookback.defaultNumber
  updateIntervalSeconds := Setting.updateIntervalSeconds.defaultNumber
  retryBackoffSeconds := Setting.retryBackoffSeconds.defaultNumber
  fetchTimeoutMs := Setting.fetchTimeoutMs.defaultNumber
  learningRate := Setting.learningRate.defaultNumber
  rewardWindow := Setting.rewardWindow.defaultNumber
  gammaMin := Setting.gammaMin.defaultNumber
  gammaMax := Setting.gammaMax.defaultNumber
  targetFillProbability := Setting.targetFillProbability.defaultNumber
  stopLossRiskProbability := Setting.stopLossRiskProbability.defaultNumber
  profitFactor := Setting.profitFactor.defaultNumber
  maxHoldingTimeDays := Setting.maxHoldingTimeDays.defaultNumber
  orderRefreshTimeSeconds := Setting.orderRefreshTimeSeconds.defaultNumber
  timeHorizonSeconds := Setting.timeHorizonSeconds.defaultNumber
  minSpread := Setting.minSpread.defaultNumber
  orderAmountShapeFactor := Setting.orderAmountShapeFactor.defaultNumber
  significantChangeThreshold := Setting.significantChangeThreshold.defaultNumber

theorem number_preset (m : Mode) {s : Setting} (hs : s.isNumeric = true) :
    (preset m : Config α).number s = s.defaultNumber := by
  cases s with
  | symbol | mode | volatilityInterval => cases hs
  | _ => rfl

/-- What is read without complaints and holds together is accepted. -/
theorem parse_of_read [NumberText α] {fields : List (String × Value α)} {c : Config α}
    (hreadable : isReadable (.object fields) = true) (hread : read (.object fields) = ⟨c, []⟩)
    (hcheck : c.check = .ok ()) : parse (.object fields) = .ok c := by
  simp [parse, hreadable, hread, validate, hcheck, bind, Except.bind, pure,
    Except.pure, Except.mapError]

/-- What is read where nothing but a mode is given. -/
theorem parse_mode [NumberText α] {m : Mode} (h : (preset m : Config α).check = .ok ()) :
    parse (.object [("mode", .string m.name)]) = .ok (preset m : Config α) :=
  parse_of_read (by cases m <;> rfl) (by cases m <;> rfl) h

/-- What is read where one number is given that passes its checks. -/
theorem parse_number [NumberText α] {fields : List (String × Value α)} {c : Config α}
    {s : Setting} {x : α} (hx : complaints s x = [])
    (hreadable : isReadable (.object fields) = true)
    (hread : read (.object fields) = ⟨c,
      (complaints s x).map (fun complaint => ⟨s.name, complaint⟩) ++ []⟩)
    (hcheck : c.check = .ok ()) : parse (.object fields) = .ok c := by
  rw [hx] at hread
  exact parse_of_read hreadable hread hcheck

/-! ## What accepted numbers are -/

namespace Accepted

variable [LawfulScalar α] {c : Config α} (h : c.Accepted)

include h

/-- An accepted number is a number, finite or not. -/
theorem isNumber {s : Setting} (hs : s.isNumeric = true) : IsNumber (c.number s) :=
  isNaN_eq_false_iff.mp (complaints_eq_nil_iff.mp (h.passes s hs)).1

theorem pos {s : Setting} (hs : s.isNumeric = true) (hcheck : .positive ∈ s.checks) :
    0 < c.number s := by
  have hnot := positive_complaint?.mp ((complaints_eq_nil_iff.mp (h.passes s hs)).2 _ hcheck)
  rcases le_total isNumber_zero (h.isNumber hs) with hle | hle
  · exact lt_iff.mpr ⟨hle, hnot⟩
  · exact absurd hle hnot

theorem atLeast {s : Setting} {bound : Nat} (hs : s.isNumeric = true)
    (hcheck : .atLeast bound ∈ s.checks) : (bound : α) ≤ c.number s := by
  have hnot := atLeast_complaint?.mp ((complaints_eq_nil_iff.mp (h.passes s hs)).2 _ hcheck)
  exact le_of_not_lt (h.isNumber hs) (isNumber_natCast bound) hnot

omit [LawfulScalar α] in
theorem isWhole {s : Setting} (hs : s.isNumeric = true) (hcheck : .whole ∈ s.checks) :
    Scalar.isWhole (c.number s) = true :=
  whole_complaint?.mp ((complaints_eq_nil_iff.mp (h.passes s hs)).2 _ hcheck)

end Accepted

end MarketMaker.Config
