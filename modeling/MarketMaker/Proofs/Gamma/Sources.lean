import MarketMaker.Gamma.Source
import MarketMaker.Proofs.Gamma.Learner
import MarketMaker.Proofs.Gamma.Rules

/-!
# Sources of risk aversion are usable

A source is built from settings, and is asked again and again after that. It **serves** these
settings throughout, whatever it is told: figures that are infinite or not a number among the rest.

* The constant is the risk factor. It stretches the reported bounds when it lies outside.
* The learner is sound, so that its risk aversion lies within the bounds.
* The rule moves its product into the bounds. One that is not finite gives way to the risk factor
  first.

So every answer is finite and above zero, and the report is in order (`Usable`).
-/

namespace MarketMaker.Gamma

open Scalar LawfulScalar

variable {α : Type} [Scalar α]

/-- What a configuration that holds together gives a source to work with. -/
structure SourceSettings.Valid (s : SourceSettings α) : Prop where
  /-- The risk factor is finite and above zero. -/
  riskFactor : isPositive s.riskFactor = true
  /-- The bounds are finite, above zero and in order. -/
  bounds : validBounds s.gammaMin s.gammaMax = true

/-- What the learner is configured with. -/
def SourceSettings.learnerConfig (s : SourceSettings α) : LearnerConfig α :=
  { s.learner with initialGamma := s.riskFactor, gammaMin := s.gammaMin, gammaMax := s.gammaMax }

/-- What the rule is configured with. -/
def SourceSettings.ruleConfig (s : SourceSettings α) : Rules α :=
  { s.rules with baseGamma := s.riskFactor, gammaMin := s.gammaMin, gammaMax := s.gammaMax }

namespace Source

/-- The risk aversion that a source of its kind starts from. -/
def start (s : SourceSettings α) : Source α → α
  | fixed .. => s.riskFactor
  | online _ | rules _ => clamp s.riskFactor s.gammaMin s.gammaMax

/-- A source that was built from settings and was asked since then. -/
inductive Serves (s : SourceSettings α) : Source α → Prop where
  /-- A constant one, as it was built. -/
  | fixed : Serves s (.fixed s.riskFactor s.gammaMin s.gammaMax)
  /-- A sound learner for the settings. -/
  | online {l : Learner α} (hconfig : s.learnerConfig.Valid) (hl : l.Sound s.learnerConfig) :
    Serves s (.online l)
  /-- The rule of the settings, with an answer within the bounds. -/
  | rules {last : α} (hlower : s.gammaMin ≤ last) (hupper : last ≤ s.gammaMax) :
    Serves s (.rules ⟨s.ruleConfig, last⟩)

/-- A source that reports a risk aversion within its bounds, and answers whatever it is told with a
finite one above zero: the risk factor where it is constant, and one between the bounds that were
set where it is not. -/
structure Usable (s : SourceSettings α) (source : Source α) : Prop where
  /-- What is reported is not below the lower bound. -/
  lower : source.state.lowerBound ≤ source.state.currentValue
  /-- What is reported is not above the upper bound. -/
  upper : source.state.currentValue ≤ source.state.upperBound
  /-- Every answer is finite. -/
  finite (context : Context α) : isFinite (source.resolve context).1 = true
  /-- Every answer is above zero. -/
  positive (context : Context α) : 0 < (source.resolve context).1
  /-- A constant source answers the risk factor. -/
  constant (context : Context α) : source.mode = .fixed → (source.resolve context).1 = s.riskFactor
  /-- Any other source answers within the bounds that were set. -/
  within (context : Context α) : source.mode ≠ .fixed →
    s.gammaMin ≤ (source.resolve context).1 ∧ (source.resolve context).1 ≤ s.gammaMax

variable {s : SourceSettings α} {source : Source α}

/-- What is reported is the answer that was given last. -/
theorem currentValue_eq_gamma (source : Source α) : source.state.currentValue = source.gamma := by
  cases source <;> rfl

/-- What is reported after an answer is that answer. -/
theorem currentValue_resolve (source : Source α) (context : Context α) :
    (source.resolve context).2.1.state.currentValue = (source.resolve context).1 :=
  currentValue_eq_gamma _

/-- A source remains of its kind when it is asked. -/
theorem mode_next (source : Source α) (context : Context α) :
    (source.next context).1.mode = source.mode := by
  cases source with
  | fixed => rfl
  | online l =>
    unfold next
    cases context.performance <;> rfl
  | rules r => rfl

/-! ## Within the bounds -/

/-- The bounds of valid settings are in order, and the risk factor is a number. -/
theorem bounds (hs : s.Valid) :
    0 < s.gammaMin ∧ s.gammaMin ≤ s.gammaMax ∧ isFinite s.gammaMax = true ∧
    isFinite s.riskFactor = true ∧ 0 < s.riskFactor := by
  have hbounds := hs.bounds
  have hrisk := hs.riskFactor
  simp only [validBounds, isPositive, Bool.and_eq_true, decide_eq_true_iff] at hbounds hrisk
  exact ⟨hbounds.1.1, hbounds.1.2, hbounds.2, hrisk⟩

variable [LawfulScalar α]

/-- What lies within the bounds of valid settings is finite and above zero. -/
theorem finite_positive (hs : s.Valid) {x : α} (hlower : s.gammaMin ≤ x) (hupper : x ≤ s.gammaMax) :
    isFinite x = true ∧ 0 < x := by
  obtain ⟨hpos, -, hmax, -⟩ := bounds hs
  have hx := lt_of_lt_of_le hpos hlower
  exact ⟨isFinite_of_between isFinite_zero hmax (le_of_lt hx) hupper, hx⟩

/-- The rule answers within its bounds, whatever the signals are. -/
theorem rules_within (hs : s.Valid) (signals : Signals α) :
    s.gammaMin ≤ s.ruleConfig.gamma signals ∧ s.ruleConfig.gamma signals ≤ s.gammaMax := by
  obtain ⟨-, hle, -, hrisk, -⟩ := bounds hs
  exact s.ruleConfig.gamma_within hle hrisk signals

/-! ## Serving -/

omit [LawfulScalar α] in
/-- What sources are built of. -/
theorem create_spec {mode : Choice Mode α} (h : Source.create mode s = .ok (some source)) :
    source = .fixed s.riskFactor s.gammaMin s.gammaMax ∨
      (∃ l, Learner.create s.learnerConfig = .ok l ∧ source = .online l) ∨
      ∃ r, Scheduler.create s.ruleConfig = .ok r ∧ source = .rules r := by
  unfold Source.create at h
  cases hrisk : checkRiskFactor s with
  | error e =>
    rw [hrisk] at h
    split at h <;> cases h
  | ok _ =>
    rw [hrisk] at h
    split at h
    · cases h
    · cases h
    · exact .inl (Option.some.inj (Except.ok.inj h)).symm
    · change (Learner.create s.learnerConfig >>= fun l => pure (some (online l))) = _ at h
      cases hl : Learner.create s.learnerConfig with
      | error e =>
        rw [hl] at h
        cases h
      | ok l =>
        rw [hl] at h
        exact .inr (.inl ⟨l, rfl, (Option.some.inj (Except.ok.inj h)).symm⟩)
    · change (Scheduler.create s.ruleConfig >>= fun r => pure (some (rules r))) = _ at h
      cases hr : Scheduler.create s.ruleConfig with
      | error e =>
        rw [hr] at h
        cases h
      | ok r =>
        rw [hr] at h
        exact .inr (.inr ⟨r, rfl, (Option.some.inj (Except.ok.inj h)).symm⟩)

/-- A source that was built serves its settings, and reports what it starts from. -/
theorem Serves.create {mode : Choice Mode α} (hs : s.Valid)
    (h : Source.create mode s = .ok (some source)) :
    source.Serves s ∧ source.state.currentValue = source.start s := by
  obtain ⟨-, hle, -, hrisk, -⟩ := bounds hs
  rcases create_spec h with rfl | ⟨l, hl, rfl⟩ | ⟨r, hr, rfl⟩
  · exact ⟨.fixed, rfl⟩
  · obtain ⟨hfault, rfl⟩ := Learner.create_spec hl
    have hconfig : s.learnerConfig.Valid := .of_fault? hfault
    exact ⟨.online hconfig (.of_clamp hconfig (isNumber_of_isFinite hrisk) Memory.sound_empty), rfl⟩
  · obtain ⟨-, -, -, rfl⟩ := Scheduler.create_eq_ok_iff.mp hr
    obtain ⟨hlower, hupper, -⟩ := clamp_spec hle (isNumber_of_isFinite hrisk)
    exact ⟨.rules hlower hupper, rfl⟩

/-- A source goes on to serve its settings when it is asked. -/
theorem Serves.next (hs : s.Valid) (h : source.Serves s) (context : Context α) :
    (source.next context).1.Serves s := by
  cases h with
  | fixed => exact .fixed
  | @online l hconfig hl =>
    unfold Source.next
    cases context.performance with
    | none => exact .online hconfig hl
    | some p => exact .online hconfig (hl.update hconfig _)
  | rules hlower hupper =>
    obtain ⟨hlower', hupper'⟩ := rules_within hs (signalsOf context)
    exact .rules hlower' hupper'

/-- The risk aversion of a source that serves its settings. -/
theorem Serves.gamma (hs : s.Valid) (h : source.Serves s) :
    isFinite source.gamma = true ∧ 0 < source.gamma ∧
    (source.mode = .fixed → source.gamma = s.riskFactor) ∧
      (source.mode ≠ .fixed → s.gammaMin ≤ source.gamma ∧ source.gamma ≤ s.gammaMax) := by
  obtain ⟨-, -, -, hrisk⟩ := bounds hs
  cases h with
  | fixed => exact ⟨hrisk.1, hrisk.2, fun _ => rfl, fun hne => absurd rfl hne⟩
  | online hconfig hl =>
    obtain ⟨hfinite, hpos⟩ := finite_positive hs hl.lower hl.upper
    exact ⟨hfinite, hpos, nofun, fun _ => ⟨hl.lower, hl.upper⟩⟩
  | rules hlower hupper =>
    obtain ⟨hfinite, hpos⟩ := finite_positive hs hlower hupper
    exact ⟨hfinite, hpos, nofun, fun _ => ⟨hlower, hupper⟩⟩

/-- A source that serves its settings reports a risk aversion within its bounds. -/
theorem Serves.state (hs : s.Valid) (h : source.Serves s) :
    source.state.lowerBound ≤ source.state.currentValue ∧
    source.state.currentValue ≤ source.state.upperBound := by
  obtain ⟨-, hle, -, hrisk, -⟩ := bounds hs
  obtain ⟨hlower, hupper⟩ := isNumber_of_le hle
  cases h with
  | fixed =>
    exact ⟨least_le_right hlower (isNumber_of_isFinite hrisk),
      right_le_greatest hupper (isNumber_of_isFinite hrisk)⟩
  | @online l hconfig hl =>
    change l.config.gammaMin ≤ l.gamma ∧ l.gamma ≤ l.config.gammaMax
    rw [hl.config]
    exact ⟨hl.lower, hl.upper⟩
  | rules hlower hupper => exact ⟨hlower, hupper⟩

/-- **Every source that serves valid settings is usable.** -/
theorem Serves.usable (hs : s.Valid) (h : source.Serves s) : source.Usable s := by
  have hnext (context : Context α) := (h.next hs context).gamma hs
  obtain ⟨hlower, hupper⟩ := h.state hs
  exact {
    lower := hlower
    upper := hupper
    finite := fun context => (hnext context).1
    positive := fun context => (hnext context).2.1
    constant := fun context hmode => (hnext context).2.2.1 ((source.mode_next context).trans hmode)
    within := fun context hmode => (hnext context).2.2.2 fun heq =>
      hmode ((source.mode_next context).symm.trans heq) }

/-- What a source that serves valid settings answers can be priced with. -/
theorem Serves.isPositive_resolve (hs : s.Valid) (h : source.Serves s) (context : Context α) :
    isPositive (source.resolve context).1 = true := by
  have husable := h.usable hs
  rw [isPositive, husable.finite context, Bool.true_and]
  exact decide_eq_true (husable.positive context)

end Source

end MarketMaker.Gamma
