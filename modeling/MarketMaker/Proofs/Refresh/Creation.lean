import MarketMaker.Proofs.Analysis
import MarketMaker.Proofs.Refresh.Serving

/-!
# What the creation of a controller takes

Creation checks an accepted configuration once more, stage by stage: that its settings hold
together, that a quote can be tuned by them, and that the source of risk aversion for the mode can
be built. None of these refuses what was accepted but the last, and only in one mode: the learner
wants a learning rate that is finite.
-/

namespace MarketMaker

open Scalar LawfulScalar

variable {α : Type} [Scalar α]

/-- A quote is tuned by a floor that is not below zero and a shape factor above it. -/
theorem Pricing.Config.accept_of_nonneg {c : Pricing.Config α} (hfloor : 0 ≤ c.minSpread)
    (hshape : 0 < c.shapeFactor) : c.accept = .ok c := by
  simp [accept, fault?, hfloor, hshape]

theorem Pricing.Config.nonneg_of_accept {c t : Pricing.Config α} (h : c.accept = .ok t) :
    0 ≤ c.minSpread ∧ 0 < c.shapeFactor := by
  unfold accept at h
  split at h
  · cases h
  · next hfault =>
    unfold fault? at hfault
    split_ifs at hfault with hfloor hshape
    exact ⟨hfloor, hshape⟩

namespace Gamma

theorem Learner.exists_create_iff {c : LearnerConfig α} :
    (∃ l, Learner.create c = .ok l) ↔ Learner.fault? c = none := by
  unfold Learner.create
  cases Learner.fault? c <;> simp

theorem Scheduler.exists_create {r : Rules α} (hbase : isPositive r.baseGamma = true)
    (hbounds : validBounds r.gammaMin r.gammaMax = true)
    (horder : r.lowVolatility ≤ r.highVolatility) :
    ∃ scheduler, Scheduler.create r = .ok scheduler :=
  ⟨_, Scheduler.create_eq_ok_iff.mpr ⟨hbase, hbounds, horder, rfl⟩⟩

end Gamma

namespace Refresh.Controller

variable {config : Config α}

/-- The learner refuses nothing that was accepted but a learning rate that is not finite. -/
theorem learner_fault?_eq_none_iff [LawfulScalar α] [Config.Standard α]
    (haccepted : config.Accepted) :
    Gamma.Learner.fault? (sourceSettings config).learnerConfig = none ↔
    isFinite config.learningRate = true := by
  obtain ⟨hrisk, -, -, hbounds, -⟩ := Config.check_eq_ok_iff.mp haccepted.check
  have hrate : 0 ≤ config.learningRate := haccepted.atLeast (s := .learningRate) rfl (by decide)
  have hwhole : isWhole config.rewardWindow = true :=
    haccepted.isWhole (s := .rewardWindow) rfl (by decide)
  have hpos : 0 < config.rewardWindow := haccepted.pos (s := .rewardWindow) rfl (by decide)
  -- The checks of the setting ask for a window above zero, and the learner for one of at least one.
  have hwindow : ¬ config.rewardWindow < 1 :=
    fun h => not_le_of_lt h (Config.Standard.one_le_of_isWhole hwhole hpos)
  have hvalid : Gamma.validBounds config.gammaMin config.gammaMax = true := hbounds
  rw [Gamma.Learner.fault?_eq_none_iff]
  simp [Gamma.SourceSettings.learnerConfig, sourceSettings, hvalid, hrisk, hwhole, hwindow,
    isNonNegative, hrate]

/-- **Whether the source for a mode can be built** of an accepted configuration: the learner takes
no learning rate that is not finite. -/
theorem exists_source_iff [LawfulScalar α] [Config.Standard α] (haccepted : config.Accepted)
    (mode : Mode) :
    (∃ source, Gamma.Source.create (.known mode) (sourceSettings config) = .ok source) ↔
      (mode = .onlineAdaptive → isFinite config.learningRate = true) := by
  obtain ⟨hrisk, -, -, hbounds, -⟩ := Config.check_eq_ok_iff.mp haccepted.check
  have hfactor : Gamma.Source.checkRiskFactor (sourceSettings config) = .ok () := if_pos hrisk
  cases mode with
  | autoOptimize | fixed =>
    simp [Gamma.Source.create, hfactor, bind, Except.bind, pure, Except.pure]
  | onlineAdaptive =>
    rw [← learner_fault?_eq_none_iff haccepted, ← Gamma.Learner.exists_create_iff,
      Gamma.Source.create]
    constructor
    · rintro ⟨source, h⟩ -
      obtain ⟨-, -, h⟩ := Guards.bind_eq_ok.mp h
      obtain ⟨learner, hlearner, -⟩ := Guards.bind_eq_ok.mp h
      exact ⟨learner, hlearner⟩
    · intro h
      obtain ⟨learner, hlearner⟩ := h rfl
      exact ⟨_, Guards.bind_eq_ok.mpr ⟨(), hfactor, Guards.bind_eq_ok.mpr ⟨learner, hlearner, rfl⟩⟩⟩
  | ruleAdaptive =>
    obtain ⟨scheduler, hscheduler⟩ :=
      Gamma.Scheduler.exists_create (r := (sourceSettings config).ruleConfig) hrisk
      hbounds Config.Standard.volatility_le
    exact iff_of_true
      ⟨_, Guards.bind_eq_ok.mpr ⟨(), hfactor, Guards.bind_eq_ok.mpr ⟨scheduler,
        hscheduler, rfl⟩⟩⟩ nofun

variable [NumberText α] [Numeric α]

/-- **Whether a controller can be created** for an accepted configuration is for the source of its
mode to say. -/
theorem exists_create_iff [LawfulScalar α] [Config.Standard α] (haccepted : config.Accepted)
    {mode : Mode} (hmode : config.mode = .known mode) :
    (∃ c, create config = .ok c) ↔
    (mode = .onlineAdaptive → isFinite config.learningRate = true) := by
  rw [← exists_source_iff haccepted mode, ← hmode]
  constructor
  · rintro ⟨c, hcreate⟩
    exact ⟨c.source, (check_of_create hcreate).2⟩
  · rintro ⟨source, hsource⟩
    have hfloor : 0 ≤ config.minSpread := haccepted.atLeast (s := .minSpread) rfl (by decide)
    have hshape : 0 < config.orderAmountShapeFactor :=
      haccepted.pos (s := .orderAmountShapeFactor) rfl (by decide)
    have htuned :=
      Pricing.Config.accept_of_nonneg (c := ⟨config.minSpread,
        config.orderAmountShapeFactor⟩) hfloor
      hshape
    simp [create, haccepted.check, htuned, hsource, bind, Except.bind, pure,
      Except.pure, Except.mapError, checkUsable_eq_ok]

omit [Numeric α] in
/-- A controller is not created without a tuning for its quotes. -/
theorem nonneg_of_create {c : Controller α} (hcreate : create config = .ok c) :
    0 ≤ config.minSpread ∧ 0 < config.orderAmountShapeFactor := by
  obtain ⟨_, -, hcreate⟩ := Guards.bind_eq_ok.mp hcreate
  obtain ⟨_, htuning, -⟩ := Guards.bind_eq_ok.mp hcreate
  exact Pricing.Config.nonneg_of_accept (Guards.mapError_eq_ok.mp htuning)

/-- In an exact analysis a controller can be created of nothing but a mode. -/
theorem exists_create_preset [StrictScalar α] {value : α → ℝ} (hexact : IsExactAnalysis value)
    (mode : Mode) :
    Config.parse (.object [("mode", .string mode.name)]) = .ok (Config.preset mode : Config α) ∧
      (Config.preset mode : Config α).Accepted ∧
      ∃ c, create (Config.preset mode : Config α) = .ok c := by
  have := hexact.standard
  have hparse := Config.parse_mode (hexact.check_preset mode)
  have haccepted := Config.accepted_of_parse hparse
  exact ⟨hparse, haccepted,
    (exists_create_iff haccepted rfl).mpr fun _ => hexact.finite_preset mode .learningRate rfl⟩

end Refresh.Controller

end MarketMaker
