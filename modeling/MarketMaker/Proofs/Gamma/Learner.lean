import MarketMaker.Gamma.Learner
import MarketMaker.Proofs.Exact

/-!
# What holds throughout the life of a learner

A learner is given samples and is reset, in any order. Whatever the figures of the samples are,
infinite ones and such that are not numbers among them, a learner stays **sound**: its risk aversion
is finite and within its bounds, the direction is one or minus one, and every reward that it
remembers is finite.

* The mean of finite rewards may overflow, but it is a number. So is its distance from a reward, and
  so is the step that the learner takes.
* The first accepted sample cuts the rewards down to the window, however many were handed over.
* With a learning rate of zero no step is ever taken.
* Where arithmetic is exact, a sample moves the risk aversion by the learning rate at most.
-/

namespace MarketMaker

open Scalar LawfulScalar

variable {α : Type} [Scalar α] [LawfulScalar α]

/-! ## Means -/

/-- A sum of finite numbers is a number, even if it overflows. -/
theorem Stats.isNumber_foldl {values : List α} (h : ∀ v ∈ values, isFinite v = true) {start : α}
    (hstart : IsNumber start) : IsNumber (values.foldl (· + ·) start) := by
  induction values generalizing start with
  | nil => exact hstart
  | cons v rest ih =>
    have hv := h v List.mem_cons_self
    refine ih (fun u hu => h u (List.mem_cons_of_mem v hu)) ?_
    exact isNumber_add hstart (isNumber_of_isFinite hv) (.inr hv)

/-- The mean of finite numbers is a number. -/
theorem Stats.isNumber_mean {values : List α} (h : ∀ v ∈ values, isFinite v = true)
    (hlength : isFinite (values.length : α) = true) : IsNumber (mean values) := by
  unfold mean
  cases values with
  | nil => exact isNumber_zero
  | cons v rest =>
    exact isNumber_div (isNumber_foldl h isNumber_zero) hlength (zero_lt_natCast rest.length)

namespace Gamma

/-! ## The window -/

omit [LawfulScalar α] in
/-- The latest rewards are some of the rewards. -/
theorem mem_of_mem_latest {window r : α} {rewards : List α} (h : r ∈ latest window rewards) :
    r ∈ rewards := by
  induction rewards with
  | nil => exact h
  | cons first rest ih =>
    unfold latest at h
    split at h
    · exact List.mem_cons_of_mem first (ih h)
    · exact h

/-- The latest rewards fit into the window. -/
theorem length_latest {window : α} (hwindow : 0 ≤ window) (rewards : List α) :
    ((latest window rewards).length : α) ≤ window := by
  induction rewards with
  | nil => exact hwindow
  | cons first rest ih =>
    unfold latest
    split
    · exact ih
    · next hfits => exact le_of_not_lt (isNumber_of_le hwindow).2 (isNumber_natCast _) hfits

/-! ## What a learner accepts -/

/-- What is known of a configuration that a learner accepts. -/
structure LearnerConfig.Valid (c : LearnerConfig α) : Prop where
  /-- The lower bound is finite. -/
  gammaMin : isFinite c.gammaMin = true
  /-- The upper bound is finite. -/
  gammaMax : isFinite c.gammaMax = true
  /-- The bounds are in order. -/
  bounds : c.gammaMin ≤ c.gammaMax
  /-- The first risk aversion is finite. -/
  initialGamma : isFinite c.initialGamma = true
  /-- The step is finite. -/
  learningRate : isFinite c.learningRate = true
  /-- The step is not negative. -/
  learningRate_nonneg : 0 ≤ c.learningRate
  /-- The window is finite. -/
  rewardWindow : isFinite c.rewardWindow = true
  /-- The window is not negative. -/
  rewardWindow_pos : 0 ≤ c.rewardWindow

omit [LawfulScalar α] in
theorem Learner.fault?_eq_none_iff {c : LearnerConfig α} : fault? c = none ↔
    validBounds c.gammaMin c.gammaMax = true ∧ isPositive c.initialGamma = true ∧
      isNonNegative c.learningRate = true ∧ isWhole c.rewardWindow = true ∧
      ¬ c.rewardWindow < 1 := by
  simp only [fault?, Bool.not_eq_true', Bool.or_eq_true, decide_eq_true_iff]
  cases validBounds c.gammaMin c.gammaMax <;> cases isPositive c.initialGamma <;>
    cases isNonNegative c.learningRate <;> cases isWhole c.rewardWindow <;> simp

theorem LearnerConfig.Valid.of_fault? {c : LearnerConfig α} (h : Learner.fault? c = none) :
    c.Valid := by
  obtain ⟨hbounds, hinitial, hrate, hwindow, hleast⟩ := Learner.fault?_eq_none_iff.mp h
  simp only [validBounds, isPositive, isNonNegative, isWhole, Bool.and_eq_true,
    decide_eq_true_iff] at *
  obtain ⟨⟨hpos, hle⟩, hmax⟩ := hbounds
  have hone : IsNumber (1 : α) := isNumber_of_isFinite isFinite_one
  have honeWindow := le_of_not_lt (isNumber_of_isFinite hwindow.1) hone hleast
  exact {
    gammaMin := isFinite_of_between isFinite_zero hmax (le_of_lt hpos) hle
    gammaMax := hmax
    bounds := hle
    initialGamma := hinitial.1
    learningRate := hrate.1
    learningRate_nonneg := hrate.2
    rewardWindow := hwindow.1
    rewardWindow_pos := le_trans (le_of_lt zero_lt_one) honeWindow }

omit [LawfulScalar α] in
theorem Learner.create_spec {c : LearnerConfig α} {memory : Memory α} {l : Learner α}
    (h : Learner.create c memory = .ok l) : fault? c = none ∧ l = ⟨c, startGamma c, memory⟩ := by
  unfold Learner.create at h
  cases hfault : fault? c with
  | some e =>
    rw [hfault] at h
    cases h
  | none =>
    rw [hfault] at h
    exact ⟨rfl, (Except.ok.inj h).symm⟩

/-! ## One sample -/

/-- A memory of finite rewards, as many as can be counted, with one of the two directions.

The rewards can be counted when they fit into memory (`Memory.Sound.of_finite`). -/
structure Memory.Sound (m : Memory α) : Prop where
  /-- Each reward is finite. -/
  rewards : ∀ r ∈ m.rewards, isFinite r = true
  /-- Their number is finite as a scalar. -/
  length : isFinite (m.rewards.length : α) = true
  /-- The direction is one up or one down. -/
  direction : IsSign m.direction

/-- Every memory of finite rewards with one of the two directions is sound. -/
theorem Memory.Sound.of_finite {m : Memory α} (hrewards : ∀ r ∈ m.rewards, isFinite r = true)
    (hlength : m.rewards.length < 2 ^ 64) (hdirection : IsSign m.direction) : m.Sound :=
  ⟨hrewards, isFinite_natCast hlength, hdirection⟩

/-- The empty memory is sound. -/
theorem Memory.sound_empty : (Memory.empty : Memory α).Sound :=
  .of_finite nofun (Nat.two_pow_pos 64) (.inl rfl)

/-- A learner for a configuration, with a finite risk aversion within its bounds and a sound
memory. -/
structure Learner.Sound (c : LearnerConfig α) (l : Learner α) : Prop where
  /-- The learner keeps its configuration. -/
  config : l.config = c
  /-- The risk aversion does not fall below the lower bound. -/
  lower : c.gammaMin ≤ l.gamma
  /-- The risk aversion does not rise above the upper bound. -/
  upper : l.gamma ≤ c.gammaMax
  /-- The risk aversion is finite. -/
  finite : isFinite l.gamma = true
  /-- The memory is sound. -/
  memory : l.memory.Sound

namespace Learner

variable {c : LearnerConfig α} {l : Learner α} {m : Memory α} {s : Sample α}

/-- Whether a sample is neither stale nor discarded. -/
def accepts (l : Learner α) (s : Sample α) : Bool :=
  !isStale l.memory s && isFinite (reward l.config l.memory s)

/-- What is remembered of an accepted sample fits into the window. -/
theorem length_remember (hc : c.Valid) (m : Memory α) (s : Sample α) (r : α) :
    ((remember c m s r).rewards.length : α) ≤ c.rewardWindow :=
  length_latest hc.rewardWindow_pos _

theorem sound_remember (hc : c.Valid) (hm : m.Sound) {r : α} (hr : isFinite r = true)
    (s : Sample α) : (remember c m s r).Sound := by
  refine ⟨fun v hv => ?_, ?_, hm.direction⟩
  · rcases List.mem_append.mp (mem_of_mem_latest hv) with hold | hnew
    · exact hm.rewards v hold
    · rw [List.mem_singleton.mp hnew]
      exact hr
  · refine isFinite_of_between isFinite_zero hc.rewardWindow ?_ (length_remember hc m s r)
    cases (remember c m s r).rewards with
    | nil => exact isNumber_zero
    | cons first rest => exact le_of_lt (zero_lt_natCast rest.length)

/-- A step goes up or down by the learning rate, or is zero. -/
theorem step_cases (hc : c.Valid) (hm : m.Sound) {r : α} (hr : isFinite r = true) :
    (∃ sign, IsSign sign ∧ step c m r = c.learningRate * sign * m.direction) ∨
    same (step c m r) 0 = true := by
  have hmean := Stats.isNumber_mean hm.rewards hm.length
  have himprovement := isNumber_sub (isNumber_of_isFinite hr) hmean (.inl hr)
  rcases sign_cases himprovement with hsign | ⟨hsign, hzero⟩
  · exact .inl ⟨_, hsign, rfl⟩
  · refine .inr ?_
    rw [step, hsign]
    exact mul_mul_same_zero hc.learningRate (isFinite_of_same_zero hzero)
      (isFinite_of_isSign hm.direction) (.inr hzero)

omit [LawfulScalar α] in
/-- A sample that is not accepted changes nothing. -/
theorem update_of_refused (h : l.accepts s = false) : (l.update s).1 = l := by
  unfold update
  cases hstale : isStale l.memory s with
  | true => rfl
  | false =>
    have hinfinite : isFinite (reward l.config l.memory s) = false := by
      simpa [accepts, hstale] using h
    simp [hinfinite]

omit [LawfulScalar α] in
/-- An accepted sample is remembered. It moves the risk aversion unless there was nothing to compare
it with, or the step is zero. -/
theorem update_eq_of_accepts (h : l.accepts s = true) :
    let r := reward l.config l.memory s
    let next : Learner α := { l with memory := remember l.config l.memory s r }
    (l.update s).1 = if l.memory.rewards.isEmpty || same (step l.config l.memory r) 0 then next
      else next.move (step l.config l.memory r) := by
  rw [accepts, Bool.and_eq_true, Bool.not_eq_true'] at h
  obtain ⟨hfresh, hfinite⟩ := h
  simp only [update, hfresh, hfinite, Bool.false_eq_true, if_false, Bool.not_true]
  split <;> rfl

omit [LawfulScalar α] in
/-- Samples leave the configuration alone. -/
theorem config_update (l : Learner α) (s : Sample α) : (l.update s).1.config = l.config := by
  cases haccepts : l.accepts s with
  | false => rw [update_of_refused haccepts]
  | true =>
    rw [update_eq_of_accepts haccepts]
    split
    · rfl
    · rfl

omit [LawfulScalar α] in
/-- The reward of an accepted sample comes last in the window. -/
theorem rewards_update (h : l.accepts s = true) : (l.update s).1.memory.rewards =
    latest l.config.rewardWindow (l.memory.rewards ++ [reward l.config l.memory s]) := by
  rw [update_eq_of_accepts h]
  split
  · rfl
  · rfl

/-- **An accepted sample** is remembered with a finite reward, and may move the risk aversion by a
step of the learning rate. -/
theorem update_of_accepted (hc : c.Valid) (hl : l.Sound c) (h : l.accepts s = true) :
    ∃ r, isFinite r = true ∧
      ((l.update s).1 = { l with memory := remember c l.memory s r } ∨
        ∃ sign, IsSign sign ∧ same (c.learningRate * sign * l.memory.direction) 0 = false ∧
          (l.update s).1 = ({ l with memory := remember c l.memory s r } : Learner α).move
            (c.learningRate * sign * l.memory.direction)) := by
  obtain rfl := hl.config
  have hfinite := (Bool.and_eq_true_iff.mp h).2
  refine ⟨_, hfinite, ?_⟩
  rw [update_eq_of_accepts h]
  split
  · exact .inl rfl
  · next hmoved =>
    rw [Bool.or_eq_true, not_or, Bool.not_eq_true, Bool.not_eq_true] at hmoved
    rcases step_cases hc hl.memory hfinite with ⟨sign, hsign, hstep⟩ | hzero
    · rw [hstep] at hmoved ⊢
      exact .inr ⟨sign, hsign, hmoved.2, rfl⟩
    · rw [hzero] at hmoved
      cases hmoved.2

/-- A step of the learning rate is a number. -/
theorem isNumber_step (hc : c.Valid) {sign direction : α} (hsign : IsSign sign)
    (hdirection : IsSign direction) : IsNumber (c.learningRate * sign * direction) := by
  have hproduct := isNumber_mul_of_isFinite hc.learningRate (isFinite_of_isSign hsign)
  exact isNumber_mul_of_ne_zero hproduct (isFinite_of_isSign hdirection) (isSign_ne_zero hdirection)

/-- A number within the bounds of a configuration is a risk aversion. -/
theorem Sound.of_clamp (hc : c.Valid) {x : α} (hx : IsNumber x) (hm : m.Sound) :
    Sound c ⟨c, clamp x c.gammaMin c.gammaMax, m⟩ := by
  obtain ⟨hlower, hupper, -⟩ := clamp_spec hc.bounds hx
  exact ⟨rfl, hlower, hupper, isFinite_of_between hc.gammaMin hc.gammaMax hlower hupper, hm⟩

/-- A learner that is created with a sound memory is sound. -/
theorem Sound.of_create {memory : Memory α} (hcreate : create c memory = .ok l)
    (hmemory : memory.Sound) : c.Valid ∧ l.Sound c := by
  obtain ⟨hfault, rfl⟩ := create_spec hcreate
  have hc : c.Valid := .of_fault? hfault
  exact ⟨hc, .of_clamp hc (isNumber_of_isFinite hc.initialGamma) hmemory⟩

/-- A sample keeps a learner sound. -/
theorem Sound.update (hc : c.Valid) (hl : l.Sound c) (s : Sample α) : Sound c (l.update s).1 := by
  cases haccepts : l.accepts s with
  | false =>
    rw [update_of_refused haccepts]
    exact hl
  | true =>
    obtain ⟨r, hr, heq | ⟨sign, hsign, -, heq⟩⟩ := update_of_accepted hc hl haccepts
    · rw [heq]
      exact ⟨hl.config, hl.lower, hl.upper, hl.finite, sound_remember hc hl.memory hr s⟩
    · have hremembered := sound_remember hc hl.memory hr s
      have hnumber :=
        isNumber_add (isNumber_of_isFinite hl.finite) (isNumber_step hc hsign hl.memory.direction)
        (.inl hl.finite)
      have hdirection (step : α) : IsSign (if 0 < step then (1 : α) else -1) := by
        split
        · exact .inl rfl
        · exact .inr rfl
      rw [heq, move, hl.config]
      exact .of_clamp hc hnumber ⟨hremembered.rewards, hremembered.length, hdirection _⟩

/-! ## Runs -/

/-- What is done to a learner. -/
inductive Act (α : Type) where
  /-- It is told a sample. -/
  | update (s : Sample α)
  /-- It is reset. -/
  | reset

/-- The learner after something was done to it. -/
def act (l : Learner α) : Act α → Learner α
  | .update s => (l.update s).1
  | .reset => l.reset

/-- The learner after all that was done to it, the first first. -/
def run (l : Learner α) (acts : List (Act α)) : Learner α := acts.foldl act l

/-- Starting over makes a learner sound. -/
theorem Sound.reset (hc : c.Valid) (hl : l.Sound c) : Sound c l.reset := by
  obtain rfl := hl.config
  exact .of_clamp hc (isNumber_of_isFinite hc.initialGamma) Memory.sound_empty

theorem Sound.act (hc : c.Valid) (hl : l.Sound c) (a : Act α) : Sound c (l.act a) := by
  cases a with
  | update s => exact hl.update hc s
  | reset => exact hl.reset hc

/-- **A learner stays sound throughout every run.** -/
theorem Sound.run (hc : c.Valid) (hl : l.Sound c) (acts : List (Act α)) : Sound c (l.run acts) := by
  induction acts generalizing l with
  | nil => exact hl
  | cons a rest ih => exact ih (hl.act hc a)

/-- An accepted sample leaves rewards that fit into the window. -/
theorem length_update (hc : c.Valid) (hl : l.Sound c) (haccepts : l.accepts s = true) :
    ((l.update s).1.memory.rewards.length : α) ≤ c.rewardWindow := by
  rw [rewards_update haccepts, hl.config]
  exact length_latest hc.rewardWindow_pos _

/-- Rewards that fit into the window go on to fit into it. -/
theorem length_act (hc : c.Valid) (hl : l.Sound c)
    (hfits : (l.memory.rewards.length : α) ≤ c.rewardWindow) (a : Act α) :
    ((l.act a).memory.rewards.length : α) ≤ c.rewardWindow := by
  cases a with
  | update s =>
    change ((l.update s).1.memory.rewards.length : α) ≤ c.rewardWindow
    cases haccepts : l.accepts s with
    | false =>
      rw [update_of_refused haccepts]
      exact hfits
    | true => exact length_update hc hl haccepts
  | reset => exact hc.rewardWindow_pos

theorem length_run (hc : c.Valid) (hl : l.Sound c)
    (hfits : (l.memory.rewards.length : α) ≤ c.rewardWindow) (acts : List (Act α)) :
    ((l.run acts).memory.rewards.length : α) ≤ c.rewardWindow := by
  induction acts generalizing l with
  | nil => exact hfits
  | cons a rest ih => exact ih (hl.act hc a) (length_act hc hl hfits a)

/-- With a learning rate of zero nothing moves the risk aversion from where it starts. -/
theorem gamma_act (hc : c.Valid) (hl : l.Sound c) (hrate : same c.learningRate 0 = true)
    (hgamma : l.gamma = startGamma c) (a : Act α) : (l.act a).gamma = startGamma c := by
  cases a with
  | update s =>
    change (l.update s).1.gamma = startGamma c
    cases haccepts : l.accepts s with
    | false =>
      rw [update_of_refused haccepts]
      exact hgamma
    | true =>
      obtain ⟨r, -, heq | ⟨sign, hsign, hstep, -⟩⟩ := update_of_accepted hc hl haccepts
      · rw [heq]
        exact hgamma
      · -- No step is zero, and yet this one has to be.
        have hzero := mul_mul_same_zero hc.learningRate (isFinite_of_isSign hsign)
          (isFinite_of_isSign hl.memory.direction) (.inl hrate)
        rw [hzero] at hstep
        cases hstep
  | reset =>
    obtain rfl := hl.config
    rfl

theorem gamma_run (hc : c.Valid) (hl : l.Sound c) (hrate : same c.learningRate 0 = true)
    (hgamma : l.gamma = startGamma c) (acts : List (Act α)) :
    (l.run acts).gamma = startGamma c := by
  induction acts generalizing l with
  | nil => exact hgamma
  | cons a rest ih => exact ih (hl.act hc a) (gamma_act hc hl hrate hgamma a)

/-! ## Exact arithmetic -/

/-- Where arithmetic is exact, a sample moves the risk aversion by the learning rate at most. -/
theorem abs_update_sub_le (hc : c.Valid) (hl : l.Sound c) {value : α → ℝ} (hexact : IsExact value)
    (s : Sample α) :
    |value (l.update s).1.gamma - value l.gamma| ≤ value c.learningRate := by
  have hnonneg : 0 ≤ value c.learningRate := by
    rw [← hexact.value_zero]
    exact (hexact.le_iff isFinite_zero hc.learningRate).mp hc.learningRate_nonneg
  cases haccepts : l.accepts s with
  | false =>
    rw [update_of_refused haccepts, sub_self, abs_zero]
    exact hnonneg
  | true =>
    obtain ⟨r, -, heq | ⟨sign, hsign, -, heq⟩⟩ := update_of_accepted hc hl haccepts
    · rw [heq, sub_self, abs_zero]
      exact hnonneg
    · have hproduct := hexact.isFinite_mul hc.learningRate (isFinite_of_isSign hsign)
      have hdirection := isFinite_of_isSign hl.memory.direction
      have hstep : |value (c.learningRate * sign * l.memory.direction)| = value c.learningRate := by
        rw [hexact.value_mul hproduct hdirection,
          hexact.value_mul hc.learningRate (isFinite_of_isSign hsign),
          abs_mul, abs_mul, hexact.abs_of_isSign hsign, hexact.abs_of_isSign hl.memory.direction,
          mul_one, mul_one, abs_of_nonneg hnonneg]
      rw [heq, ← hstep, move, hl.config]
      exact hexact.abs_clamp_add_sub_le (hexact.isFinite_mul hproduct hdirection) ⟨hc.gammaMin,
        hc.gammaMax⟩ hl.lower hl.upper

/-! ## The whole of it -/

/-- **The life of a learner.** Take any configuration that is accepted, any sound memory to go on
from, and anything done to the learner after that. It is sound at every moment; once a sample was
accepted its rewards fit into the window; no sample moves the risk aversion by more than the
learning rate, where arithmetic is exact; and with a learning rate of zero it always is what it
started from. -/
theorem sound_run {memory : Memory α} (hcreate : create c memory = .ok l) (hmemory : memory.Sound) :
    (∀ acts, (l.run acts).Sound c) ∧
      (∀ before s after, (l.run before).accepts s = true →
        ((l.run (before ++ .update s :: after)).memory.rewards.length : α) ≤ c.rewardWindow) ∧
      (∀ value : α → ℝ, IsExact value → ∀ acts s,
        |value ((l.run acts).update s).1.gamma - value (l.run acts).gamma| ≤ value c.learningRate) ∧
      (same c.learningRate 0 = true → ∀ acts, (l.run acts).gamma = startGamma c) := by
  obtain ⟨hfault, rfl⟩ := create_spec hcreate
  have hc : c.Valid := .of_fault? hfault
  have hstart : Sound c ⟨c, startGamma c, memory⟩ :=
    .of_clamp hc (isNumber_of_isFinite hc.initialGamma) hmemory
  refine ⟨fun acts => hstart.run hc acts, fun before s after haccepts => ?_,
    fun value hexact acts s => ?_, fun hrate acts => gamma_run hc hstart hrate rfl acts⟩
  · have hbefore := hstart.run hc before
    rw [run, List.foldl_append]
    exact length_run hc (hbefore.update hc s) (length_update hc hbefore haccepts) after
  · exact abs_update_sub_le hc (hstart.run hc acts) hexact s

open Extended in
/-- A configuration whose bounds are one step apart, with a window for two rewards. -/
noncomputable def coarse : LearnerConfig Extended where
  initialGamma := number (1 : ℝ)
  learningRate := number (1 : ℝ)
  gammaMin := number (1 : ℝ)
  gammaMax := number ((2 : ℕ) : ℝ)
  rewardWindow := number ((2 : ℕ) : ℝ)
  inventoryPenalty := number (0 : ℝ)
  spreadEfficiencyWeight := number (1 : ℝ)

open Extended in
theorem create_coarse : create coarse = .ok ⟨coarse, startGamma coarse, .empty⟩ := by
  have hfault : fault? coarse = none := by
    rw [fault?_eq_none_iff]
    simp only [validBounds, isPositive, isNonNegative, isFinite_number, isWhole_natCast,
      zero_eq, one_eq, lt_number, le_number, EReal.coe_lt_coe_iff, EReal.coe_le_coe_iff, coarse]
    norm_num
  rw [create, hfault]

/-- The life of a learner in exact arithmetic that starts with no memory. -/
theorem sound_run_coarse :
    create coarse = .ok ⟨coarse, startGamma coarse,
      .empty⟩ ∧ (Memory.empty : Memory Extended).Sound ∧
      (∀ acts, Sound coarse (run ⟨coarse, startGamma coarse, .empty⟩ acts)) ∧
      ∀ acts s, |((run ⟨coarse, startGamma coarse, .empty⟩ acts).update s).1.gamma.value -
        (run ⟨coarse, startGamma coarse, .empty⟩ acts).gamma.value|
        ≤ coarse.learningRate.value := by
  obtain ⟨hsound, -, hmoves, -⟩ := sound_run create_coarse Memory.sound_empty
  exact ⟨create_coarse, Memory.sound_empty, hsound, hmoves Extended.value Extended.isExact⟩

end Learner

end Gamma

end MarketMaker
