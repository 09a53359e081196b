import MarketMaker.Proofs.Gamma.Learner

/-!
# Profits that are not finite

A learner looks at how far the profit moved since the last accepted sample. It discards a sample
whose reward is not finite; but the first reward leaves the profit out, so that the first accepted
sample may bring any profit at all.

* A memory is **clear** when it holds no profit or a finite one. A learner with a clear memory
  accepts every fresh sample of finite figures, where arithmetic is exact.
* A learner whose memory is not clear is lost. No reward is finite any more, so it never accepts
  another sample.
* It is the first accepted sample alone that decides which of the two a learner becomes.
-/

namespace MarketMaker.Gamma

open Scalar LawfulScalar StrictScalar

variable {α : Type} [Scalar α]

/-- The last profit, if there is one, is finite. -/
def Memory.Clear (m : Memory α) : Prop := ∀ profit, m.lastPnl = some profit → isFinite profit = true

/-- All figures of a sample are finite. -/
structure Sample.Finite (s : Sample α) : Prop where
  /-- The profit is finite. -/
  realizedPnl : isFinite s.realizedPnl = true
  /-- The deviation is finite. -/
  inventoryDeviation : isFinite s.inventoryDeviation = true
  /-- The volatility is finite. -/
  volatility : isFinite s.volatility = true
  /-- The efficiency is finite. -/
  spreadEfficiency : isFinite s.spreadEfficiency = true
  /-- The time is finite. -/
  timestamp : isFinite s.timestamp = true

namespace Learner

/-- The learner after samples, the first first. -/
def after (l : Learner α) (samples : List (Sample α)) : Learner α := l.run (samples.map .update)

@[simp] theorem after_nil (l : Learner α) : l.after [] = l := rfl

@[simp] theorem after_cons (l : Learner α) (s : Sample α) (rest : List (Sample α)) :
    l.after (s :: rest) = (l.update s).1.after rest := rfl

theorem after_append (l : Learner α) (before rest : List (Sample α)) :
    l.after (before ++ rest) = (l.after before).after rest := by
  rw [after, List.map_append, run, List.foldl_append]
  rfl

variable [StrictScalar α] {c : LearnerConfig α} {l : Learner α} {s : Sample α}
  {samples : List (Sample α)}

/-! ## One sample -/

/-- What an accepted sample leaves in the memory. -/
theorem update_remembers (h : l.accepts s = true) :
    (l.update s).1.config = l.config ∧ (l.update s).1.memory.lastPnl = some s.realizedPnl ∧
      (l.update s).1.memory.lastUpdateAt = some s.timestamp ∧
      (l.update s).1.memory.updateCount = l.memory.updateCount + 1 := by
  have hremember (r : α) : (remember l.config l.memory s r).lastPnl = some s.realizedPnl ∧
      (remember l.config l.memory s r).lastUpdateAt = some s.timestamp ∧
      (remember l.config l.memory s r).updateCount = l.memory.updateCount + 1 :=
    ⟨filled?_eq_some _, filled?_eq_some _, rfl⟩
  rw [update_eq_of_accepts h]
  split
  · exact ⟨rfl, hremember _⟩
  · exact ⟨rfl, hremember (reward l.config l.memory s)⟩

/-- Between two accepted samples the profit moved by a finite amount, so both profits are finite. -/
theorem isFinite_profits (h : l.accepts s = true) {last : α}
    (hlast : l.memory.lastPnl = some last) :
    isFinite s.realizedPnl = true ∧ isFinite last = true := by
  rw [accepts, Bool.and_eq_true, reward, hlast] at h
  exact isFinite_of_sub (isFinite_of_add (isFinite_of_add h.2).1).1

/-- A learner that is lost accepts nothing. -/
theorem accepts_eq_false_of_not_clear (h : ¬ l.memory.Clear) (s : Sample α) :
    l.accepts s = false := by
  rw [← Bool.not_eq_true]
  exact fun haccepts => h fun last hlast => (isFinite_profits haccepts hlast).2

/-- Once there is a profit, the memory stays as clear as it is, and there still is one. -/
theorem clear_update (h : l.memory.lastPnl.isSome = true) (s : Sample α) :
    (l.update s).1.memory.lastPnl.isSome = true ∧
    ((l.update s).1.memory.Clear ↔ l.memory.Clear) := by
  cases haccepts : l.accepts s with
  | false =>
    rw [update_of_refused haccepts]
    exact ⟨h, Iff.rfl⟩
  | true =>
    obtain ⟨last, hlast⟩ := Option.isSome_iff_exists.mp h
    obtain ⟨hprofit, hfinite⟩ := isFinite_profits haccepts hlast
    obtain ⟨-, hremembered, -, -⟩ := update_remembers haccepts
    refine ⟨Option.isSome_iff_exists.mpr ⟨_, hremembered⟩, iff_of_true ?_ ?_⟩
    · rintro profit hsome
      obtain rfl := Option.some.inj (hremembered.symm.trans hsome)
      exact hprofit
    · rintro profit hsome
      obtain rfl := Option.some.inj (hlast.symm.trans hsome)
      exact hfinite

/-! ## Many samples -/

theorem clear_after (h : l.memory.lastPnl.isSome = true) (samples : List (Sample α)) :
    (l.after samples).memory.Clear ↔ l.memory.Clear := by
  induction samples generalizing l with
  | nil => exact Iff.rfl
  | cons s rest ih =>
    obtain ⟨hsome, hclear⟩ := clear_update h s
    exact (ih hsome).trans hclear

omit [StrictScalar α] in
/-- Samples of which none is accepted change nothing. -/
theorem after_of_refused (h : ∀ s ∈ samples, l.accepts s = false) : l.after samples = l := by
  induction samples with
  | nil => rfl
  | cons s rest ih =>
    rw [after_cons, update_of_refused (h s List.mem_cons_self)]
    exact ih fun e he => h e (List.mem_cons_of_mem s he)

/-- **The first accepted sample decides.** A learner that starts without a profit stays clear
exactly if the first sample that it accepts brings a finite one. -/
theorem clear_after_iff (h : l.memory.lastPnl = none) (samples : List (Sample α)) :
    (l.after samples).memory.Clear ↔ ∀ s, samples.find? l.accepts = some s →
    isFinite s.realizedPnl = true := by
  cases hfirst : samples.find? l.accepts with
  | none =>
    have hrefused : ∀ s ∈ samples, l.accepts s = false := by
      simpa using List.find?_eq_none.mp hfirst
    rw [after_of_refused hrefused]
    exact iff_of_true (fun profit hsome => nomatch h.symm.trans hsome) nofun
  | some s =>
    obtain ⟨haccepts, before, rest, rfl, hbefore⟩ := List.find?_eq_some_iff_append.mp hfirst
    have hrefused : ∀ e ∈ before, l.accepts e = false := by simpa using hbefore
    obtain ⟨-, hremembered, -, -⟩ := update_remembers haccepts
    rw [after_append, after_of_refused hrefused, after_cons,
      clear_after (Option.isSome_iff_exists.mpr ⟨_, hremembered⟩) rest, Memory.Clear, hremembered]
    simp only [Option.some.injEq, forall_eq']

/-- The configuration stays, and the last accepted sample is one of the samples unless it came
before them. -/
theorem config_lastUpdateAt_after (l : Learner α) (samples : List (Sample α)) :
    (l.after samples).config = l.config ∧
      ((l.after samples).memory.lastUpdateAt = l.memory.lastUpdateAt ∨
        ∃ e ∈ samples, (l.after samples).memory.lastUpdateAt = some e.timestamp) := by
  induction samples generalizing l with
  | nil => exact ⟨rfl, .inl rfl⟩
  | cons s rest ih =>
    obtain ⟨hconfig, hlast⟩ := ih (l.update s).1
    rw [after_cons]
    cases haccepts : l.accepts s with
    | false =>
      rw [update_of_refused haccepts] at hconfig hlast ⊢
      refine ⟨hconfig, hlast.imp_right ?_⟩
      rintro ⟨e, he, heq⟩
      exact ⟨e, List.mem_cons_of_mem s he, heq⟩
    | true =>
      obtain ⟨hkept, -, hat, -⟩ := update_remembers haccepts
      refine ⟨hconfig.trans hkept, .inr ?_⟩
      rcases hlast with heq | ⟨e, he, heq⟩
      · exact ⟨s, List.mem_cons_self, heq.trans hat⟩
      · exact ⟨e, List.mem_cons_of_mem s he, heq⟩

/-- A sample that is newer than all before it is not stale. -/
theorem not_isStale_after (h : l.memory.lastUpdateAt = none)
    (hnewer : ∀ e ∈ samples, ¬ s.timestamp ≤ e.timestamp) :
    isStale (l.after samples).memory s = false := by
  rw [isStale]
  rcases (config_lastUpdateAt_after l samples).2 with heq | ⟨e, he, heq⟩
  · rw [heq, h]
  · rw [heq]
    exact decide_eq_false (hnewer e he)

/-! ## Exact arithmetic -/

section Exact

variable {value : α → ℝ}

/-- Where arithmetic is exact, finite figures have a finite reward unless the profit moved by what
is not finite. -/
theorem isFinite_reward (hexact : IsExactField value)
    (hpenalty : isFinite c.inventoryPenalty = true)
    (hweight : isFinite c.spreadEfficiencyWeight = true) {m : Memory α}
    (hprofit : ∀ last, m.lastPnl = some last → isFinite (s.realizedPnl - last) = true)
    (hdeviation : isFinite s.inventoryDeviation = true)
    (hefficiency : isFinite s.spreadEfficiency = true) : isFinite (reward c m s) = true := by
  have hcost := hexact.isFinite_mul (isFinite_neg hpenalty) (isFinite_abs hdeviation)
  have hbonus := hexact.isFinite_mul hweight hefficiency
  rw [reward]
  cases hlast : m.lastPnl with
  | none => exact hexact.isFinite_add (hexact.isFinite_add isFinite_zero hcost) hbonus
  | some last => exact hexact.isFinite_add (hexact.isFinite_add (hprofit last hlast) hcost) hbonus

/-- Where arithmetic is exact, the accepted samples can be counted. -/
theorem isFinite_updateCount_after (hexact : IsExactField value)
    (h : isFinite l.memory.updateCount = true) (samples : List (Sample α)) :
    isFinite (l.after samples).memory.updateCount = true := by
  induction samples generalizing l with
  | nil => exact h
  | cons s rest ih =>
    rw [after_cons]
    refine ih ?_
    cases haccepts : l.accepts s with
    | false =>
      rw [update_of_refused haccepts]
      exact h
    | true =>
      obtain ⟨-, -, -, hcount⟩ := update_remembers haccepts
      rw [hcount]
      exact hexact.isFinite_add h isFinite_one

end Exact

/-! ## The whole of it -/

/-- **When a bad sample disables a learner.** Take any accepted configuration, and give the learner
samples one after the other, with whatever figures. The profit that it remembers is none or finite
exactly if the first sample that was accepted brought a finite one. If so, and where arithmetic is
exact and the weights of the reward are finite, each further sample of finite figures that is newer
than all before it is accepted and counted. If not, no sample is ever accepted again, and nothing
changes any more. -/
theorem clear_and_accepting_iff (hcreate : create c = .ok l) (samples : List (Sample α)) :
    ((l.after samples).memory.Clear ↔
        ∀ s, samples.find? l.accepts = some s → isFinite s.realizedPnl = true) ∧
      ((l.after samples).memory.Clear → ∀ value : α → ℝ, IsExactField value →
        isFinite c.inventoryPenalty = true →
        isFinite c.spreadEfficiencyWeight = true → ∀ s : Sample α, s.Finite →
        (∀ e ∈ samples, ¬ s.timestamp ≤ e.timestamp) → (l.after samples).accepts s = true ∧
          value (l.after (samples ++ [s])).memory.updateCount =
            value (l.after samples).memory.updateCount + 1) ∧
      (¬ (l.after samples).memory.Clear →
        ∀ further, l.after (samples ++ further) = l.after samples) := by
  obtain ⟨-, rfl⟩ := create_spec hcreate
  refine ⟨clear_after_iff rfl samples, ?_, ?_⟩
  · intro hclear value hexact hpenalty hweight s hs hnewer
    have hfresh := not_isStale_after (l := ⟨c, startGamma c, .empty⟩) (s := s) rfl hnewer
    have hconfig := (config_lastUpdateAt_after ⟨c, startGamma c, .empty⟩ samples).1
    generalize hl : (⟨c, startGamma c, .empty⟩ : Learner α).after samples = l at *
    have haccepts : l.accepts s = true := by
      rw [accepts, hfresh, hconfig, isFinite_reward hexact hpenalty hweight
        (fun last hlast => hexact.isFinite_sub hs.realizedPnl (hclear last hlast))
          hs.inventoryDeviation
        hs.spreadEfficiency]
      rfl
    obtain ⟨-, -, -, hcount⟩ := update_remembers haccepts
    have hfinite : isFinite l.memory.updateCount = true := by
      rw [← hl]
      exact isFinite_updateCount_after hexact isFinite_zero samples
    rw [after_append, hl, after_cons, after_nil, hcount, hexact.value_add hfinite isFinite_one,
      hexact.value_one]
    exact ⟨haccepts, rfl⟩
  · intro hlost further
    rw [after_append]
    exact after_of_refused fun s _ => accepts_eq_false_of_not_clear hlost s

open Extended in
/-- A sample of finite figures at a time. -/
noncomputable def plainSample (at_ : ℕ) : Sample Extended where
  realizedPnl := number (1 : ℝ)
  inventoryDeviation := number (0 : ℝ)
  volatility := number (1 : ℝ)
  spreadEfficiency := number (1 : ℝ)
  timestamp := number (at_ : ℝ)

theorem plainSample_finite (at_ : ℕ) : (plainSample at_).Finite :=
  ⟨Extended.isFinite_number _, Extended.isFinite_number _, Extended.isFinite_number _,
    Extended.isFinite_number _, Extended.isFinite_number _⟩

/-- A learner in exact arithmetic that was given a sample of finite figures accepts the next one. -/
theorem clear_and_accepting_iff_plainSample :
    create coarse = .ok ⟨coarse, startGamma coarse, .empty⟩ ∧
      (after ⟨coarse, startGamma coarse, .empty⟩ [plainSample 1]).memory.Clear ∧
      (after ⟨coarse, startGamma coarse, .empty⟩ [plainSample 1]).accepts (plainSample 2) =
        true := by
  obtain ⟨hclear, haccepting, -⟩ := clear_and_accepting_iff create_coarse [plainSample 1]
  have hfirst : (after ⟨coarse, startGamma coarse, .empty⟩ [plainSample 1]).memory.Clear := by
    rw [hclear]
    intro s hs
    rw [List.mem_singleton.mp (List.mem_of_find?_eq_some hs)]
    exact (plainSample_finite 1).realizedPnl
  refine ⟨create_coarse, hfirst, ?_⟩
  refine (haccepting hfirst Extended.value Extended.isExactField (Extended.isFinite_number _)
    (Extended.isFinite_number _) (plainSample 2) (plainSample_finite 2) ?_).1
  intro e he
  rw [List.mem_singleton.mp he]
  simp only [plainSample, Extended.le_number, EReal.coe_le_coe_iff]
  norm_num

/-- The same sample with a profit that is not a number. -/
noncomputable def spoiltSample (at_ : ℕ) : Sample Extended :=
  { plainSample at_ with realizedPnl := .undefined }

/-- A learner whose first sample brings a profit that is not a number does not accept the next
sample of finite figures. -/
theorem lost_spoiltSample :
    create coarse = .ok ⟨coarse, startGamma coarse,
      .empty⟩ ∧ isFinite coarse.inventoryPenalty = true ∧
      isFinite coarse.spreadEfficiencyWeight = true ∧
      ¬ (after ⟨coarse, startGamma coarse, .empty⟩ [spoiltSample 1]).memory.Clear ∧
      IsExactField Extended.value ∧ (plainSample 2).Finite ∧
      (spoiltSample 1).timestamp < (plainSample 2).timestamp ∧
      (after ⟨coarse, startGamma coarse, .empty⟩ [spoiltSample 1]).accepts (plainSample 2) =
        false := by
  have hfinite (r : ℝ) := Extended.isFinite_number r
  have haccepts : accepts ⟨coarse, startGamma coarse, .empty⟩ (spoiltSample 1) = true :=
    isFinite_reward Extended.isExactField (hfinite _) (hfinite _) nofun (hfinite _) (hfinite _)
  obtain ⟨-, hremembered, -, -⟩ := update_remembers haccepts
  have hlost : ¬ (after ⟨coarse, startGamma coarse, .empty⟩ [spoiltSample 1]).memory.Clear :=
    fun hclear => Bool.false_ne_true (hclear _ hremembered)
  refine ⟨create_coarse, hfinite _, hfinite _, hlost, Extended.isExactField,
    plainSample_finite 2, ?_, accepts_eq_false_of_not_clear hlost _⟩
  simp only [spoiltSample, plainSample, Extended.lt_number, EReal.coe_lt_coe_iff]
  norm_num

end Learner

end MarketMaker.Gamma
