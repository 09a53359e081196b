import MarketMaker.Proofs.Gamma.Profit

/-!
# Going on from a checkpoint

The risk aversion and the memory of a learner can be put aside at any moment, and another learner
can go on from them: it is created to **start from** that risk aversion, with that memory and
otherwise the same configuration.

* It is accepted, because the risk aversion is positive and finite at every moment, whatever was
  learnt.
* It does start there. Every risk aversion of a learner was moved into the bounds, so it is
  **settled**: it is not moved when it is moved into them again.
* Samples do not look at what a learner started from. So it learns what the other one goes on to
  learn, and logs what the other one logs. Only when they are reset do they part.

All of this holds in every arithmetic, rounding and overflow included.
-/

namespace MarketMaker.Gamma

open Scalar LawfulScalar

variable {α : Type} [Scalar α]

namespace Learner

/-! ## Another start -/

/-- The learner as it would be if it had started from another risk aversion. -/
def startingFrom (l : Learner α) (start : α) : Learner α :=
  { l with config := { l.config with initialGamma := start } }

/-- A sample does not look at what the learner started from. -/
theorem update_startingFrom (l : Learner α) (start : α) (s : Sample α) :
    (l.startingFrom start).update s = ((l.update s).1.startingFrom start, (l.update s).2) := by
  have hreward : reward { l.config with initialGamma := start } l.memory s =
      reward l.config l.memory s := rfl
  have hstep (r : α) : step { l.config with initialGamma := start } l.memory r =
      step l.config l.memory r := rfl
  simp only [update, startingFrom, hreward, hstep]
  cases isStale l.memory s with
  | true => rfl
  | false =>
    cases isFinite (reward l.config l.memory s) with
    | false => rfl
    | true =>
      cases l.memory.rewards.isEmpty || same (step l.config l.memory (reward l.config l.memory s)) 0
        with
      | true => rfl
      | false => rfl

theorem after_startingFrom (l : Learner α) (start : α) (samples : List (Sample α)) :
    (l.startingFrom start).after samples = (l.after samples).startingFrom start := by
  induction samples generalizing l with
  | nil => rfl
  | cons s rest ih => rw [after_cons, after_cons, update_startingFrom, ih]

/-! ## Settled risk aversion -/

/-- The risk aversion stays where it is when it is moved into the bounds. -/
def Settled (l : Learner α) : Prop := clamp l.gamma l.config.gammaMin l.config.gammaMax = l.gamma

variable [LawfulScalar α] {c : LearnerConfig α} {l : Learner α}

/-- Whatever is done to a learner leaves its risk aversion settled. -/
theorem Settled.act (hbounds : l.config.gammaMin ≤ l.config.gammaMax) (h : l.Settled) (a : Act α) :
    (l.act a).Settled := by
  cases a with
  | update s =>
    change (l.update s).1.Settled
    cases haccepts : l.accepts s with
    | false =>
      rw [update_of_refused haccepts]
      exact h
    | true =>
      rw [update_eq_of_accepts haccepts]
      split
      · exact h
      · exact clamp_clamp hbounds _
  | reset => exact clamp_clamp hbounds _

theorem Settled.run (hbounds : l.config.gammaMin ≤ l.config.gammaMax) (h : l.Settled)
    (acts : List (Act α)) : (l.run acts).Settled := by
  induction acts generalizing l with
  | nil => exact h
  | cons a rest ih =>
    have hconfig : (l.act a).config = l.config := by
      cases a with
      | update s => exact config_update l s
      | reset => rfl
    exact ih (by rwa [hconfig]) (h.act hbounds a)

/-! ## Checkpoints -/

/-- **A sound learner can be created anew**, from where it is. -/
theorem create_startingFrom (hfault : fault? c = none) (hl : l.Sound c) (h : l.Settled) :
    create { c with initialGamma := l.gamma } l.memory = .ok (l.startingFrom l.gamma) := by
  obtain rfl := hl.config
  obtain ⟨hbounds, -, hrest⟩ := fault?_eq_none_iff.mp hfault
  have hmin : 0 < l.config.gammaMin := by
    rw [validBounds, Bool.and_assoc, Bool.and_eq_true, decide_eq_true_iff] at hbounds
    exact hbounds.1
  have hpositive : isPositive l.gamma = true :=
    Bool.and_eq_true_iff.mpr ⟨hl.finite, decide_eq_true (lt_of_lt_of_le hmin hl.lower)⟩
  have haccepted : fault? { l.config with initialGamma := l.gamma } = none :=
    fault?_eq_none_iff.mpr ⟨hbounds, hpositive, hrest⟩
  have hstart : startGamma { l.config with initialGamma := l.gamma } = l.gamma := h
  rw [create, haccepted, hstart]
  rfl

/-- **Resuming a learner.** Take any accepted configuration and any sound memory to start with, and
do anything to the learner. Whenever it is created anew from the risk aversion and the memory that
it has by then, the configuration is accepted, and from there on both learn and log the same: after
any further samples they have the same risk aversion, memory and figures, and have the same to say
about the next one. -/
theorem resume_checkpoint {memory : Memory α} (hcreate : create c memory = .ok l)
    (hmemory : memory.Sound) (acts : List (Act α)) :
    ∃ resumed, create { c with initialGamma := (l.run acts).gamma } (l.run acts).memory =
      .ok resumed ∧
      ∀ samples, (resumed.after samples).gamma = ((l.run acts).after samples).gamma ∧
        (resumed.after samples).memory = ((l.run acts).after samples).memory ∧
        (resumed.after samples).statistics = ((l.run acts).after samples).statistics ∧
        ∀ s, ((resumed.after samples).update s).2 = (((l.run acts).after samples).update s).2 := by
  obtain ⟨hc, hstart⟩ := Sound.of_create hcreate hmemory
  obtain ⟨hfault, rfl⟩ := create_spec hcreate
  have hsettled : Settled ⟨c, startGamma c, memory⟩ := clamp_clamp hc.bounds c.initialGamma
  refine ⟨_, create_startingFrom hfault (hstart.run hc acts) (hsettled.run hc.bounds acts),
    fun samples => ?_⟩
  rw [after_startingFrom]
  exact ⟨rfl, rfl, rfl, fun s => by rw [update_startingFrom]⟩

/-- A learner that was told a sample, was reset and was told another one can be resumed. -/
theorem resume_checkpoint_plainSample :
    let l : Learner Extended := ⟨coarse, startGamma coarse, .empty⟩
    let acts := [.update (plainSample 1), .reset, .update (plainSample 2)]
    create coarse = .ok l ∧ (Memory.empty : Memory Extended).Sound ∧
      ∃ resumed, create { coarse with initialGamma := (l.run acts).gamma } (l.run acts).memory =
        .ok resumed ∧
        (resumed.after [plainSample 3]).gamma = ((l.run acts).after [plainSample 3]).gamma ∧
        (resumed.after [plainSample 3]).memory = ((l.run acts).after [plainSample 3]).memory := by
  intro l acts
  obtain ⟨resumed, hresumed, hsame⟩ := resume_checkpoint create_coarse Memory.sound_empty acts
  obtain ⟨hgamma, hmemory, -⟩ := hsame [plainSample 3]
  exact ⟨create_coarse, Memory.sound_empty, resumed, hresumed, hgamma, hmemory⟩

end Learner

end MarketMaker.Gamma
