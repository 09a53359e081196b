import MarketMaker.Proofs.Gamma.Reference

/-!
# No profit is lost or counted twice

A learner is told the profit so far with every sample, and rewards the profit that was made since
the sample that it accepted last. Samples that it ignores or discards come in between.

The **ledger** lists the samples that are accepted, each with the reward that it earned, also after
the window has forgotten the reward. An entry **books** the profit in its reward: the reward without
the penalty on inventory and the bonus for spread efficiency. The first entry books nothing, and
each further one the profit since the entry before it. So what is booked in a whole ledger is the
last profit less the first one.
-/

namespace MarketMaker.Gamma

open Scalar LawfulScalar StrictScalar AbsorbingScalar

variable {α : Type} [Scalar α]

namespace Learner

/-! ## The ledger -/

/-- An accepted sample, and the reward that it earned. -/
structure Entry (α : Type) where
  /-- The sample. -/
  sample : Sample α
  /-- The reward. -/
  reward : α

/-- The samples that a learner accepts one after the other, each with its reward. -/
def ledger (l : Learner α) : List (Sample α) → List (Entry α)
  | [] => []
  | s :: rest =>
    if l.accepts s then ⟨s, reward l.config l.memory s⟩ :: (l.update s).1.ledger rest
    else (l.update s).1.ledger rest

/-- The profit in the reward of an entry. -/
def Entry.booked (value : α → ℝ) (c : LearnerConfig α) (e : Entry α) : ℝ :=
  value e.reward + value c.inventoryPenalty * value (abs e.sample.inventoryDeviation) -
    value c.spreadEfficiencyWeight * value e.sample.spreadEfficiency

variable {c : LearnerConfig α} {l : Learner α} {m : Memory α} {s : Sample α}
  {samples : List (Sample α)}

theorem ledger_of_accepts (h : l.accepts s = true) (rest : List (Sample α)) :
    l.ledger (s :: rest) = ⟨s, reward l.config l.memory s⟩ :: (l.update s).1.ledger rest := if_pos h

/-- A sample that is not accepted is as good as not told. -/
theorem ledger_of_refused (h : l.accepts s = false) (rest : List (Sample α)) :
    l.ledger (s :: rest) = l.ledger rest := by
  rw [ledger, h, update_of_refused h]
  rfl

/-- What is booked altogether. -/
theorem sum_booked (value : α → ℝ) (c : LearnerConfig α) (entries : List (Entry α)) :
    (entries.map (Entry.booked value c)).sum =
      (entries.map fun e => value e.reward).sum +
        value c.inventoryPenalty *
          (entries.map fun e => value (abs e.sample.inventoryDeviation)).sum -
        value c.spreadEfficiencyWeight *
          (entries.map fun e => value e.sample.spreadEfficiency).sum := by
  induction entries with
  | nil => simp
  | cons e rest ih =>
    simp only [List.map_cons, List.sum_cons, ih, Entry.booked]
    ring

/-! ## The rewards in the window -/

/-- The window holds the last rewards of the ledger, as many as fit. -/
theorem rewards_after (hwindow : ¬ l.config.rewardWindow < 0) {seen : List α}
    (hseen : l.memory.rewards = inWindow l.config.rewardWindow seen) (samples : List (Sample α)) :
    (l.after samples).memory.rewards =
      inWindow l.config.rewardWindow (seen ++ (l.ledger samples).map (·.reward)) := by
  induction samples generalizing l seen with
  | nil =>
    rw [ledger, List.map_nil, List.append_nil]
    exact hseen
  | cons s rest ih =>
    rw [after_cons]
    cases haccepts : l.accepts s with
    | false =>
      rw [update_of_refused haccepts, ledger_of_refused haccepts]
      exact ih hwindow hseen
    | true =>
      have hconfig := config_update l s
      have hrewards : (l.update s).1.memory.rewards =
          inWindow l.config.rewardWindow (seen ++ [reward l.config l.memory s]) := by
        rw [rewards_update haccepts, hseen, latest_inWindow hwindow]
      rw [← hconfig] at hwindow hrewards
      rw [ih hwindow hrewards, hconfig, ledger_of_accepts haccepts,
        List.map_cons, List.append_assoc, List.singleton_append]

/-! ## What is booked -/

variable [AbsorbingScalar α] {value : α → ℝ}

/-- **One reward.** A finite one is made up of the profit since the last one, the penalty and the
bonus, all of them finite; before there is a profit to compare with, of the penalty and the bonus
alone. -/
theorem booked_reward (hexact : IsExactField value) (h : isFinite (reward c m s) = true) :
    Entry.booked value c ⟨s, reward c m s⟩ = m.lastPnl.elim 0 fun last =>
      value s.realizedPnl - value last := by
  obtain ⟨hsum, hbonus⟩ := isFinite_of_add h
  obtain ⟨hprofit, hcost⟩ := isFinite_of_add hsum
  obtain ⟨hnegated, hdeviation⟩ := isFinite_of_mul hcost
  obtain ⟨hweight, hefficiency⟩ := isFinite_of_mul hbonus
  have hpenalty := isFinite_of_neg hnegated
  rw [Entry.booked, reward, hexact.value_add hsum hbonus, hexact.value_add hprofit hcost,
    hexact.value_mul hnegated hdeviation, hexact.value_neg hpenalty,
    hexact.value_mul hweight hefficiency]
  cases hlast : m.lastPnl with
  | none =>
    simp only [Option.elim_none, hexact.value_zero]
    ring
  | some last =>
    rw [hlast] at hprofit
    obtain ⟨hnow, hbefore⟩ := isFinite_of_sub hprofit
    simp only [Option.elim_some, hexact.value_sub hnow hbefore]
    ring

/-- **A learner that knows a profit** books how far the profit moves from there. -/
theorem sum_booked_ledger (hexact : IsExactField value) {last : α}
    (hlast : l.memory.lastPnl = some last) (samples : List (Sample α)) :
    ∃ final, (l.after samples).memory.lastPnl = some final ∧
      ((l.ledger samples).map (Entry.booked value l.config)).sum = value final - value last := by
  induction samples generalizing l last with
  | nil => exact ⟨last, hlast, (sub_self (value last)).symm⟩
  | cons s rest ih =>
    cases haccepts : l.accepts s with
    | false =>
      rw [after_cons, update_of_refused haccepts, ledger_of_refused haccepts]
      exact ih hlast
    | true =>
      obtain ⟨hconfig, hremembered, -, -⟩ := update_remembers haccepts
      obtain ⟨final, hfinal, hsum⟩ := ih hremembered
      refine ⟨final, hfinal, ?_⟩
      rw [hconfig] at hsum
      rw [ledger_of_accepts haccepts, List.map_cons, List.sum_cons, hsum,
        booked_reward hexact (Bool.and_eq_true_iff.mp haccepts).2, hlast, Option.elim_some]
      ring

/-- A ledger starts with the first sample that is accepted, and books nothing for it. -/
theorem sum_booked_of_none (hexact : IsExactField value) (hnone : l.memory.lastPnl = none)
    {first : Entry α} {rest : List (Entry α)} (hledger : l.ledger samples = first :: rest) :
    ∃ final, (l.after samples).memory.lastPnl = some final ∧
      ((l.ledger samples).map (Entry.booked value l.config)).sum =
        value final - value first.sample.realizedPnl := by
  induction samples with
  | nil => cases hledger
  | cons s later ih =>
    cases haccepts : l.accepts s with
    | false =>
      rw [ledger_of_refused haccepts] at hledger ⊢
      rw [after_cons, update_of_refused haccepts]
      exact ih hledger
    | true =>
      rw [ledger_of_accepts haccepts] at hledger ⊢
      obtain ⟨rfl, -⟩ := List.cons_eq_cons.mp hledger
      obtain ⟨hconfig, hremembered, -, -⟩ := update_remembers haccepts
      obtain ⟨final, hfinal, hsum⟩ := sum_booked_ledger hexact hremembered later
      refine ⟨final, hfinal, ?_⟩
      rw [hconfig] at hsum
      rw [List.map_cons, List.sum_cons, hsum,
        booked_reward hexact (Bool.and_eq_true_iff.mp haccepts).2, hnone,
        Option.elim_none, zero_add]

/-- **Profit is conserved.** Take any accepted configuration, start with an empty memory, and give
the learner samples of whatever figures, of which it accepts at least one. The rewards in its window
are the last ones of its ledger, as many as fit. Where arithmetic is exact, the rewards of the whole
ledger, with the penalties put back and the bonuses taken off, add up to the profit that the learner
knows in the end, less the profit of the first sample that it accepted. -/
theorem profit_conserved (hcreate : create c = .ok l) {first : Entry α} {rest : List (Entry α)}
    (hledger : l.ledger samples = first :: rest) (hexact : IsExactField value) :
    (l.after samples).memory.rewards = inWindow c.rewardWindow ((l.ledger samples).map (·.reward)) ∧
      ∃ last, (l.after samples).memory.lastPnl = some last ∧
        ((l.ledger samples).map fun e => value e.reward).sum +
            value c.inventoryPenalty *
              ((l.ledger samples).map fun e => value (abs e.sample.inventoryDeviation)).sum -
            value c.spreadEfficiencyWeight *
              ((l.ledger samples).map fun e => value e.sample.spreadEfficiency).sum =
          value last - value first.sample.realizedPnl := by
  obtain ⟨hfault, rfl⟩ := create_spec hcreate
  obtain ⟨-, -, -, -, hone⟩ := fault?_eq_none_iff.mp hfault
  have hwindow : ¬ c.rewardWindow < 0 := fun hlt => hone (lt_of_lt_of_le hlt (le_of_lt zero_lt_one))
  obtain ⟨last, hlast, hsum⟩ := sum_booked_of_none hexact rfl hledger
  have hempty : (⟨c, startGamma c, .empty⟩ : Learner α).memory.rewards =
      inWindow c.rewardWindow [] := rfl
  refine ⟨rewards_after (l := ⟨c, startGamma c, .empty⟩) hwindow hempty samples, last, hlast, ?_⟩
  rw [← sum_booked]
  exact hsum

open Extended in
/-- A configuration with a penalty on inventory. -/
noncomputable def penalizing : LearnerConfig Extended :=
  { coarse with inventoryPenalty := number (2 : ℝ) }

theorem create_penalizing :
    create penalizing = .ok ⟨penalizing, startGamma penalizing, .empty⟩ := by
  have hfault : fault? penalizing = none := (create_spec create_coarse).1
  rw [create, hfault]

open Extended in
/-- A sample of real figures at a time. -/
noncomputable def realSample (profit deviation efficiency at_ : ℝ) : Sample Extended where
  realizedPnl := number profit
  inventoryDeviation := number deviation
  volatility := number (1 : ℝ)
  spreadEfficiency := number efficiency
  timestamp := number at_

theorem isStale_realSample {m : Memory Extended} {before : ℝ}
    (hlast : m.lastUpdateAt = some (.number before)) (profit deviation efficiency at_ : ℝ) :
    isStale m (realSample profit deviation efficiency at_) = true ↔ at_ ≤ before := by
  rw [isStale, hlast]
  exact decide_eq_true_iff.trans EReal.coe_le_coe_iff

/-- A real sample is accepted where it is fresh and the memory is clear. -/
theorem accepts_realSample {l : Learner Extended} (hconfig : l.config = penalizing)
    (hclear : l.memory.Clear) {profit deviation efficiency at_ : ℝ}
    (hfresh : isStale l.memory (realSample profit deviation efficiency at_) = false) :
    l.accepts (realSample profit deviation efficiency at_) = true := by
  have hfinite (r : ℝ) := Extended.isFinite_number r
  rw [accepts, hfresh, hconfig]
  exact isFinite_reward Extended.isExactField (hfinite _) (hfinite _)
    (fun last hlast => Extended.isExactField.isFinite_sub (hfinite _) (hclear last hlast))
      (hfinite _) (hfinite _)

/-- After a real sample that was accepted every later real sample is accepted. -/
theorem accepts_later_realSample {l : Learner Extended} (hconfig : l.config = penalizing)
    {profit deviation efficiency at_ later : ℝ}
    (haccepts : l.accepts (realSample profit deviation efficiency at_) = true)
    (hlater : at_ < later) (profit' deviation' efficiency' : ℝ) :
    (l.update (realSample profit deviation efficiency at_)).1.accepts
      (realSample profit' deviation' efficiency' later) = true := by
  obtain ⟨hkept, hremembered, hat, -⟩ := update_remembers haccepts
  refine accepts_realSample (hkept.trans hconfig) (fun last hlast => ?_) ?_
  · obtain rfl := Option.some.inj (hremembered.symm.trans hlast)
    exact Extended.isFinite_number profit
  · rw [← Bool.not_eq_true, isStale_realSample hat, not_le]
    exact hlater

/-- Of three samples, the second of which is stale, two are accepted. Their profits go from five to
eight. -/
theorem profit_conserved_realSample :
    let l : Learner Extended := ⟨penalizing, startGamma penalizing, .empty⟩
    let samples := [realSample 5 (-1) 1 1, realSample 9 0 0 1, realSample 8 3 1 2]
    create penalizing = .ok l ∧
      (∃ first second, l.ledger samples = [first, second] ∧ first.sample = realSample 5 (-1) 1 1) ∧
      ((l.ledger samples).map fun e => e.reward.value).sum +
          penalizing.inventoryPenalty.value *
            ((l.ledger samples).map fun e => (abs e.sample.inventoryDeviation).value).sum -
          penalizing.spreadEfficiencyWeight.value *
            ((l.ledger samples).map fun e => e.sample.spreadEfficiency.value).sum =
        8 - 5 := by
  intro l samples
  have hfirst : l.accepts (realSample 5 (-1) 1 1) = true :=
    accepts_realSample rfl (by rintro _ ⟨⟩) rfl
  have hthird := accepts_later_realSample rfl hfirst one_lt_two 8 3 1
  obtain ⟨-, -, hat, -⟩ := update_remembers hfirst
  generalize hnext : (l.update (realSample 5 (-1) 1 1)).1 = next at hthird hat
  have hstale : next.accepts (realSample 9 0 0 1) = false := by
    rw [accepts, (isStale_realSample hat 9 0 0 1).mpr le_rfl]
    rfl
  have hledger :
    l.ledger samples = [⟨realSample 5 (-1) 1 1, reward l.config l.memory (realSample 5 (-1) 1 1)⟩,
      ⟨realSample 8 3 1 2, reward next.config next.memory (realSample 8 3 1 2)⟩] := by
    rw [ledger_of_accepts hfirst, hnext, ledger_of_refused hstale, ledger_of_accepts hthird]
    rfl
  obtain ⟨-, last, hlast, hsum⟩ := profit_conserved create_penalizing hledger Extended.isExactField
  obtain ⟨-, hfinal, -, -⟩ := update_remembers hthird
  have hafter : l.after samples = (next.update (realSample 8 3 1 2)).1 := by
    rw [after_cons, hnext, after_cons, update_of_refused hstale, after_cons, after_nil]
  rw [hafter] at hlast
  obtain rfl := Option.some.inj (hlast.symm.trans hfinal)
  exact ⟨create_penalizing, ⟨_, _, hledger, rfl⟩, hsum⟩

end Learner

end MarketMaker.Gamma
