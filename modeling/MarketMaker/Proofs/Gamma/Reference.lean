import MarketMaker.Proofs.Analysis
import MarketMaker.Proofs.Gamma.Profit

/-!
# What a learner knows is what it accepted

A learner keeps a window of rewards and a few figures, and overwrites them with every sample.
Everything about it can be told, all the same, from the list of the samples that it accepted since
it was last reset.

* A sample **earns** the profit since the sample accepted before it, less a penalty on inventory,
  plus a bonus for spread efficiency. It is accepted if it is newer than that sample and earns
  something finite.
* Of the rewards earned by then, the window **holds** the last ones, as many as fit.
* The **course** of the risk aversion starts within its bounds and upwards. Each reward but the
  first is compared with the mean of the rewards that the window held before it, and sends the risk
  aversion one step on, or back.

`reference` puts these together to a learner, from the list alone. A sample that is accepted leads
from the reference of a list to the reference of the list with that sample at its end, and so every
run leads to a reference.
-/

namespace MarketMaker.Gamma

open Scalar LawfulScalar

variable {α : Type} [Scalar α]

namespace Learner

/-! ## The reference -/

/-- The reward of a sample, after the sample that was accepted before it. -/
def earned (c : LearnerConfig α) (before : Option (Sample α)) (s : Sample α) : α :=
  let profit := match before with
    | none => 0
    | some b => s.realizedPnl - b.realizedPnl
  profit + -c.inventoryPenalty * abs s.inventoryDeviation +
    c.spreadEfficiencyWeight * s.spreadEfficiency

/-- Whether a sample is accepted after the sample that was accepted before it. -/
def follows (c : LearnerConfig α) (before : Option (Sample α)) (s : Sample α) : Bool :=
  (before.all fun b => decide (b.timestamp < s.timestamp)) && isFinite (earned c before s)

/-- The accepted samples after one more thing was done. -/
def collect (c : LearnerConfig α) (samples : List (Sample α)) : Act α → List (Sample α)
  | .update s => if follows c samples.getLast? s then samples ++ [s] else samples
  | .reset => []

/-- The samples that are accepted since the last reset, the oldest first. -/
def accepted (c : LearnerConfig α) (acts : List (Act α)) : List (Sample α) :=
  acts.foldl (collect c) []

/-- The rewards of samples that are accepted one after the other. -/
def earnings (c : LearnerConfig α) (before : Option (Sample α)) : List (Sample α) → List α
  | [] => []
  | s :: rest => earned c before s :: earnings c (some s) rest

/-- How many of `n` rewards a window holds. -/
def held (window : α) : ℕ → ℕ
  | 0 => 0
  | n + 1 => if window < ((held window n + 1 : ℕ) : α) then held window n else held window n + 1

/-- The rewards that a window holds: the last ones. -/
def inWindow (window : α) (rewards : List α) : List α := rewards.rtake (held window rewards.length)

/-- The natural number, counted up from zero. -/
def tally : ℕ → α
  | 0 => 0
  | n + 1 => tally n + 1

/-- Where the risk aversion is, and the sign of the last step that moved it. -/
structure Course (α : Type) where
  /-- The risk aversion. -/
  gamma : α
  /-- The sign of the last step. -/
  direction : α

/-- The course after a reward was compared with a baseline. A step of zero changes nothing. -/
def Course.turn (c : LearnerConfig α) (p : Course α) (reward baseline : α) : Course α :=
  let step := c.learningRate * sign (reward - baseline) * p.direction
  if same step 0 then p else ⟨clamp (p.gamma + step) c.gammaMin c.gammaMax,
    if 0 < step then 1 else -1⟩

/-- The course after one more reward. The first reward moves nothing. -/
def Course.next (c : LearnerConfig α) (seen : List α) (p : Course α) (reward : α) : Course α :=
  if seen.isEmpty then p else p.turn c reward (Stats.mean (inWindow c.rewardWindow seen))

/-- The course after further rewards, each of which counts as seen for those that follow. -/
def Course.along (c : LearnerConfig α) (seen : List α) (p : Course α) : List α → Course α
  | [] => p
  | r :: rest => (p.next c seen r).along c (seen ++ [r]) rest

/-- The course of the risk aversion over all rewards. -/
def course (c : LearnerConfig α) (rewards : List α) : Course α :=
  Course.along c [] ⟨startGamma c, 1⟩ rewards

/-- The learner that accepted these samples since it was last reset. -/
def reference (c : LearnerConfig α) (samples : List (Sample α)) : Learner α where
  config := c
  gamma := (course c (earnings c none samples)).gamma
  memory :=
    { lastPnl := samples.getLast?.map (·.realizedPnl)
      lastInventoryDeviation := (samples.getLast?.map (·.inventoryDeviation)).getD 0
      rewards := inWindow c.rewardWindow (earnings c none samples)
      updateCount := tally samples.length
      direction := (course c (earnings c none samples)).direction
      lastUpdateAt := samples.getLast?.map (·.timestamp) }

/-! ## One reward more -/

variable {c : LearnerConfig α} {samples : List (Sample α)} {s : Sample α}

theorem earnings_concat (before : Option (Sample α)) (samples : List (Sample α)) (s : Sample α) :
    earnings c before (samples ++ [s]) =
      earnings c before samples ++ [earned c (samples.getLast?.or before) s] := by
  induction samples generalizing before with
  | nil => rfl
  | cons first rest ih =>
    rw [List.cons_append, earnings, ih, List.getLast?_cons, earnings, List.cons_append]
    cases rest.getLast? <;> rfl

theorem along_concat (seen : List α) (p : Course α) (rewards : List α) (r : α) :
    p.along c seen (rewards ++ [r]) = (p.along c seen rewards).next c (seen ++ rewards) r := by
  induction rewards generalizing seen p with
  | nil => rw [List.append_nil]; rfl
  | cons first rest ih =>
    rw [List.cons_append, Course.along, ih, Course.along, List.append_assoc, List.singleton_append]

theorem course_concat (rewards : List α) (r : α) :
    course c (rewards ++ [r]) = (course c rewards).next c rewards r :=
  along_concat [] _ rewards r

/-! ## The window -/

theorem held_le (window : α) (n : ℕ) : held window n ≤ n := by
  induction n with
  | zero => exact le_rfl
  | succ n ih =>
    rw [held]
    split <;> omega

/-- What the window holds fits into it. -/
theorem held_fits {window : α} (hwindow : ¬ window < 0) (n : ℕ) :
    ¬ window < ((held window n : ℕ) : α) := by
  induction n with
  | zero => exact hwindow
  | succ n ih =>
    rw [held]
    split
    · exact ih
    · assumption

/-- Once there are rewards, a window for at least one holds some. -/
theorem held_pos {window : α} (hwindow : ¬ window < 1) (n : ℕ) : 0 < held window (n + 1) := by
  induction n with
  | zero =>
    rw [held]
    exact Nat.one_pos.trans_eq (if_neg hwindow).symm
  | succ n ih =>
    rw [held]
    split <;> omega

theorem length_inWindow (window : α) (rewards : List α) :
    (inWindow window rewards).length = held window rewards.length := by
  rw [inWindow, List.rtake, List.length_drop]
  exact Nat.sub_sub_self (held_le window rewards.length)

theorem isEmpty_inWindow {window : α} (hwindow : ¬ window < 1) (rewards : List α) :
    (inWindow window rewards).isEmpty = rewards.isEmpty := by
  cases rewards with
  | nil => rfl
  | cons first rest =>
    have hpos : 0 < (inWindow window (first :: rest)).length := by
      rw [length_inWindow]
      exact held_pos hwindow rest.length
    rw [List.isEmpty_cons, List.isEmpty_eq_false_iff]
    exact List.ne_nil_of_length_pos hpos

theorem latest_of_fits {window : α} {rewards : List α} (hfits : ¬ window < (rewards.length : α)) :
    latest window rewards = rewards := by
  cases rewards with
  | nil => rfl
  | cons first rest => exact if_neg hfits

/-- **One reward more.** The oldest reward of the window makes room for it, if there is no room
left. -/
theorem latest_inWindow {window : α} (hwindow : ¬ window < 0) (rewards : List α) (r : α) :
    latest window (inWindow window rewards ++ [r]) = inWindow window (rewards ++ [r]) := by
  have hle := held_le window rewards.length
  have hfits := held_fits hwindow rewards.length
  generalize hm : held window rewards.length = m at hle hfits
  have hdrop : inWindow window rewards ++ [r] = (rewards ++ [r]).drop (rewards.length - m) := by
    rw [inWindow, List.rtake, hm, List.drop_append_of_le_length (Nat.sub_le _ _)]
  obtain ⟨first, rest, hcons⟩ :
      ∃ first rest, (rewards ++ [r]).drop (rewards.length - m) = first :: rest := by
    refine List.exists_cons_of_length_pos ?_
    rw [List.length_drop, List.length_append, List.length_singleton]
    omega
  have hlength : rest.length = m := by
    have h := congrArg List.length hcons
    rw [List.length_drop, List.length_append, List.length_singleton, List.length_cons] at h
    omega
  have htail : rest = (rewards ++ [r]).drop (rewards.length - m + 1) := by
    rw [← List.tail_drop, hcons, List.tail_cons]
  rw [hdrop, hcons, latest, hlength, inWindow, List.rtake, List.length_append,
    List.length_singleton, held, hm]
  by_cases hfull : window < ((m + 1 : ℕ) : α)
  · rw [if_pos hfull, if_pos hfull, latest_of_fits (by rwa [hlength]), htail]
    congr 1
    omega
  · rw [if_neg hfull, if_neg hfull, Nat.add_sub_add_right, hcons]

/-! ## One sample more -/

theorem reward_reference (samples : List (Sample α)) (s : Sample α) :
    reward c (reference c samples).memory s = earned c samples.getLast? s := by
  unfold reward earned
  cases h : samples.getLast? <;> simp only [reference, h, Option.map_none, Option.map_some]

variable [StrictScalar α]

theorem isStale_reference (hs : IsNumber s.timestamp)
    (hsamples : ∀ b ∈ samples, IsNumber b.timestamp) :
    isStale (reference c samples).memory s = !samples.getLast?.all fun b =>
      decide (b.timestamp < s.timestamp) := by
  cases h : samples.getLast? with
  | none => simp only [isStale, reference, h, Option.map_none, Option.all_none, Bool.not_true]
  | some b =>
    have hb := hsamples b (List.mem_of_getLast? h)
    have hiff : s.timestamp ≤ b.timestamp ↔ ¬ b.timestamp < s.timestamp :=
      ⟨fun hle hlt => not_le_of_lt hlt hle, le_of_not_lt hb hs⟩
    simp only [isStale, reference, h, Option.map_some, Option.all_some, hiff, decide_not]

/-- A learner accepts what follows upon the samples that it accepted. -/
theorem accepts_reference (hs : IsNumber s.timestamp)
    (hsamples : ∀ b ∈ samples, IsNumber b.timestamp) :
    accepts (reference c samples) s = follows c samples.getLast? s := by
  have hreward : reward (reference c samples).config (reference c samples).memory s =
      earned c samples.getLast? s :=
    reward_reference samples s
  rw [accepts, follows, isStale_reference hs hsamples, Bool.not_not, hreward]

/-- Of the memory, only the direction is not settled once the sample is remembered. -/
theorem remember_reference (hwindow : ¬ c.rewardWindow < 0) (samples : List (Sample α))
    (s : Sample α) :
    remember c (reference c samples).memory s (earned c samples.getLast? s) =
      { (reference c (samples ++ [s])).memory with
        direction := (reference c samples).memory.direction } := by
  simp only [remember, reference, StrictScalar.filled?_eq_some, latest_inWindow hwindow,
    earnings_concat, Option.or_none, List.getLast?_concat, List.length_append,
    List.length_singleton, tally, Option.map_some, Option.getD_some]

/-- **One sample more.** -/
theorem update_reference (hwindow : ¬ c.rewardWindow < 0) (hone : ¬ c.rewardWindow < 1)
    (h : accepts (reference c samples) s = true) :
    ((reference c samples).update s).1 = reference c (samples ++ [s]) := by
  have hconfig : (reference c samples).config = c := rfl
  have hempty : (reference c samples).memory.rewards.isEmpty = (earnings c none samples).isEmpty :=
    isEmpty_inWindow hone _
  have hcourse : course c (earnings c none (samples ++ [s])) =
      (course c (earnings c none samples)).next c (earnings c none samples)
        (earned c samples.getLast? s) := by
    rw [earnings_concat, Option.or_none, course_concat]
  have hstep : step c (reference c samples).memory (earned c samples.getLast? s) =
      c.learningRate *
        sign (earned c samples.getLast? s - Stats.mean
          (inWindow c.rewardWindow (earnings c none samples))) *
        (course c (earnings c none samples)).direction := rfl
  rw [update_eq_of_accepts h]
  simp only [hconfig, reward_reference, hempty, remember_reference hwindow]
  by_cases hfirst : (earnings c none samples).isEmpty = true
  · rw [Course.next, if_pos hfirst] at hcourse
    simp only [hfirst, Bool.true_or, if_true, reference, hcourse]
  · rw [Course.next, if_neg hfirst, Course.turn, ← hstep] at hcourse
    generalize step c (reference c samples).memory (earned c samples.getLast? s) = d at hcourse
    by_cases hzero : same d 0 = true
    · rw [if_pos hzero] at hcourse
      simp only [hzero, Bool.or_true, if_true, reference, hcourse]
    · rw [if_neg hzero] at hcourse
      simp only [hfirst, hzero, Bool.or_false, Bool.false_eq_true, if_false,
        move, reference, hcourse]

/-! ## Runs -/

omit [StrictScalar α] in
theorem collect_cases (samples : List (Sample α)) (s : Sample α) :
    collect c samples (.update s) = samples ∨ collect c samples (.update s) = samples ++ [s] := by
  by_cases h : follows c samples.getLast? s = true
  · exact .inr (if_pos h)
  · exact .inl (if_neg h)

/-- Whatever is done to the learner of a list, it becomes the learner of the list collected from
it. -/
theorem act_reference (hwindow : ¬ c.rewardWindow < 0) (hone : ¬ c.rewardWindow < 1) {a : Act α}
    (ha : ∀ s, a = .update s → IsNumber s.timestamp)
    (hsamples : ∀ b ∈ samples, IsNumber b.timestamp) :
    (reference c samples).act a = reference c (collect c samples a) := by
  cases a with
  | update s =>
    have haccepts := accepts_reference (c := c) (ha s rfl) hsamples
    rw [act, collect, ← haccepts]
    cases hcase : (reference c samples).accepts s with
    | true => exact update_reference hwindow hone hcase
    | false => exact update_of_refused hcase
  | reset => rfl

theorem run_reference (hwindow : ¬ c.rewardWindow < 0) (hone : ¬ c.rewardWindow < 1)
    {acts : List (Act α)} (hacts : ∀ s, .update s ∈ acts → IsNumber s.timestamp)
    (hsamples : ∀ b ∈ samples, IsNumber b.timestamp) :
    (reference c samples).run acts = reference c (acts.foldl (collect c) samples) := by
  induction acts generalizing samples with
  | nil => rfl
  | cons a rest ih =>
    have hcollected : ∀ b ∈ collect c samples a, IsNumber b.timestamp := by
      intro b hb
      cases a with
      | update s =>
        rcases collect_cases (c := c) samples s with h | h
        · exact hsamples b (h ▸ hb)
        · rcases List.mem_append.mp (h ▸ hb) with hold | hnew
          · exact hsamples b hold
          · rw [List.mem_singleton.mp hnew]
            exact hacts s List.mem_cons_self
      | reset => cases hb
    rw [run, List.foldl_cons, List.foldl_cons,
      act_reference hwindow hone (fun s h => hacts s (h ▸ List.mem_cons_self)) hsamples]
    exact ih (fun s hs => hacts s (List.mem_cons_of_mem a hs)) hcollected

/-! ## Exact arithmetic -/

omit [StrictScalar α] in
theorem held_eq_min {window : α} {k : ℕ} (h : ∀ n : ℕ, window < (n : α) ↔ k < n) (n : ℕ) :
    held window n = min n k := by
  induction n with
  | zero => exact (Nat.zero_min k).symm
  | succ n ih =>
    simp only [held, ih, h]
    split <;> omega

section Exact

variable {value : α → ℝ} (hexact : IsExactAnalysis value)

include hexact

/-- A window is as wide as a natural number says. -/
theorem exists_window (hfault : fault? c = none) :
    ∃ k : ℕ, value c.rewardWindow = k ∧ ∀ n : ℕ, c.rewardWindow < (n : α) ↔ k < n := by
  obtain ⟨-, -, -, hwhole, hone⟩ := fault?_eq_none_iff.mp hfault
  have hdenotes := denotes_value value (Bool.and_eq_true_iff.mp hwhole).1
  have hfloor := (hexact.isWhole_iff hdenotes).mp hwhole
  have hle : 1 ≤ value c.rewardWindow := by
    rw [← not_lt]
    exact fun hlt => hone ((hexact.lt_iff_lt hdenotes hexact.one).mpr hlt)
  obtain ⟨k, hvalue⟩ : ∃ k : ℕ, value c.rewardWindow = k := by
    refine ⟨⌊value c.rewardWindow⌋.toNat, ?_⟩
    rw [← Int.cast_natCast, Int.toNat_of_nonneg (Int.floor_nonneg.mpr (zero_le_one.trans hle)),
      hfloor]
  refine ⟨k, hvalue, fun n => ?_⟩
  rw [hexact.lt_iff_lt hdenotes (hexact.natCast n), hvalue, Nat.cast_lt]

omit [StrictScalar α] in
theorem denotes_tally (n : ℕ) : Denotes value (tally n : α) n := by
  induction n with
  | zero =>
    rw [Nat.cast_zero]
    exact hexact.zero
  | succ n ih =>
    rw [Nat.cast_succ]
    exact hexact.add ih hexact.one

/-- What a sample of finite figures earns. -/
theorem denotes_earned (hpenalty : isFinite c.inventoryPenalty = true)
    (hweight : isFinite c.spreadEfficiencyWeight = true) {before : Option (Sample α)}
    (hbefore : ∀ b ∈ before, isFinite b.realizedPnl = true) (hs : s.Finite) :
    Denotes value (earned c before s)
      (before.elim 0 (fun b => value s.realizedPnl - value b.realizedPnl) -
      value c.inventoryPenalty * |value s.inventoryDeviation| +
      value c.spreadEfficiencyWeight * value s.spreadEfficiency) := by
  have hdeviation := hexact.abs (denotes_value value hs.inventoryDeviation)
  have hcost := hexact.mul (hexact.neg (denotes_value value hpenalty)) hdeviation
  have hbonus := hexact.mul (denotes_value value hweight) (denotes_value value hs.spreadEfficiency)
  rw [sub_eq_add_neg, ← neg_mul]
  cases before with
  | none => exact hexact.add (hexact.add hexact.zero hcost) hbonus
  | some b =>
    have hprofit :=
      hexact.sub (denotes_value value hs.realizedPnl) (denotes_value value (hbefore b rfl))
    exact hexact.add (hexact.add hprofit hcost) hbonus

end Exact

/-! ## The whole of it -/

/-- **A learner is what it accepted.** Take any accepted configuration, start with an empty memory,
and do whatever to the learner, with samples whose timestamps are numbers. It then is the reference
of the samples that were accepted since the last reset: its rewards, its count, its direction and
its risk aversion are a function of these samples alone.

Where arithmetic is exact, a window for `k` rewards holds the last `k` of them, or all if there are
fewer; the count is the number of the samples; and a sample of finite figures earns exactly what the
formula says. -/
theorem run_eq_reference {l : Learner α} (hcreate : create c = .ok l) {acts : List (Act α)}
    (hacts : ∀ s, .update s ∈ acts → IsNumber s.timestamp) :
    l.run acts = reference c (accepted c acts) ∧ ∀ value : α → ℝ, IsExactAnalysis value →
      (∃ k : ℕ, value c.rewardWindow = k ∧
        ∀ rewards : List α, inWindow c.rewardWindow rewards =
          rewards.rtake (min rewards.length k)) ∧
      (∀ n : ℕ, value (tally n : α) = n) ∧
      (isFinite c.inventoryPenalty = true → isFinite c.spreadEfficiencyWeight = true →
        ∀ (before : Option (Sample α)) (s : Sample α),
          (∀ b ∈ before, isFinite b.realizedPnl = true) → s.Finite →
          value (earned c before s) =
            before.elim 0 (fun b => value s.realizedPnl - value b.realizedPnl) -
            value c.inventoryPenalty * |value s.inventoryDeviation| +
            value c.spreadEfficiencyWeight * value s.spreadEfficiency) := by
  obtain ⟨hfault, rfl⟩ := create_spec hcreate
  obtain ⟨-, -, -, -, hone⟩ := fault?_eq_none_iff.mp hfault
  refine ⟨?_, fun value hexact => ⟨?_, fun n => (denotes_tally hexact n).value_eq, ?_⟩⟩
  · have hwindow : ¬ c.rewardWindow < 0 :=
      fun hlt => hone (lt_of_lt_of_le hlt (le_of_lt zero_lt_one))
    have hstart : (⟨c, startGamma c, .empty⟩ : Learner α) = reference c [] := rfl
    rw [hstart]
    exact run_reference hwindow hone hacts (List.forall_mem_nil _)
  · obtain ⟨k, hvalue, hiff⟩ := exists_window hexact hfault
    refine ⟨k, hvalue, fun rewards => ?_⟩
    rw [inWindow, held_eq_min hiff]
  · intro hpenalty hweight before s hbefore hs
    exact (denotes_earned hexact hpenalty hweight hbefore hs).value_eq

/-- Two samples of finite figures, one after the other: both are accepted, and they are counted. -/
theorem run_eq_reference_plainSample :
    create coarse = .ok ⟨coarse, startGamma coarse, .empty⟩ ∧
      run ⟨coarse, startGamma coarse, .empty⟩ [.update (plainSample 1), .update (plainSample 2)] =
        reference coarse [plainSample 1, plainSample 2] ∧
      (run ⟨coarse, startGamma coarse, .empty⟩
        [.update (plainSample 1), .update (plainSample 2)]).memory.updateCount.value = 2 := by
  have hearned (before : Option (Sample Extended))
      (hbefore : ∀ b ∈ before, isFinite b.realizedPnl = true) (n : ℕ) :
      isFinite (earned coarse before (plainSample n)) = true :=
    (denotes_earned Extended.isExactAnalysis (Extended.isFinite_number _)
      (Extended.isFinite_number _) hbefore (plainSample_finite n)).finite
  have hnewer : (plainSample 1).timestamp < (plainSample 2).timestamp := by
    simp only [plainSample, Extended.lt_number, EReal.coe_lt_coe_iff]
    norm_num
  have haccepted : accepted coarse [.update (plainSample 1), .update (plainSample 2)] =
      [plainSample 1, plainSample 2] := by
    have hfirst := hearned none (fun b hb => by cases hb) 1
    have hsecond :=
      hearned (some (plainSample 1)) (fun b hb => by cases hb; exact Extended.isFinite_number _) 2
    simp [accepted, collect, follows, hfirst, hsecond, hnewer]
  have hacts (s : Sample Extended)
      (hs : .update s ∈ [Act.update (plainSample 1), Act.update (plainSample 2)]) :
      IsNumber s.timestamp := by
    simp only [List.mem_cons, Act.update.injEq, List.not_mem_nil, or_false] at hs
    rcases hs with rfl | rfl
    · exact isNumber_of_isFinite (plainSample_finite 1).timestamp
    · exact isNumber_of_isFinite (plainSample_finite 2).timestamp
  obtain ⟨hrun, hreading⟩ := run_eq_reference create_coarse hacts
  obtain ⟨-, htally, -⟩ := hreading Extended.value Extended.isExactAnalysis
  rw [haccepted] at hrun
  refine ⟨create_coarse, hrun, ?_⟩
  rw [hrun]
  exact htally 2

end Learner

end MarketMaker.Gamma
