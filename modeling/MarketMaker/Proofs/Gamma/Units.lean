import MarketMaker.Proofs.Gamma.Conservation
import MarketMaker.Proofs.Pricing.Finiteness

/-!
# Learning in another unit

Profits can be counted in another unit and from another origin. A figure is **rescaled** when it is
multiplied by the unit and moved by the origin; one that is not finite stays one that is not.

What a learner is told in another unit it computes with in that unit: differences of profits lose
the origin, and rewards and their mean are multiplied by the unit. The sign of an improvement is
left as it was, and nothing but the sign moves the risk aversion. So two learners that are told the
same in different units stay **in step**.
-/

namespace MarketMaker

open Scalar LawfulScalar StrictScalar AbsorbingScalar

variable {α : Type} [Scalar α] {value : α → ℝ} {unit origin : ℝ} {x x' y y' : α}

/-! ## Rescaled figures -/

/-- A figure, and the same figure in another unit and from another origin. -/
structure Rescaled (value : α → ℝ) (unit origin : ℝ) (x x' : α) : Prop where
  /-- The two figures are finite together. -/
  finite_iff : isFinite x' = true ↔ isFinite x = true
  /-- A finite figure is converted by the unit and the origin. -/
  value_eq : isFinite x = true → value x' = unit * value x + origin

namespace Rescaled

variable (hexact : IsExactAnalysis value)

include hexact

theorem zero : Rescaled value unit 0 0 0 where
  finite_iff := Iff.rfl
  value_eq _ := by rw [hexact.value_zero, mul_zero, add_zero]

/-- Divided by the same number. -/
theorem div_natCast {n : ℕ} (hn : n ≠ 0) (hx : Rescaled value unit 0 x x') :
    Rescaled value unit 0 (x / (n : α)) (x' / (n : α)) := by
  have hnat := hexact.isFinite_natCast n
  have hne : value (n : α) ≠ 0 := by
    rw [hexact.value_natCast]
    exact Nat.cast_ne_zero.mpr hn
  have hquotient (z : α) : isFinite (z / (n : α)) = true ↔ isFinite z = true :=
    ⟨hexact.isFinite_of_div hnat, fun hz => hexact.isFinite_div hz hnat hne⟩
  refine ⟨by rw [hquotient, hquotient, hx.finite_iff], fun h => ?_⟩
  rw [hquotient] at h
  rw [hexact.value_div (hx.finite_iff.mpr h) hnat hne, hexact.value_div h hnat hne, hx.value_eq h]
  ring

variable [AbsorbingScalar α]

theorem add (hx : Rescaled value unit 0 x x') (hy : Rescaled value unit 0 y y') :
    Rescaled value unit 0 (x + y) (x' + y') := by
  refine ⟨by rw [hexact.isFinite_add_iff, hexact.isFinite_add_iff, hx.finite_iff, hy.finite_iff],
    fun h => ?_⟩
  obtain ⟨hxf, hyf⟩ := isFinite_of_add h
  rw [hexact.value_add (hx.finite_iff.mpr hxf) (hy.finite_iff.mpr hyf), hexact.value_add hxf hyf,
    hx.value_eq hxf, hy.value_eq hyf]
  ring

/-- A difference loses the origin. -/
theorem sub (hx : Rescaled value unit origin x x') (hy : Rescaled value unit origin y y') :
    Rescaled value unit 0 (x - y) (x' - y') := by
  refine ⟨by rw [hexact.isFinite_sub_iff, hexact.isFinite_sub_iff, hx.finite_iff, hy.finite_iff],
    fun h => ?_⟩
  obtain ⟨hxf, hyf⟩ := isFinite_of_sub h
  rw [hexact.value_sub (hx.finite_iff.mpr hxf) (hy.finite_iff.mpr hyf), hexact.value_sub hxf hyf,
    hx.value_eq hxf, hy.value_eq hyf]
  ring

/-- Multiplied by the same figure. -/
theorem mul_left (a : α) (hx : Rescaled value unit 0 x x') :
    Rescaled value unit 0 (a * x) (a * x') := by
  refine ⟨by rw [hexact.isFinite_mul_iff, hexact.isFinite_mul_iff, hx.finite_iff], fun h => ?_⟩
  obtain ⟨ha, hxf⟩ := isFinite_of_mul h
  rw [hexact.value_mul ha (hx.finite_iff.mpr hxf), hexact.value_mul ha hxf, hx.value_eq hxf]
  ring

/-- A finite figure has the same sign in every unit, unless it is zero in all of them. -/
theorem sign_eq (hunit : 0 < unit) (hx : Rescaled value unit 0 x x') (hfinite : isFinite x = true) :
    sign x' = sign x ∨ same (sign x) 0 = true ∧ same (sign x') 0 = true := by
  have hdenotes := denotes_value value hfinite
  have hdenotes' : Denotes value x' (unit * value x) :=
    ⟨hx.finite_iff.mpr hfinite, (hx.value_eq hfinite).trans (add_zero _)⟩
  have hpos : 0 < x' ↔ 0 < x := by
    rw [hexact.pos_iff hdenotes', hexact.pos_iff hdenotes]
    exact mul_pos_iff_of_pos_left hunit
  have hneg : x' < 0 ↔ x < 0 := by
    rw [hexact.lt_iff_lt hdenotes' hexact.zero, hexact.lt_iff_lt hdenotes hexact.zero,
      ← neg_pos, ← mul_neg, mul_pos_iff_of_pos_left hunit, neg_pos]
  simp only [sign, plain_eq, hpos, hneg]
  by_cases hp : 0 < x
  · simp only [if_pos hp, true_or]
  · by_cases hn : x < 0
    · simp only [if_neg hp, if_pos hn, true_or]
    · simp only [if_neg hp, if_neg hn]
      exact .inr ⟨same_zero_of_not_lt (isNumber_of_isFinite hfinite) hp hn,
        same_zero_of_not_lt (isNumber_of_isFinite hdenotes'.finite) (mt hpos.mp hp) (mt hneg.mp hn)⟩

theorem foldl_add {values values' : List α}
    (h : List.Forall₂ (Rescaled value unit 0) values values') (hx : Rescaled value unit 0 x x') :
    Rescaled value unit 0 (values.foldl (· + ·) x) (values'.foldl (· + ·) x') := by
  induction h generalizing x x' with
  | nil => exact hx
  | cons hfirst _ ih => exact ih (hx.add hexact hfirst)

/-- Means are rescaled with what they are the mean of. -/
theorem mean {values values' : List α} (h : List.Forall₂ (Rescaled value unit 0) values values') :
    Rescaled value unit 0 (Stats.mean values) (Stats.mean values') := by
  rw [Stats.mean, Stats.mean, ← h.length_eq]
  cases h with
  | nil => exact zero hexact
  | cons hfirst hrest =>
    exact div_natCast hexact (Nat.succ_ne_zero _)
      (foldl_add hexact (.cons hfirst hrest) (zero hexact))

end Rescaled

/-! ## Samples in another unit -/

namespace Gamma

/-- A sample, and the same sample with its profit counted in another unit and from another origin.
The deviation and the efficiency are weighed against the profit, so they are counted in the unit as
well; the side of the deviation and the volatility are free. -/
structure Sample.Retold (value : α → ℝ) (unit origin : ℝ) (s s' : Sample α) : Prop where
  /-- Both were taken at one time. -/
  timestamp : s'.timestamp = s.timestamp
  /-- The profit is counted in the unit and from the origin. -/
  realizedPnl : Rescaled value unit origin s.realizedPnl s'.realizedPnl
  /-- The size of the deviation is counted in the unit. -/
  inventoryDeviation : Rescaled value unit 0 (abs s.inventoryDeviation) (abs s'.inventoryDeviation)
  /-- The efficiency is counted in the unit. -/
  spreadEfficiency : Rescaled value unit 0 s.spreadEfficiency s'.spreadEfficiency

namespace Learner

/-- Two learners that learnt the same in different units. -/
structure InStep (value : α → ℝ) (unit origin : ℝ) (l l' : Learner α) : Prop where
  /-- They learn in the same way. -/
  config : l'.config = l.config
  /-- They have come to the same risk aversion. -/
  gamma : l'.gamma = l.gamma
  /-- Each remembers the profit in its unit, or neither remembers one. -/
  lastPnl : Option.Rel (Rescaled value unit origin) l.memory.lastPnl l'.memory.lastPnl
  /-- Each counts the same rewards in its unit. -/
  rewards : List.Forall₂ (Rescaled value unit 0) l.memory.rewards l'.memory.rewards
  /-- They have accepted equally many samples. -/
  updateCount : l'.memory.updateCount = l.memory.updateCount
  /-- Their last step went in the same direction. -/
  direction : l'.memory.direction = l.memory.direction
  /-- Their last accepted samples are of one time. -/
  lastUpdateAt : l'.memory.lastUpdateAt = l.memory.lastUpdateAt

variable {c : LearnerConfig α} {l l' : Learner α} {m m' : Memory α} {s s' : Sample α} {r r' : α}

/-- A window forgets the rewards of the same samples, whatever the rewards are. -/
theorem forall₂_latest {R : α → α → Prop} (window : α) {rewards rewards' : List α}
    (h : List.Forall₂ R rewards rewards') :
    List.Forall₂ R (latest window rewards) (latest window rewards') := by
  induction h with
  | nil => exact .nil
  | cons hfirst hrest ih =>
    rw [latest, latest, ← hrest.length_eq]
    split
    · exact ih
    · exact .cons hfirst hrest

/-- Finite figures counted in a unit. -/
theorem map_value_of_rescaled {values values' : List α} (hfinite : ∀ r ∈ values, isFinite r = true)
    (h : List.Forall₂ (Rescaled value unit 0) values values') :
    values'.map value = values.map fun r => unit * value r := by
  induction h with
  | nil => rfl
  | cons hfirst _ ih =>
    rw [List.map_cons, List.map_cons, hfirst.value_eq (hfinite _ List.mem_cons_self), add_zero,
      ih fun r hr => hfinite r (List.mem_cons_of_mem _ hr)]

/-! ## One sample -/

section Simulation

variable [AbsorbingScalar α] (hexact : IsExactAnalysis value)

include hexact

/-- The reward is told in the unit of the sample. -/
theorem rescaled_reward (hs : s.Retold value unit origin s')
    (hlast : Option.Rel (Rescaled value unit origin) m.lastPnl m'.lastPnl) :
    Rescaled value unit 0 (reward c m s) (reward c m' s') := by
  have hcost := hs.inventoryDeviation.mul_left hexact (-c.inventoryPenalty)
  have hbonus := hs.spreadEfficiency.mul_left hexact c.spreadEfficiencyWeight
  rw [reward, reward]
  generalize m.lastPnl = last, m'.lastPnl = last' at hlast
  cases hlast with
  | none => exact ((Rescaled.zero hexact).add hexact hcost).add hexact hbonus
  | some hlast => exact ((hs.realizedPnl.sub hexact hlast).add hexact hcost).add hexact hbonus

/-- In step, the same samples are accepted. -/
theorem InStep.accepts_eq (h : InStep value unit origin l l') (hs : s.Retold value unit origin s') :
    l'.accepts s' = l.accepts s := by
  have hfinite :
      isFinite (reward l'.config l'.memory s') = isFinite (reward l.config l.memory s) := by
    rw [h.config, Bool.eq_iff_iff]
    exact (rescaled_reward hexact hs h.lastPnl).finite_iff
  rw [accepts, accepts, hfinite, isStale, isStale, h.lastUpdateAt, hs.timestamp]

/-- **The same step in every unit.** A reward exceeds the mean of the rewards before it in all units
or in none. -/
theorem step_eq_of_rescaled (hunit : 0 < unit) (hc : c.Valid) (hm : m.Sound)
    (hdirection : m'.direction = m.direction)
    (hrewards : List.Forall₂ (Rescaled value unit 0) m.rewards m'.rewards) (hr : isFinite r = true)
    (hrescaled : Rescaled value unit 0 r r') :
    step c m' r' = step c m r ∨ same (step c m r) 0 = true ∧ same (step c m' r') 0 = true := by
  have himprovement := hrescaled.sub hexact (Rescaled.mean hexact hrewards)
  have hfinite := hexact.isFinite_sub hr (Stats.isFinite_mean hexact hm.rewards)
  rcases himprovement.sign_eq hexact hunit hfinite with hsign | ⟨hzero, hzero'⟩
  · exact .inl (by rw [step, step, hsign, hdirection])
  · have hstep {z : α} (hz : same z 0 = true) : same (c.learningRate * z * m.direction) 0 = true :=
      mul_mul_same_zero hc.learningRate (isFinite_of_same_zero hz)
        (isFinite_of_isSign hm.direction) (.inr hz)
    refine .inr ⟨hstep hzero, ?_⟩
    rw [step, hdirection]
    exact hstep hzero'

omit hexact in
/-- In step, a sample is remembered. -/
theorem InStep.remember (h : InStep value unit origin l l') (hs : s.Retold value unit origin s')
    (hr : Rescaled value unit 0 r r') :
    InStep value unit origin { l with memory := remember l.config l.memory s r }
      { l' with memory := remember l'.config l'.memory s' r' } where
  config := h.config
  gamma := h.gamma
  lastPnl := by
    change Option.Rel _ (filled? s.realizedPnl) (filled? s'.realizedPnl)
    rw [StrictScalar.filled?_eq_some, StrictScalar.filled?_eq_some]
    exact .some hs.realizedPnl
  rewards := by
    simp only [Learner.remember, h.config]
    exact forall₂_latest _ (List.rel_append h.rewards (.cons hr .nil))
  updateCount := congrArg (· + 1) h.updateCount
  direction := h.direction
  lastUpdateAt := congrArg filled? hs.timestamp

omit hexact [AbsorbingScalar α] in
/-- In step, the risk aversion is moved. -/
theorem InStep.move (h : InStep value unit origin l l') (step : α) :
    InStep value unit origin (l.move step) (l'.move step) where
  config := h.config
  gamma := by rw [Learner.move, Learner.move, h.gamma, h.config]
  lastPnl := h.lastPnl
  rewards := h.rewards
  updateCount := h.updateCount
  direction := rfl
  lastUpdateAt := h.lastUpdateAt

/-- **One sample** keeps two learners in step. -/
theorem InStep.update (hunit : 0 < unit) (hc : c.Valid) (hl : l.Sound c)
    (h : InStep value unit origin l l') (hs : s.Retold value unit origin s') :
    InStep value unit origin (l.update s).1 (l'.update s').1 := by
  have hagree := h.accepts_eq hexact hs
  cases haccepts : l.accepts s with
  | false =>
    rw [update_of_refused haccepts, update_of_refused (hagree.trans haccepts)]
    exact h
  | true =>
    have hreward := rescaled_reward (c := l.config) hexact hs h.lastPnl
    have hfinite := (Bool.and_eq_true_iff.mp haccepts).2
    have hnext := h.remember hs hreward
    have hempty : l'.memory.rewards.isEmpty = l.memory.rewards.isEmpty := by
      rw [Bool.eq_iff_iff, List.isEmpty_iff_length_eq_zero, List.isEmpty_iff_length_eq_zero,
        h.rewards.length_eq]
    have hvalid : l.config.Valid := hl.config.symm ▸ hc
    have hstep :=
      step_eq_of_rescaled hexact hunit hvalid hl.memory h.direction h.rewards hfinite hreward
    rw [update_eq_of_accepts haccepts, update_eq_of_accepts (hagree.trans haccepts), hempty]
    rw [h.config] at hnext ⊢
    rcases hstep with heq | ⟨hzero, hzero'⟩
    · rw [heq]
      split
      · exact hnext
      · exact hnext.move _
    · rw [hzero, hzero', Bool.or_true, if_pos rfl, if_pos rfl]
      exact hnext

/-- **Every run** keeps two learners in step. -/
theorem InStep.after (hunit : 0 < unit) (hc : c.Valid) {samples samples' : List (Sample α)}
    (hsamples : List.Forall₂ (Sample.Retold value unit origin) samples samples') (hl : l.Sound c)
    (h : InStep value unit origin l l') :
    InStep value unit origin (l.after samples) (l'.after samples') := by
  induction hsamples generalizing l l' with
  | nil => exact h
  | cons hfirst _ ih => exact ih (hl.update hc _) (h.update hexact hunit hc hl hfirst)

end Simulation

/-! ## The whole of it -/

/-- **Learning does not depend on the unit of profit.** Take any accepted configuration, start with
an empty memory, and tell the samples of one learner to another in another unit and from another
origin, with whatever volatilities and sides of the inventory. Where arithmetic is exact, after each
sample both have the same risk aversion, the same number of accepted samples and the same direction,
and the rewards of the one are those of the other in its unit. -/
theorem gamma_after_retold [AbsorbingScalar α] (hcreate : create c = .ok l)
    (hexact : IsExactAnalysis value) (hunit : 0 < unit) {samples samples' : List (Sample α)}
    (hsamples : List.Forall₂ (Sample.Retold value unit origin) samples samples') (n : ℕ) :
    let one := l.after (samples.take n)
    let other := l.after (samples'.take n)
    other.gamma = one.gamma ∧ other.memory.updateCount = one.memory.updateCount ∧
      other.memory.direction = one.memory.direction ∧
      other.memory.rewards.map value = one.memory.rewards.map fun r => unit * value r := by
  intro one other
  obtain ⟨hc, hstart⟩ := Sound.of_create hcreate Memory.sound_empty
  have hinstep : InStep value unit origin l l := by
    obtain ⟨-, rfl⟩ := create_spec hcreate
    exact ⟨rfl, rfl, .none, .nil, rfl, rfl, rfl⟩
  have hafter : InStep value unit origin one other :=
    hinstep.after hexact hunit hc (List.forall₂_take n hsamples) hstart
  have hfinite : ∀ r ∈ one.memory.rewards, isFinite r = true :=
    (hstart.run hc ((samples.take n).map .update)).memory.rewards
  exact ⟨hafter.gamma, hafter.updateCount, hafter.direction,
    map_value_of_rescaled hfinite hafter.rewards⟩

open Extended in
theorem retold_realSample {profit profit' deviation deviation' efficiency efficiency' : ℝ} (at_ : ℝ)
    (hprofit : profit' = unit * profit + origin) (hdeviation : |deviation'| = unit * |deviation|)
    (hefficiency : efficiency' = unit * efficiency) :
    Sample.Retold Extended.value unit origin (realSample profit deviation efficiency at_)
      (realSample profit' deviation' efficiency' at_) where
  timestamp := rfl
  realizedPnl := ⟨iff_of_true (isFinite_number _) (isFinite_number _), fun _ => hprofit⟩
  inventoryDeviation := by
    have hvalue (r : ℝ) : (Scalar.abs (number r)).value = |r| :=
      isExactField.value_abs (isFinite_number r)
    have hfinite (r : ℝ) : isFinite (Scalar.abs (number r)) = true :=
      isFinite_abs (isFinite_number r)
    refine ⟨iff_of_true (hfinite _) (hfinite _), fun _ => ?_⟩
    change (Scalar.abs (number deviation')).value = unit * (Scalar.abs (number deviation)).value + 0
    rw [hvalue, hvalue, hdeviation, add_zero]
  spreadEfficiency :=
    ⟨iff_of_true (isFinite_number _) (isFinite_number _),
      fun _ => hefficiency.trans (add_zero _).symm⟩

/-- Two samples, both of which are accepted, and the same with doubled figures, another origin of
the profit, and the inventory on the other side. -/
theorem gamma_after_retold_realSample :
    let l : Learner Extended := ⟨penalizing, startGamma penalizing, .empty⟩
    let samples := [realSample 5 (-1) 1 1, realSample 18 3 1 2]
    let samples' := [realSample 17 2 2 1, realSample 43 (-6) 2 2]
    create penalizing = .ok l ∧ IsExactAnalysis Extended.value ∧
      (∃ first second, l.ledger samples = [first, second]) ∧
      List.Forall₂ (Sample.Retold Extended.value 2 7) samples samples' ∧
      (l.after samples').gamma = (l.after samples).gamma ∧
      (l.after samples').memory.rewards.map Extended.value =
        (l.after samples).memory.rewards.map fun r => 2 * r.value := by
  intro l samples samples'
  have hsamples : List.Forall₂ (Sample.Retold Extended.value 2 7) samples samples' :=
    .cons (retold_realSample 1 (by norm_num) (by norm_num) (by norm_num))
      (.cons (retold_realSample 2 (by norm_num) (by norm_num) (by norm_num)) .nil)
  obtain ⟨hgamma, -, -, hrewards⟩ :=
    gamma_after_retold create_penalizing Extended.isExactAnalysis two_pos hsamples samples.length
  have hfirst : l.accepts (realSample 5 (-1) 1 1) = true :=
    accepts_realSample rfl (by rintro _ ⟨⟩) rfl
  have hsecond := accepts_later_realSample rfl hfirst one_lt_two 18 3 1
  have hledger : ∃ first second, l.ledger samples = [first, second] := by
    rw [ledger_of_accepts hfirst, ledger_of_accepts hsecond]
    exact ⟨_, _, rfl⟩
  exact ⟨create_penalizing, Extended.isExactAnalysis, hledger, hsamples, hgamma, hrewards⟩

end Learner

end Gamma

end MarketMaker
