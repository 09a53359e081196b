import MarketMaker.Proofs.Refresh.Conclusion

/-!
# What holds throughout a run

An event moves a controller in one of five ways (`Move`): it leaves it waiting, starts a cycle,
calls the source of bars, lets the cycle run to its end, or takes a cycle that has ended out of
flight. Everything that holds throughout a run follows from these five.

`Orderly` is the invariant. Cycles are numbered in the order in which they start, and a cycle makes
the call of its own number; so the milestones of a run are rounds of two, a call and the end of its
cycle, and a cycle in flight has at most begun the next round. The request in flight is at rest, a
controller that is not idle has a cycle in flight that has not come to its end, and a cycle has no
bars but those given to its own call.
-/

namespace MarketMaker.Refresh

variable {α : Type}

/-- The milestones of the first cycles, when each has called the source of bars once and has
ended. -/
def rounds (cycles : Nat) : List Milestone :=
  (List.range cycles).flatMap fun n => [.called n, .over n]

theorem rounds_succ (n : Nat) : rounds (n + 1) = rounds n ++ [.called n] ++ [.over n] := by
  simp [rounds, List.range_succ]

namespace Controller

/-- The milestones that a controller has passed. -/
def milestones (c : Controller α) : List Milestone := c.trace.filterMap fun e => e.2.milestone?

/-- What is said in passing adds no milestone. -/
theorem milestones_eq_of_said {c d : Controller α} {said : List (Phase × Occurrence α)}
    (htrace : d.trace = c.trace ++ said) (hsaid : ∀ e ∈ said, e.2.milestone? = none) :
    d.milestones = c.milestones := by
  have hnone : said.filterMap (fun e => e.2.milestone?) = [] := by
    rw [List.filterMap_eq_nil_iff]
    exact hsaid
  rw [milestones, htrace, List.filterMap_append, hnone, List.append_nil, milestones]

end Controller

variable [NumberText α]

/-- What holds of a cycle in flight. -/
structure Cycle.Fits (given : Nat → Except (Failure α) (List (Bar α)) → Prop) (c : Controller α)
    (y : Cycle α) : Prop where
  /-- It is the cycle that was started last. -/
  number : y.number + 1 = c.cycles
  /-- Its request has no other answers than those given. -/
  answered : y.request.AnsweredBy (y.Given given)
  /-- Until its call is made, only the cycles before have called the source of bars. -/
  due : y.request.call = .due →
    y.call = none ∧ c.calls.fetch = y.number ∧ c.milestones = rounds y.number
  /-- Once its call is made, the source of bars was called once in each cycle. -/
  called : y.request.call ≠ .due →
    y.call = some y.number ∧ c.calls.fetch = c.cycles ∧
    c.milestones = rounds y.number ++ [.called y.number]
  /-- It has ended only with its request, and succeeded only with bars. -/
  ended : ∀ outcome, y.outcome = some outcome →
    y.request.call ≠ .due ∧ y.request.isOpen = false ∧
      (outcome.isSuccess = true → ∃ bars, y.request.outcome = some (.ok bars))

namespace Controller

/-- What holds of a controller throughout a run. -/
structure Orderly (given : Nat → Except (Failure α) (List (Bar α)) → Prop)
    (c : Controller α) : Prop where
  /-- It stands between two events. -/
  rest : c.AtRest
  /-- It works only while a cycle is in flight. -/
  phase : c.phase ≠ .idle → ∃ y, c.cycle = some y ∧ y.outcome = none
  /-- Without a cycle in flight, each has called the source of bars once and has ended. -/
  noCycle : c.cycle = none → c.calls.fetch = c.cycles ∧ c.milestones = rounds c.cycles
  /-- A cycle in flight fits the rest. -/
  inFlight : ∀ y, c.cycle = some y → y.Fits given c

variable {given : Nat → Except (Failure α) (List (Bar α)) → Prop} {c d : Controller α}

/-- A controller without a cycle in flight is idle. -/
theorem Orderly.idle (h : c.Orderly given) (hcycle : c.cycle = none) : c.phase = .idle := by
  refine Decidable.byContradiction fun hphase => ?_
  obtain ⟨y, hy, -⟩ := h.phase hphase
  rw [hcycle] at hy
  cases hy

theorem Waits.orderly (h : Waits given c d) (horderly : c.Orderly given) : d.Orderly given := by
  obtain ⟨said, htrace, hsaid⟩ := h.trace
  have hcycles : d.cycles = c.cycles := (congrArg Controller.cycles h.skeleton :)
  have hcalls : d.calls = c.calls := (congrArg Controller.calls h.skeleton :)
  have hmilestones : d.milestones = c.milestones :=
    milestones_eq_of_said htrace fun e he => (hsaid e he).2
  refine ⟨h.rest horderly.rest, fun hphase => ?_, fun hnone => ?_, fun z hz => ?_⟩
  · rw [h.phase] at hphase
    obtain ⟨y, hy, houtcome⟩ := horderly.phase hphase
    obtain ⟨r, hr, -⟩ := h.inFlight y hy
    exact ⟨_, hr, houtcome⟩
  · have hcycle : c.cycle = none := by
      cases hcycle : c.cycle with
      | none => rfl
      | some y =>
        obtain ⟨r, hr, -⟩ := h.inFlight y hcycle
        rw [hr] at hnone
        cases hnone
    rw [hcalls, hcycles, hmilestones]
    exact horderly.noCycle hcycle
  · cases hcycle : c.cycle with
    | none =>
      rw [h.noCycle hcycle] at hz
      cases hz
    | some y =>
      obtain ⟨r, hr, hpass⟩ := h.inFlight y hcycle
      obtain rfl := Option.some.inj (hr.symm.trans hz)
      have hfits := horderly.inFlight y hcycle
      refine ⟨by rw [hcycles]; exact hfits.number, hpass.answered hfits.answered, fun hdue => ?_,
        fun hcalled => ?_, fun outcome houtcome => ?_⟩
      · rw [hcalls, hmilestones]
        exact hfits.due (hpass.due.mp hdue)
      · rw [hcalls, hcycles, hmilestones]
        exact hfits.called fun hdue => hcalled (hpass.due.mpr hdue)
      · obtain ⟨hcalled, hsettled, hbars⟩ := hfits.ended outcome houtcome
        refine ⟨fun hdue => hcalled (hpass.due.mp hdue), (hpass.settled hsettled).1,
          fun hsuccess => ?_⟩
        obtain ⟨bars, hbars⟩ := hbars hsuccess
        exact ⟨bars, (hpass.settled hsettled).2.trans hbars⟩

/-! ## The steps of a cycle -/

omit [NumberText α] in
/-- The source of bars is called once, and the request keeps what it came to before. -/
theorem make_spec (w : Surroundings α) {y : Cycle α} (hy : c.cycle = some y)
    (hdue : y.request.call = .due) :
    ∃ r, c.make w = { c with
        cycle := some { y with request := r, call := some c.calls.fetch }
        calls := { c.calls with fetch := c.calls.fetch + 1 }
        trace := c.trace ++ [(c.phase, .fetched c.calls.fetch y.request.aborted)] } ∧
      r.call ≠ .due ∧ r.isOpen = y.request.isOpen ∧ r.outcome = y.request.outcome ∧
      (y.request.Tidy → r.Tidy) ∧
      ∀ a, r.call = .answered a → w.reply c.calls.fetch = .now a := by
  have hmade : y.request.make = { y.request with call := .waiting } := by
    simp [Request.make, hdue]
  cases hreply : w.reply c.calls.fetch with
  | later =>
    refine ⟨y.request.make, by simp [make, hy, hdue, hreply, note], ?_, ?_, ?_, .make, ?_⟩
    all_goals simp [hmade, Request.isOpen]
  | now a =>
    have hanswered : y.request.make.answer a = { y.request with call := .answered a } := by
      simp [hmade, Request.answer]
    refine ⟨y.request.make.answer a, by simp [make, hy, hdue, hreply, note], ?_, ?_, ?_,
      fun h => h.make.answer a, ?_⟩
    all_goals simp [hanswered, Request.isOpen]

/-- A cycle that has ended is taken out of flight. -/
theorem clear_spec [Scalar α] {y : Cycle α} {outcome : Outcome α} (hy : c.cycle = some y)
    (houtcome : y.outcome = some outcome) :
    c.clear.skeleton = c.skeleton ∧ c.clear.cycle = none ∧ c.clear.stopped = c.stopped ∧
      ∃ said, c.clear.trace = c.trace ++ [(c.phase, .ended y.number outcome)] ++ said ∧
        ∀ e ∈ said, e.1 = c.phase ∧ e.2.milestone? = none := by
  unfold clear
  simp only [hy, houtcome]
  cases outcome with
  | broken f =>
    unfold abandon
    dsimp only
    split
    · refine ⟨rfl, rfl, rfl, [_], rfl, ?_⟩
      simp [Occurrence.milestone?, note]
    · exact ⟨rfl, rfl, rfl, [], by simp [note], by simp⟩
  | published => exact ⟨rfl, rfl, rfl, [], by simp [note], by simp⟩
  | unchanged => exact ⟨rfl, rfl, rfl, [], by simp [note], by simp⟩
  | skipped => exact ⟨rfl, rfl, rfl, [], by simp [note], by simp⟩
  | cancelled => exact ⟨rfl, rfl, rfl, [], by simp [note], by simp⟩
  | failed f => exact ⟨rfl, rfl, rfl, [], by simp [note], by simp⟩

variable [Scalar α]

/-- A cycle goes on once its call was made and its request has an outcome. -/
theorem resume_eq (w : Surroundings α) {y : Cycle α} {fetched : Except (Failure α) (List (Bar α))}
    (hy : c.cycle = some y) (hrunning : y.outcome = none) (hcalled : y.request.call ≠ .due)
    (hfetched : y.request.outcome = some fetched) :
    c.resume w = { (c.conclude w fetched y.startedAt).2 with
      phase := .idle
      cycle := (c.conclude w fetched y.startedAt).2.cycle.map fun z =>
        { z with outcome := some (c.conclude w fetched y.startedAt).1 } } := by
  cases hcall : y.request.call with
  | due => exact absurd hcall hcalled
  | _ => simp only [resume, hy, hrunning, hfetched, hcall]

/-! ## Moves -/

/-- How an event moves a controller. -/
inductive Move (w : Surroundings α) (given : Nat → Except (Failure α) (List (Bar α)) → Prop)
    (c : Controller α) : Controller α → Prop where
  /-- It waits on. -/
  | wait {d : Controller α} : Waits given c d → Move w given c d
  /-- A cycle starts. -/
  | start (ticked : Bool) (now : α) :
    c.cycle = none → c.stopped = false → Move w given c (c.start ticked now)
  /-- The call of its cycle is made. -/
  | make {y : Cycle α} : c.cycle = some y → y.request.call = .due → Move w given c (c.make w)
  /-- Its cycle runs to its end. -/
  | resume {y : Cycle α} {fetched : Except (Failure α) (List (Bar α))} :
    c.cycle = some y → y.outcome = none → y.request.call ≠ .due → y.request.outcome = some fetched →
      Move w given c (c.resume w)
  /-- Its cycle is put away. -/
  | clear {y : Cycle α} {outcome : Outcome α} :
    c.cycle = some y → y.outcome = some outcome → Move w given c c.clear

/-- No tick is due while a cycle is in flight or after a stop. -/
theorem isDue_ne_true {now : α} (h : (c.cycle.isSome || c.stopped) = true) :
    c.isDue now ≠ .ok true := by
  intro hdue
  unfold isDue at hdue
  rw [Bool.or_assoc, h, Bool.or_true] at hdue
  cases hlast : checkUsable (c.schedule.lastUpdate.elim [] fun last => [now, last]) with
  | error f => simp [hlast, bind, Except.bind] at hdue
  | ok _ => simp [hlast, bind, Except.bind, pure, Except.pure] at hdue

/-- A tick that does not fail starts a cycle or does nothing. -/
theorem tick_cases {now : α} (h : c.tick now = .ok d) :
    d = c ∨ d = c.start true now ∧ c.cycle = none ∧ c.stopped = false := by
  unfold tick at h
  cases hdue : c.isDue now with
  | error f =>
    rw [hdue] at h
    cases h
  | ok due =>
    rw [hdue] at h
    obtain rfl := Except.ok.inj h
    cases due with
    | false => exact .inl rfl
    | true =>
      -- A tick that is due has made sure of both itself.
      have hfree : (c.cycle.isSome || c.stopped) = false := by
        rw [← Bool.not_eq_true]
        exact fun hheld => isDue_ne_true hheld hdue
      rw [Bool.or_eq_false_iff] at hfree
      exact .inr ⟨rfl, by simpa using hfree.1, hfree.2⟩

omit [Scalar α] [NumberText α] in
theorem make_cases (w : Surroundings α) (c : Controller α) :
    c.make w = c ∨ ∃ y, c.cycle = some y ∧ y.request.call = .due := by
  cases hcycle : c.cycle with
  | none => simp [make, hcycle]
  | some y => cases hcall : y.request.call <;> simp [make, hcycle, hcall]

theorem resume_cases (w : Surroundings α) (c : Controller α) :
    c.resume w = c ∨ ∃ y fetched, c.cycle = some y ∧ y.outcome = none ∧ y.request.call ≠ .due ∧
      y.request.outcome = some fetched := by
  cases hcycle : c.cycle with
  | none => simp [resume, hcycle]
  | some y =>
    cases hended : y.outcome with
    | some outcome => simp [resume, hcycle, hended]
    | none =>
      cases hfetched : y.request.outcome with
      | none => cases hcall : y.request.call <;> simp [resume, hcycle, hended, hfetched, hcall]
      | some fetched =>
        cases hcall : y.request.call <;> simp [resume, hcycle, hended, hfetched, hcall]

omit [Scalar α] [NumberText α] in
/-- The source of bars is called once only. -/
theorem make_eq_self (w : Surroundings α) {y : Cycle α} (hy : c.cycle = some y)
    (hcalled : y.request.call ≠ .due) : c.make w = c := by
  rcases make_cases w c with heq | ⟨x, hx, hdue⟩
  · exact heq
  · obtain rfl := Option.some.inj (hy.symm.trans hx)
    exact absurd hdue hcalled

/-- A cycle that has ended, or whose request has no outcome, does not go on. -/
theorem resume_eq_self (w : Surroundings α) {y : Cycle α} (hy : c.cycle = some y)
    (hrest : y.outcome = none → y.request.outcome = none) : c.resume w = c := by
  rcases resume_cases w c with heq | ⟨x, fetched, hx, hrunning, -, hfetched⟩
  · exact heq
  · obtain rfl := Option.some.inj (hy.symm.trans hx)
    cases (hrest hrunning).symm.trans hfetched

theorem clear_cases (c : Controller α) :
    c.clear = c ∨ ∃ y outcome, c.cycle = some y ∧ y.outcome = some outcome := by
  cases hcycle : c.cycle with
  | none => simp [clear, hcycle]
  | some y => cases hended : y.outcome <;> simp [clear, hcycle, hended]

/-- Every event moves the controller in one of the five ways. -/
theorem Move.of_step (w : Surroundings α) {event : Event α}
    (h : ∀ call a, event = .answer call a → given call a) : Move w given c (c.step w event) := by
  cases event with
  | tick now =>
    simp only [step, ticked]
    cases ht : c.tick now with
    | error f => exact .wait (.refl c)
    | ok after =>
      rcases tick_cases ht with rfl | ⟨rfl, hcycle, hstopped⟩
      · exact .wait (.refl _)
      · exact .start true now hcycle hstopped
  | refresh now =>
    simp only [step, refresh]
    cases hcycle : c.cycle with
    | some y => exact .wait (.refl c)
    | none =>
      cases hstopped : c.stopped with
      | true => exact .wait (.refl c)
      | false => exact .start false now hcycle hstopped
  | stop => exact .wait (.stop w c)
  | setMode mode => exact .wait (.switched mode c)
  | answer call a => exact .wait (.answer (h call a rfl) c)
  | expire => exact .wait (.expire w c)
  | make =>
    simp only [step]
    rcases make_cases w c with heq | ⟨y, hy, hdue⟩
    · rw [heq]
      exact .wait (.refl c)
    · exact .make hy hdue
  | deliver => exact .wait (.deliver w c)
  | resume =>
    simp only [step]
    rcases resume_cases w c with heq | ⟨y, fetched, hy, hrunning, hcalled, hfetched⟩
    · rw [heq]
      exact .wait (.refl c)
    · exact .resume hy hrunning hcalled hfetched
  | clear =>
    simp only [step]
    rcases clear_cases c with heq | ⟨y, outcome, hy, hended⟩
    · rw [heq]
      exact .wait (.refl c)
    · exact .clear hy hended
  | release => exact .wait (.release c)

/-! ## The invariant -/

section Invariant

variable [Numeric α]

/-- The request of a cycle that has just started is due to be called. -/
theorem start_eq (ticked : Bool) (now : α) (c : Controller α) :
    c.start ticked now = { c with
      phase := .fetching
      cycle := some ⟨c.cycles, ticked, now, .begun, none, none⟩
      cycles := c.cycles + 1 } := by
  simp [start, Request.start, Numeric.hasText]

/-- While a cycle is in flight, and after a stop, a tick does nothing. -/
theorem tick_of_held (now : α) (h : (c.cycle.isSome || c.stopped) = true) : c.tick now = .ok c := by
  have hheld : (c.withinInterval now || c.cycle.isSome || c.stopped) = true := by
    rw [Bool.or_assoc, h, Bool.or_true]
  simp [tick, isDue, hheld, bind, Except.bind, Except.map, pure, Except.pure]

theorem Orderly.start (horderly : c.Orderly given) (ticked : Bool) (now : α)
    (hcycle : c.cycle = none) (hstopped : c.stopped = false) :
    (c.start ticked now).Orderly given := by
  obtain ⟨hfetch, hmilestones⟩ := horderly.noCycle hcycle
  rw [start_eq]
  refine ⟨fun y hy => ?_, fun _ => ⟨_, rfl, rfl⟩, nofun, fun y hy => ?_⟩
  · obtain rfl := Option.some.inj hy
    refine ⟨⟨⟨fun _ => rfl, fun _ => rfl⟩, nofun⟩, fun h => ?_⟩
    exact absurd (hstopped.symm.trans h) (by simp)
  · obtain rfl := Option.some.inj hy
    exact ⟨rfl, ⟨nofun, nofun, nofun⟩, fun _ => ⟨rfl, hfetch, hmilestones⟩,
      fun h => absurd rfl h, nofun⟩

omit [Scalar α] [Numeric α] in
theorem Orderly.make (horderly : c.Orderly given) (w : Surroundings α)
    (hnow : ∀ call a, w.reply call = .now a → given call a) {y : Cycle α} (hy : c.cycle = some y)
    (hdue : y.request.call = .due) : (c.make w).Orderly given := by
  obtain ⟨r, heq, hcalled, hopen, houtcome, htidy, hanswer⟩ := make_spec w hy hdue
  obtain ⟨hrest, hheeded⟩ := horderly.rest y hy
  have hfits := horderly.inFlight y hy
  obtain ⟨hcall, hfetch, hmilestones⟩ := hfits.due hdue
  have hpassed : (c.make w).milestones = c.milestones ++ [.called c.calls.fetch] := by
    rw [heq]
    simp [milestones, Occurrence.milestone?]
  rw [heq] at hpassed ⊢
  refine ⟨fun z hz => ?_, fun hphase => ?_, fun hnone => ?_, fun z hz => ?_⟩
  · obtain rfl := Option.some.inj hz
    exact ⟨htidy hrest, fun hstopped => hopen.trans (hheeded hstopped)⟩
  · obtain ⟨x, hx, hrunning⟩ := horderly.phase hphase
    obtain rfl : y = x := Option.some.inj (hy.symm.trans hx)
    exact ⟨_, rfl, hrunning⟩
  · cases hnone
  · obtain rfl := Option.some.inj hz
    refine ⟨hfits.number, ⟨fun a ha => ?_, fun b hb => ?_,
      fun f hf => hfits.answered.words f (houtcome.symm.trans hf)⟩, fun h => absurd h hcalled,
      fun _ => ?_, fun outcome hended => ?_⟩
    · exact ⟨c.calls.fetch, rfl, hnow _ _ (hanswer a ha)⟩
    · obtain ⟨n, hn, -⟩ := hfits.answered.outcome b (houtcome.symm.trans hb)
      rw [hcall] at hn
      cases hn
    · refine ⟨by rw [← hfetch], ?_, ?_⟩
      · rw [hfetch]
        exact hfits.number
      · rw [hpassed, hmilestones, hfetch]
    · exact absurd hdue (hfits.ended outcome hended).1

omit [Scalar α] [Numeric α] in
/-- A request that has an outcome no longer listens. -/
theorem Orderly.busy (horderly : c.Orderly given) {y : Cycle α}
    {fetched : Except (Failure α) (List (Bar α))} (hy : c.cycle = some y)
    (hfetched : y.request.outcome = some fetched) : y.request.isOpen = false ∧ c.Busy := by
  obtain ⟨hrest, -⟩ := horderly.rest y hy
  have hsettled : y.request.isOpen = false := by
    cases hopen : y.request.isOpen with
    | false => rfl
    | true => exact absurd (hfetched.symm.trans (hrest.outcome hopen)) (by simp)
  exact ⟨hsettled, y, hy, hrest.deaf hsettled⟩

/-- A cycle that goes on runs to its end, and stays in flight. -/
theorem Orderly.resume_spec (horderly : c.Orderly given) (w : Surroundings α) {y : Cycle α}
    {fetched : Except (Failure α) (List (Bar α))} (hy : c.cycle = some y)
    (hrunning : y.outcome = none) (hcalled : y.request.call ≠ .due)
    (hfetched : y.request.outcome = some fetched) :
    ∃ outcome after, c.conclude w fetched y.startedAt = (outcome, after) ∧
      Concludes y.startedAt c outcome after ∧
      c.resume w = { after with
        phase := .idle, cycle := some { y with outcome := some outcome } } := by
  have hconcludes := Concludes.conclude w fetched y.startedAt (horderly.busy hy hfetched).2
  refine ⟨_, _, rfl, hconcludes, ?_⟩
  rw [resume_eq w hy hrunning hcalled hfetched, hconcludes.keeps.cycle, hy]
  rfl

theorem Orderly.resume (horderly : c.Orderly given) (w : Surroundings α) {y : Cycle α}
    {fetched : Except (Failure α) (List (Bar α))} (hy : c.cycle = some y)
    (hrunning : y.outcome = none) (hcalled : y.request.call ≠ .due)
    (hfetched : y.request.outcome = some fetched) : (c.resume w).Orderly given := by
  obtain ⟨outcome, after, hconclude, hconcludes, heq⟩ :=
    horderly.resume_spec w hy hrunning hcalled hfetched
  obtain ⟨hsettled, hbusy⟩ := horderly.busy hy hfetched
  obtain ⟨said, htrace, hsaid⟩ := hconcludes.keeps.trace
  have hfits := horderly.inFlight y hy
  have hcycles : after.cycles = c.cycles := (congrArg Controller.cycles hconcludes.keeps.frame :)
  have hfetch : after.calls.fetch = c.calls.fetch :=
    (congrArg (fun x => x.calls.fetch) hconcludes.keeps.frame :)
  have hmilestones : after.milestones = c.milestones := milestones_eq_of_said htrace hsaid
  rw [heq]
  refine ⟨fun z hz => ?_, fun hphase => absurd rfl hphase, nofun, fun z hz => ?_⟩
  · obtain rfl := Option.some.inj hz
    exact ⟨(horderly.rest y hy).1, fun _ => hsettled⟩
  · obtain rfl := Option.some.inj hz
    refine ⟨hfits.number.trans hcycles.symm, hfits.answered, fun hdue => absurd hdue hcalled,
      fun _ => ?_, fun result hresult => ⟨hcalled, hsettled, fun hsucceeded => ?_⟩⟩
    · obtain ⟨hcall, hcount, hpassed⟩ := hfits.called hcalled
      exact ⟨hcall, (hfetch.trans hcount).trans hcycles.symm, hmilestones.trans hpassed⟩
    · -- Without bars there is no success.
      obtain rfl := Option.some.inj hresult
      cases fetched with
      | ok bars => exact ⟨bars, hfetched⟩
      | error f =>
        have hfailed := isSuccess_conclude_error w f y.startedAt hbusy
        rw [hconclude] at hfailed
        exact absurd (hfailed.symm.trans hsucceeded) (by simp)

omit [Numeric α] in
theorem Orderly.clear (horderly : c.Orderly given) {y : Cycle α} {outcome : Outcome α}
    (hy : c.cycle = some y) (hended : y.outcome = some outcome) : c.clear.Orderly given := by
  obtain ⟨hskeleton, hcycle, -, said, htrace, hsaid⟩ := clear_spec hy hended
  have hfits := horderly.inFlight y hy
  obtain ⟨-, hfetch, hmilestones⟩ := hfits.called (hfits.ended outcome hended).1
  have hcycles : c.clear.cycles = c.cycles := (congrArg Controller.cycles hskeleton :)
  have hcalls : c.clear.calls = c.calls := (congrArg Controller.calls hskeleton :)
  have hphase : c.clear.phase = c.phase := (congrArg Controller.phase hskeleton :)
  refine ⟨fun z hz => ?_, fun hactive => ?_, fun _ => ⟨by rw [hcalls, hcycles, hfetch], ?_⟩,
    fun z hz => ?_⟩
  · rw [hcycle] at hz
    cases hz
  · rw [hphase] at hactive
    obtain ⟨x, hx, hrunning⟩ := horderly.phase hactive
    obtain rfl : y = x := Option.some.inj (hy.symm.trans hx)
    exact absurd (hended.symm.trans hrunning) (by simp)
  · have hpassed : c.clear.milestones = c.milestones ++ [.over y.number] := by
      have hnote :
          (c.note (.ended y.number outcome)).milestones = c.milestones ++ [.over y.number] := by
        simp [milestones, note, Occurrence.milestone?]
      rw [← hnote]
      exact milestones_eq_of_said htrace fun e he => (hsaid e he).2
    rw [hpassed, hmilestones, hcycles, ← hfits.number, rounds_succ]
  · rw [hcycle] at hz
    cases hz

theorem Orderly.move (horderly : c.Orderly given) {w : Surroundings α}
    (hnow : ∀ call a, w.reply call = .now a → given call a) (hmove : Move w given c d) :
    d.Orderly given := by
  cases hmove with
  | wait h => exact h.orderly horderly
  | start ticked now hcycle hstopped => exact horderly.start ticked now hcycle hstopped
  | make hy hdue => exact horderly.make w hnow hy hdue
  | resume hy hrunning hcalled hfetched => exact horderly.resume w hy hrunning hcalled hfetched
  | clear hy hended => exact horderly.clear hy hended

/-- What a cycle in flight has come to it came to before, or just now. -/
theorem Move.outcome {w : Surroundings α} (horderly : c.Orderly given) (hmove : Move w given c d)
    {z : Cycle α} {outcome : Outcome α} (hz : d.cycle = some z)
    (hended : z.outcome = some outcome) :
    (∃ y, c.cycle = some y ∧ y.outcome = some outcome) ∨
      ∃ y fetched, c.cycle = some y ∧ y.request.outcome = some fetched ∧
        outcome = (c.conclude w fetched y.startedAt).1 := by
  cases hmove with
  | wait hwait =>
    cases hy : c.cycle with
    | none =>
      rw [hwait.noCycle hy] at hz
      cases hz
    | some y =>
      obtain ⟨r, hr, -⟩ := hwait.inFlight y hy
      obtain rfl := Option.some.inj (hr.symm.trans hz)
      exact .inl ⟨y, rfl, hended⟩
  | start ticked now =>
    obtain rfl := Option.some.inj hz
    cases hended
  | make hy hdue =>
    obtain ⟨r, heq, -⟩ := make_spec w hy hdue
    rw [heq] at hz
    obtain rfl := Option.some.inj hz
    exact .inl ⟨_, hy, hended⟩
  | resume hy hrunning hcalled hfetched =>
    obtain ⟨result, after, hconclude, -, heq⟩ := horderly.resume_spec w hy hrunning hcalled hfetched
    rw [heq] at hz
    obtain rfl := Option.some.inj hz
    obtain rfl := Option.some.inj hended
    exact .inr ⟨_, _, hy, hfetched, by rw [hconclude]⟩
  | clear hy _ =>
    rw [(clear_spec hy ‹_›).2.1] at hz
    cases hz

/-- **Every event keeps the invariant.** -/
theorem Orderly.step (horderly : c.Orderly given) (w : Surroundings α)
    (hnow : ∀ call a, w.reply call = .now a → given call a) {event : Event α}
    (hanswer : ∀ call a, event = .answer call a → given call a) : (c.step w event).Orderly given :=
  horderly.move hnow (.of_step w hanswer)

end Invariant

/-- What is kept by every event is kept by a run. -/
theorem run_invariant (holds : Controller α → Prop) (w : Surroundings α) (events : List (Event α))
    (hstep : ∀ c, holds c → ∀ event ∈ events, holds (c.step w event)) {c : Controller α}
    (h : holds c) : holds (c.run w events) := by
  induction events generalizing c with
  | nil => exact h
  | cons event rest ih =>
    exact ih (fun d hd later hlater => hstep d hd later (List.mem_cons_of_mem _ hlater))
      (hstep c h event List.mem_cons_self)

/-- What a controller is when it is created. -/
theorem create_spec {config : Config α} (h : create config = .ok c) :
    ∃ pricing source, c = {
      config := config
      pricing := pricing
      mode := config.mode
      source := source
      schedule := ⟨config.updateIntervalSeconds, none, none⟩ } := by
  unfold create at h
  cases hvalid : config.check.mapError (·.failure) with
  | error f => simp [hvalid, bind, Except.bind] at h
  | ok _ =>
    cases hpricing :
      (Pricing.Config.accept ⟨config.minSpread, config.orderAmountShapeFactor⟩).mapError
        (·.failure) with
    | error f => simp [hvalid, hpricing, bind, Except.bind] at h
    | ok pricing =>
      cases husable : checkUsable [config.updateIntervalSeconds] with
      | error f => simp [hvalid, hpricing, husable, bind, Except.bind] at h
      | ok _ =>
        cases hsource :
          (Gamma.Source.create config.mode (sourceSettings config)).mapError (·.failure) with
        | error f => simp [hvalid, hpricing, husable, hsource, bind, Except.bind] at h
        | ok source =>
          simp [hvalid, hpricing, husable, hsource, bind, Except.bind, pure, Except.pure] at h
          exact ⟨pricing, source, h.symm⟩

theorem Orderly.create {config : Config α} (h : create config = .ok c) : c.Orderly given := by
  obtain ⟨pricing, source, rfl⟩ := create_spec h
  have hnone (y : Cycle α) (hy : none = some y) : False := by cases hy
  refine ⟨fun y hy => (hnone y hy).elim, fun hphase => absurd rfl hphase, fun _ => ⟨rfl, rfl⟩,
    fun y hy => (hnone y hy).elim⟩

/-- **The invariant holds throughout every run of a controller that was created.** -/
theorem orderly_run [Numeric α] {config : Config α} {c₀ : Controller α} (h : create config = .ok c₀)
    {w : Surroundings α} (hnow : ∀ call a, w.reply call = .now a → given call a)
    {events : List (Event α)} (hanswer : ∀ call a, .answer call a ∈ events → given call a) :
    (c₀.run w events).Orderly given := by
  apply run_invariant (Orderly given) w events
  · rintro c horderly event hevent
    apply horderly.step w hnow
    rintro call a rfl
    exact hanswer call a hevent
  · exact .create h

/-- Whatever is answered, every event keeps to the order. -/
theorem Orderly.event [Numeric α] (h : c.Orderly fun _ _ => True) (w : Surroundings α)
    (event : Event α) : (c.step w event).Orderly fun _ _ => True :=
  h.step w (fun _ _ _ => trivial) (fun _ _ _ => trivial)

theorem Orderly.run [Numeric α] (h : c.Orderly fun _ _ => True) (w : Surroundings α)
    (events : List (Event α)) : (c.run w events).Orderly fun _ _ => True :=
  run_invariant (·.Orderly fun _ _ => True) w events (fun _ hd event _ => hd.event w event) h

/-- What every event brings about, one event after the other, holds of a whole run. -/
theorem Orderly.relates_run [Numeric α] (h : c.Orderly fun _ _ => True) (w : Surroundings α)
    {holds : Controller α → Controller α → Prop} (hrefl : ∀ d, holds d d)
    (htrans : ∀ {d e f}, holds d e → holds e f → holds d f)
    (hstep : ∀ (d : Controller α) event, d.Orderly (fun _ _ => True) → holds d (d.step w event))
    (events : List (Event α)) : holds c (c.run w events) :=
  (run_invariant (fun d => d.Orderly (fun _ _ => True) ∧ holds c d) w events
    (fun d hd event _ => ⟨hd.1.event w event, htrans hd.2 (hstep d event hd.1)⟩) ⟨h, hrefl c⟩).2

/-! ## Draining -/

omit [Scalar α] [NumberText α] in
/-- Once the source of bars had its turn, it was called. -/
theorem called_make (w : Surroundings α) {y : Cycle α} (hy : c.cycle = some y) :
    ∃ z, (c.make w).cycle = some z ∧ z.request.call ≠ .due ∧ z.outcome = y.outcome ∧
      z.request.outcome = y.request.outcome := by
  by_cases hdue : y.request.call = .due
  · obtain ⟨r, heq, hcalled, -, houtcome, -⟩ := make_spec w hy hdue
    rw [heq]
    exact ⟨_, rfl, hcalled, rfl, houtcome⟩
  · rw [make_eq_self w hy hdue]
    exact ⟨y, hy, hdue, rfl, rfl⟩

/-- Once every step was taken that waits for nothing outside, no cycle is in flight whose request
had come to an outcome. -/
theorem cycle_drain [Numeric α] (horderly : c.Orderly fun _ _ => True) (w : Surroundings α)
    (hripe : ∀ y, c.cycle = some y → y.outcome = none → y.request.outcome ≠ none) :
    (c.drain w).cycle = none := by
  unfold drain
  have hmade : (c.make w).Orderly fun _ _ => True := horderly.event w .make
  have hdelivered : ((c.make w).deliver w).Orderly fun _ _ => True := hmade.event w .deliver
  have hwaits : Waits (fun _ _ => True) (c.make w) ((c.make w).deliver w) := .deliver w _
  have hcleared : ((((c.make w).deliver w).resume w).clear).cycle = none := by
    cases hcycle : c.cycle with
    | none =>
      have hnone : ((c.make w).deliver w).cycle = none := hwaits.noCycle (by simp [make, hcycle])
      simp [resume, clear, hnone]
    | some y =>
      obtain ⟨z, hz, hcalled, hended, hfetched⟩ := called_make w hcycle
      obtain ⟨r, hr, hpass⟩ := hwaits.inFlight z hz
      -- The cycle has ended before, or it goes on now with the outcome of its request.
      have hresumed : ∃ x outcome, (((c.make w).deliver w).resume w).cycle = some x ∧
          x.outcome = some outcome := by
        cases hrunning : z.outcome with
        | some outcome =>
          have hself : ((c.make w).deliver w).resume w = (c.make w).deliver w :=
            resume_eq_self w hr fun hnone => by cases hrunning.symm.trans hnone
          rw [hself]
          exact ⟨_, outcome, hr, hrunning⟩
        | none =>
          obtain ⟨fetched, hsome⟩ :=
            Option.ne_none_iff_exists'.mp (hripe y hcycle (hended.symm.trans hrunning))
          have hz' : z.request.outcome = some fetched := hfetched.trans hsome
          have hr' : r.outcome = some fetched := ((hpass.settled (hmade.busy hz hz').1).2).trans hz'
          obtain ⟨outcome, after, -, -, heq⟩ :=
            hdelivered.resume_spec w hr hrunning (fun h => hcalled (hpass.due.mp h)) hr'
          rw [heq]
          exact ⟨_, outcome, rfl, rfl⟩
      obtain ⟨x, outcome, hx, houtcome⟩ := hresumed
      exact (clear_spec hx houtcome).2.1
  have hreleased : Waits (fun _ _ => True) ((((c.make w).deliver w).resume w).clear) (c.drain w) :=
    .release _
  exact hreleased.noCycle hcleared

/-! ## A controller at hand -/

/-- A configuration with most settings at their defaults, for runs that are looked at. -/
def sampleConfig : Config Float where
  symbol := .string "BTC/USDT"
  mode := .known .autoOptimize
  riskFactor := 1
  volatilityInterval := .known .oneMinute
  lookback := 10
  updateIntervalSeconds := 60
  retryBackoffSeconds := 5
  fetchTimeoutMs := 10000
  learningRate := 0.01
  rewardWindow := 100
  gammaMin := 0.001
  gammaMax := 10
  targetFillProbability := 0.75
  stopLossRiskProbability := 0.01
  profitFactor := 2.5
  maxHoldingTimeDays := 1
  orderRefreshTimeSeconds := 15
  timeHorizonSeconds := 86400
  minSpread := 0.00005
  orderAmountShapeFactor := 1
  significantChangeThreshold := 0.01

/-- The controller for that configuration. -/
def sample : Controller Float where
  config := sampleConfig
  pricing := ⟨0.00005, 1⟩
  mode := .known .autoOptimize
  source := none
  schedule := ⟨60, none, none⟩

theorem create_sampleConfig : create sampleConfig = .ok sample := rfl

/-- Two bars with one close price. -/
def sampleBars : List (Bar Float) :=
  [⟨0, 100, 100, 100, 100, none⟩, ⟨60000, 100, 100, 100, 100, none⟩]

/-- Surroundings that answer every call of the source of bars in one way and keep out of everything
else. -/
def answering (reply : Reply Float) : Surroundings Float where
  reply _ := reply
  stopsOnSettling _ := false
  market _ _ :=
    ⟨[], .ok { midPrice := 100, inventory := 0, alpha := 1, kappa := 1, timestamp := 0 }⟩
  performance := none
  listeners := none

/-- Listeners that do nothing. -/
def silent : Listeners Float where
  onPublish _ _ _ := ⟨[], .ok ()⟩
  onFloorClamp _ _ := ⟨[], .ok ()⟩
  onFailure _ _ := ⟨[], .ok ()⟩

/-- A failure that cannot be put in words: what was thrown is no error and has no text. -/
def wordless : Failure Float := .thrown (.object [("toString", .number 1)])

end Controller

end MarketMaker.Refresh
