import MarketMaker.Proofs.Refresh.Endings

/-!
# Stopping is final

A controller that is stopped before its cycle went on with its bars never computes again.
`Final s d` says what is left of such a controller `s` at any later time `d`: the published set, the
schedule, the number of cycles and all calls but that of the source of bars are those of `s`, no
cycle is started, and the cycle in flight can only end as cancelled.

It does end, and the calls of `stop` that wait for it are over, unless its request is **stranded**:
the source of bars has failed with something that cannot be put in words, so that its answer got
lost, and the request is settled without an outcome. Then nothing ends the cycle any more.
-/

namespace MarketMaker.Refresh.Controller

variable {α : Type}

/-- A controller whose request in flight waits for nothing more and came to nothing. -/
def Stranded (c : Controller α) : Prop :=
  ∃ y, c.cycle = some y ∧ y.request.isOpen = false ∧ y.request.outcome = none

/-- What no event changes after a stop: all but the cycle in flight, the phase, the mode with its
source, how often the source of bars was called, and what was seen. -/
def lasting (c : Controller α) : Controller α :=
  { c.skeleton with phase := .idle, calls := { c.calls with fetch := 0 } }

/-- What is left of a controller that was stopped while its cycle waited. -/
structure Final (s d : Controller α) : Prop where
  /-- It is stopped still. -/
  stopped : d.stopped = true
  /-- What no event changes after a stop is as it was. -/
  lasting : d.lasting = s.lasting
  /-- Where no cycle was in flight, none is, and none has ended. -/
  noCycle : s.cycle = none → d.cycle = none ∧ d.endings = s.endings
  /-- The cycle in flight has not ended yet, or has ended as cancelled. -/
  inFlight : ∀ y, s.cycle = some y →
    (∃ z, d.cycle = some z ∧ z.number = y.number ∧ d.endings = s.endings ∧
      z.request.isOpen = false ∧ z.request.outcome = y.request.outcome ∧
      (z.outcome = none ∨ z.outcome = some .cancelled ∧ y.request.outcome ≠ none)) ∨
    d.cycle = none ∧ d.endings = s.endings ++ [(y.number, .cancelled)] ∧ y.request.outcome ≠ none

variable {given : Nat → Except (Failure α) (List (Bar α)) → Prop} {s c d : Controller α}

theorem Final.refl (hrest : s.AtRest) (hstopped : s.stopped = true)
    (hwaiting : ∀ y, s.cycle = some y → y.outcome = none) : Final s s :=
  ⟨hstopped, rfl, fun h => ⟨h, rfl⟩, fun y hy =>
    .inl ⟨y, hy, rfl, rfl, (hrest y hy).2 hstopped, rfl, .inl (hwaiting y hy)⟩⟩

/-- A stopped controller with a cycle in flight had it when it was stopped. -/
theorem Final.cycle_cases (h : Final s c) {z : Cycle α} (hz : c.cycle = some z) :
    ∃ y, s.cycle = some y ∧ z.number = y.number ∧ c.endings = s.endings ∧ z.request.isOpen = false ∧
      z.request.outcome = y.request.outcome ∧
      (z.outcome = none ∨ z.outcome = some .cancelled ∧ y.request.outcome ≠ none) := by
  cases hs : s.cycle with
  | none =>
    rw [(h.noCycle hs).1] at hz
    cases hz
  | some y =>
    rcases h.inFlight y hs with ⟨x, hx, hrest⟩ | ⟨hnone, -⟩
    · obtain rfl := Option.some.inj (hx.symm.trans hz)
      exact ⟨y, rfl, hrest⟩
    · rw [hnone] at hz
      cases hz

/-- A later cycle in flight, with nothing ended in between. -/
theorem Final.of_cycle (h : Final s c) (hstopped : d.stopped = true)
    (hlasting : d.lasting = c.lasting) (hendings : d.endings = c.endings) {z x : Cycle α}
    (hz : c.cycle = some z) (hx : d.cycle = some x) (hnumber : x.number = z.number)
    (hsettled : x.request.isOpen = false) (houtcome : x.request.outcome = z.request.outcome)
    (hended : x.outcome = z.outcome ∨ x.outcome = some .cancelled ∧ z.request.outcome ≠ none) :
    Final s d := by
  obtain ⟨y, hy, hnumber', hendings', -, houtcome', hended'⟩ := h.cycle_cases hz
  refine ⟨hstopped, hlasting.trans h.lasting, fun hnone => ?_, fun y' hy' => .inl ?_⟩
  · rw [hnone] at hy
    cases hy
  · obtain rfl := Option.some.inj (hy.symm.trans hy')
    refine ⟨x, hx, hnumber.trans hnumber', hendings.trans hendings', hsettled,
      houtcome.trans houtcome', ?_⟩
    rcases hended with hsame | ⟨hcancelled, hfetched⟩
    · rw [hsame]
      exact hended'
    · rw [houtcome'] at hfetched
      exact .inr ⟨hcancelled, hfetched⟩

/-- A later controller without a cycle in flight, with nothing ended in between. -/
theorem Final.of_noCycle (h : Final s c) (hstopped : d.stopped = true)
    (hlasting : d.lasting = c.lasting) (hendings : d.endings = c.endings) (hc : c.cycle = none)
    (hd : d.cycle = none) : Final s d := by
  refine ⟨hstopped, hlasting.trans h.lasting, fun hnone => ⟨hd, hendings.trans (h.noCycle hnone).2⟩,
    fun y hy => .inr ?_⟩
  rcases h.inFlight y hy with ⟨x, hx, -⟩ | ⟨-, hcancelled, hfetched⟩
  · rw [hc] at hx
    cases hx
  · exact ⟨hd, hendings.trans hcancelled, hfetched⟩

theorem lasting_eq_of_skeleton (h : d.skeleton = c.skeleton) : d.lasting = c.lasting := by
  have hskeleton : ∀ x : Controller α, x.lasting =
      { x.skeleton with phase := .idle, calls := { x.skeleton.calls with fetch := 0 } } :=
    fun _ => rfl
  rw [hskeleton d, hskeleton c, h]

variable [NumberText α]

theorem Final.waits (h : Final s c) (hwait : Waits given c d) : Final s d := by
  obtain ⟨said, htrace, hsaid⟩ := hwait.trace
  have hendings : d.endings = c.endings := endings_eq_of_said htrace fun e he => (hsaid e he).2
  have hlasting : d.lasting = c.lasting := lasting_eq_of_skeleton hwait.skeleton
  cases hcycle : c.cycle with
  | none =>
    exact h.of_noCycle (hwait.stopped h.stopped) hlasting hendings hcycle (hwait.noCycle hcycle)
  | some z =>
    -- A request that is settled stays so, whatever answers and deadlines come.
    obtain ⟨r, hr, hpass⟩ := hwait.inFlight z hcycle
    obtain ⟨-, -, -, -, hsettled, -⟩ := h.cycle_cases hcycle
    obtain ⟨hclosed, houtcome⟩ := hpass.settled hsettled
    exact h.of_cycle (hwait.stopped h.stopped) hlasting hendings hcycle hr rfl hclosed houtcome
      (.inl rfl)

omit [NumberText α] in
/-- The call of the source of bars may still be made, and comes to nothing. -/
theorem Final.make (h : Final s c) (w : Surroundings α) {z : Cycle α} (hz : c.cycle = some z)
    (hdue : z.request.call = .due) : Final s (c.make w) := by
  obtain ⟨r, heq, -, hopen, houtcome, -⟩ := make_spec w hz hdue
  obtain ⟨-, -, -, -, hsettled, -⟩ := h.cycle_cases hz
  rw [heq]
  refine h.of_cycle h.stopped rfl ?_ hz rfl rfl (hopen.trans hsettled) houtcome (.inl rfl)
  simp [endings, Occurrence.ending?]

variable [Scalar α]

/-- A cycle that is taken out of flight was cancelled. -/
theorem Final.clear (h : Final s c) {z : Cycle α} {outcome : Outcome α} (hz : c.cycle = some z)
    (hended : z.outcome = some outcome) : Final s c.clear := by
  obtain ⟨hskeleton, hnone, hstopped, said, htrace, hsaid⟩ := clear_spec hz hended
  obtain ⟨y, hy, hnumber, hendings, -, -, hrunning | ⟨hcancelled, hfetched⟩⟩ := h.cycle_cases hz
  · exact absurd (hended.symm.trans hrunning) (by simp)
  · obtain rfl := Option.some.inj (hended.symm.trans hcancelled)
    refine ⟨hstopped.trans h.stopped, (lasting_eq_of_skeleton hskeleton).trans h.lasting,
      fun hnone => ?_, fun y' hy' => .inr ?_⟩
    · rw [hnone] at hy
      cases hy
    · obtain rfl := Option.some.inj (hy.symm.trans hy')
      refine ⟨hnone, ?_, hfetched⟩
      rw [← hnumber, ← hendings]
      exact endings_clear hz hended

variable [Numeric α]

/-- A cycle that goes on after a stop is cancelled. -/
theorem Final.resume (h : Final s c) (horderly : c.Orderly given) (w : Surroundings α) {z : Cycle α}
    {fetched : Except (Failure α) (List (Bar α))} (hz : c.cycle = some z)
    (hrunning : z.outcome = none) (hcalled : z.request.call ≠ .due)
    (hfetched : z.request.outcome = some fetched) : Final s (c.resume w) := by
  obtain ⟨outcome, after, hconclude, -, heq⟩ := horderly.resume_spec w hz hrunning hcalled hfetched
  rw [conclude_of_stopped w _ _ h.stopped] at hconclude
  obtain ⟨rfl, rfl⟩ := Prod.mk.inj hconclude
  obtain ⟨-, -, -, -, hsettled, -⟩ := h.cycle_cases hz
  rw [heq]
  refine h.of_cycle h.stopped rfl rfl hz rfl rfl hsettled rfl (.inr ⟨rfl, ?_⟩)
  rw [hfetched]
  exact Option.some_ne_none _

/-- What no event changes after a stop is changed by none. -/
theorem Final.move (h : Final s c) (horderly : c.Orderly given) {w : Surroundings α}
    (hmove : Move w given c d) : Final s d := by
  cases hmove with
  | wait hwait => exact h.waits hwait
  | start ticked now hcycle hstopped => exact absurd (h.stopped.symm.trans hstopped) (by simp)
  | make hz hdue => exact h.make w hz hdue
  | resume hz hrunning hcalled hfetched => exact h.resume horderly w hz hrunning hcalled hfetched
  | clear hz hended => exact h.clear hz hended

/-- Nothing brings a stopped controller further than that. -/
theorem Final.run (h : Final s c) (horderly : c.Orderly fun _ _ => True) (w : Surroundings α)
    (events : List (Event α)) :
    Final s (c.run w events) ∧ (c.run w events).Orderly fun _ _ => True := by
  apply run_invariant (fun d => Final s d ∧ d.Orderly fun _ _ => True) w events
  · rintro d ⟨hfinal, hd⟩ event -
    have hmove : Move w (fun _ _ => True) d (d.step w event) := .of_step w fun _ _ _ => trivial
    exact ⟨hfinal.move hd hmove, hd.move (fun _ _ _ => trivial) hmove⟩
  · exact ⟨h, horderly⟩

/-- How a controller is found at a time `d` after it was stopped as `s`. -/
structure StaysStopped (s d : Controller α) : Prop where
  /-- The published set was not replaced. -/
  published : d.published = s.published ∧ d.publications = s.publications
  /-- The schedule is as it was. -/
  schedule : d.schedule = s.schedule
  /-- No cycle was started. -/
  cycles : d.cycles = s.cycles
  /-- Neither the market nor the performance is asked for, and no listener is told anything. -/
  calls : { d.calls with fetch := s.calls.fetch } = s.calls
  /-- A tick does nothing. -/
  tick : ∀ now, d.tick now = .ok d
  /-- A refresh is skipped, or waits for the cycle that was in flight. -/
  refresh : ∀ now, d.cycle = none ∧ d.refresh now = (.skipped, d) ∨
    ∃ y, s.cycle = some y ∧ d.cycle.map (·.number) = some y.number ∧
      d.refresh now = (.cycle y.number, d)
  /-- The cycle that was in flight comes to nothing but a cancellation. -/
  outcome : ∀ y outcome, s.cycle = some y → Session.ended? d y.number = some outcome →
    outcome = .cancelled
  /-- Who waits for the end of the stop finds the controller idle, with no cycle in flight. -/
  stop : ∀ told, Session.answer? d (.stopped (s.cycle.map (·.number))) = some told →
    told = .stopped ∧ d.cycle = none ∧ d.phase = .idle

theorem Final.staysStopped (h : Final s d) (hs : s.Orderly fun _ _ => True)
    (hd : d.Orderly fun _ _ => True) : StaysStopped s d := by
  -- All that never changes is read off one equation.
  have hlasting {β : Type} (f : Controller α → β) : f d.lasting = f s.lasting :=
    congrArg f h.lasting
  have houtcome : ∀ y outcome, s.cycle = some y → Session.ended? d y.number = some outcome →
      outcome = .cancelled ∧ d.cycle = none := by
    intro y outcome hy hended
    have hbefore := hs.lookup_inFlight hy
    rw [ended?_eq_lookup] at hended
    rcases h.inFlight y hy with ⟨z, -, -, hendings, -⟩ | ⟨hnone, hendings, -⟩
    · rw [hendings, hbefore] at hended
      cases hended
    · rw [hendings, List.lookup_append, hbefore] at hended
      simp at hended
      exact ⟨hended.symm, hnone⟩
  refine ⟨⟨hlasting (·.published), hlasting (·.publications)⟩, hlasting (·.schedule),
    hlasting (·.cycles), ?_, fun now => tick_of_held now (by simp [h.stopped]), fun now => ?_,
    fun y outcome hy hended =>
      (houtcome y outcome hy hended).1, fun told htold => ?_⟩
  · have hcalls : { d.calls with fetch := 0 } = { s.calls with fetch := 0 } := hlasting (·.calls)
    have hback := congrArg (fun calls : Calls => { calls with fetch := s.calls.fetch }) hcalls
    exact hback
  · cases hcycle : d.cycle with
    | none => exact .inl ⟨rfl, by simp [Controller.refresh, hcycle, h.stopped]⟩
    | some z =>
      obtain ⟨y, hy, hnumber, -⟩ := h.cycle_cases hcycle
      refine .inr ⟨y, hy, by simp [hnumber], ?_⟩
      rw [refresh_of_busy hcycle, hnumber]
  · cases hs : s.cycle with
    | none =>
      rw [hs] at htold
      obtain ⟨hnone, -⟩ := h.noCycle hs
      exact ⟨(Option.some.inj htold).symm, hnone, hd.idle hnone⟩
    | some y =>
      rw [hs] at htold
      simp only [Option.map_some, Session.answer?] at htold
      obtain ⟨outcome, hended, rfl⟩ := Option.map_eq_some_iff.mp htold
      obtain ⟨rfl, hnone⟩ := houtcome y outcome hs hended
      exact ⟨rfl, hnone, hd.idle hnone⟩

/-- The cycle of a stopped controller ends as cancelled once every step was taken that waits for
nothing outside, unless it is stranded: then it never ends. -/
theorem Final.ended?_drain (h : Final s d) (hstopped : s.stopped = true)
    (hs : s.Orderly fun _ _ => True) (hd : d.Orderly fun _ _ => True) (w : Surroundings α)
    {y : Cycle α} (hy : s.cycle = some y) :
    Session.ended? (d.drain w) y.number = some .cancelled ↔ ¬ s.Stranded := by
  obtain ⟨hdrained, -⟩ := h.run hd w [.make, .deliver, .resume, .clear, .release]
  have hdrain : d.run w [.make, .deliver, .resume, .clear, .release] = d.drain w := rfl
  rw [hdrain] at hdrained
  have hbefore := hs.lookup_inFlight hy
  rw [ended?_eq_lookup]
  constructor
  · -- A stranded request leaves the cycle nothing to go on with.
    rintro hended ⟨x, hx, -, hlost⟩
    obtain rfl := Option.some.inj (hy.symm.trans hx)
    rcases hdrained.inFlight y hy with ⟨z, -, -, hendings, -⟩ | ⟨-, -, hfetched⟩
    · rw [hendings, hbefore] at hended
      cases hended
    · exact hfetched hlost
  · intro hstranded
    have hnone : (d.drain w).cycle = none := by
      apply cycle_drain hd w
      intro z hz _ hlost
      obtain ⟨x, hx, -, -, -, houtcome, -⟩ := h.cycle_cases hz
      exact hstranded ⟨x, hx, (hs.rest x hx).2 hstopped, houtcome.symm.trans hlost⟩
    rcases hdrained.inFlight y hy with ⟨z, hz, -⟩ | ⟨-, hendings, -⟩
    · rw [hnone] at hz
      cases hz
    · rw [hendings, List.lookup_append, hbefore]
      simp

omit [Scalar α] [NumberText α] [Numeric α] in
/-- Who waits for the end of a stop waits for the cycle that was in flight. -/
theorem answer?_stopped (s d : Controller α) {y : Cycle α} (hy : s.cycle = some y)
    (hended : ∀ outcome, Session.ended? d y.number = some outcome → outcome = .cancelled) :
    Session.answer? d (.stopped (s.cycle.map (·.number))) = some .stopped ↔
      Session.ended? d y.number = some .cancelled := by
  simp only [hy, Option.map_some, Session.answer?]
  constructor
  · intro htold
    obtain ⟨outcome, houtcome, -⟩ := Option.map_eq_some_iff.mp htold
    rw [houtcome, hended outcome houtcome]
  · intro houtcome
    rw [houtcome]
    rfl

/-- **Stopping is final.** Take any run up to a moment `s` when the controller was stopped and its
cycle had not gone on yet, and any run from there to `d`. Nothing but the end of the cycle is left
to happen; and once every step was taken that waits for nothing outside, the cycle has ended as
cancelled and the stop is over, exactly when the answer to its request had not got lost. -/
theorem stop_final_and_over_iff {config : Config α} {c₀ : Controller α}
    (hcreate : create config = .ok c₀) (w : Surroundings α) (before after : List (Event α))
    (hstopped : (c₀.run w before).stopped = true)
    (hwaiting : ∀ y, (c₀.run w before).cycle = some y → y.outcome = none) :
    let s := c₀.run w before
    let d := s.run w after
    StaysStopped s d ∧
      (∀ y, s.cycle = some y →
        (Session.ended? (d.drain w) y.number = some .cancelled ↔ ¬ s.Stranded)) ∧
      (Session.answer? (d.drain w) (.stopped (s.cycle.map (·.number))) = some .stopped ↔
        ¬ s.Stranded) := by
  have hs : (c₀.run w before).Orderly fun _ _ => True :=
    orderly_run hcreate (fun _ _ _ => trivial) (fun _ _ _ => trivial)
  generalize c₀.run w before = s at hstopped hwaiting hs ⊢
  have hrefl : Final s s := .refl hs.rest hstopped hwaiting
  obtain ⟨hfinal, hd⟩ := hrefl.run hs w after
  have hended {y : Cycle α} (hy : s.cycle = some y) := hfinal.ended?_drain hstopped hs hd w hy
  refine ⟨hfinal.staysStopped hs hd, fun y hy => hended hy, ?_⟩
  cases hcycle : s.cycle with
  | none =>
    have hstranded : ¬ s.Stranded := by
      rintro ⟨y, hy, -⟩
      rw [hcycle] at hy
      cases hy
    exact iff_of_true rfl hstranded
  | some y =>
    obtain ⟨hdrained, hdrainedOrderly⟩ :=
      hfinal.run hd w [.make, .deliver, .resume, .clear, .release]
    have hstays : StaysStopped s ((s.run w after).drain w) :=
      hdrained.staysStopped hs hdrainedOrderly
    rw [← hcycle, answer?_stopped s _ hcycle (hstays.outcome y · hcycle)]
    exact hended hcycle

/-- A cycle that is stopped while the source of bars is called, and gets its bars later. -/
theorem stop_final_and_over_iff_lateBars :
    let w := answering .later
    let s := sample.run w [.refresh 1, .make, .stop]
    let d := s.run w [.answer 0 (.ok []), .refresh 2]
    (s.stopped = true ∧ (∀ y, s.cycle = some y → y.outcome = none) ∧ ¬ s.Stranded) ∧
      StaysStopped s d ∧ Session.answer? (d.drain w) (.stopped (some 0)) = some .stopped := by
  have hstopped : (sample.run (answering .later) [.refresh 1, .make, .stop]).stopped = true := rfl
  have hwaiting : ∀ y, (sample.run (answering .later) [.refresh 1, .make, .stop]).cycle = some y →
      y.outcome = none := by
    rintro y hy
    obtain rfl := Option.some.inj hy
    rfl
  have hstranded : ¬ (sample.run (answering .later) [.refresh 1, .make, .stop]).Stranded := by
    rintro ⟨y, hy, -, hlost⟩
    obtain rfl := Option.some.inj hy
    cases hlost
  obtain ⟨hstays, -, hover⟩ := stop_final_and_over_iff create_sampleConfig (answering .later)
    [.refresh 1, .make, .stop] [.answer 0 (.ok []), .refresh 2] hstopped hwaiting
  exact ⟨⟨hstopped, hwaiting, hstranded⟩, hstays, hover.mpr hstranded⟩

/-- The source of bars fails with something that cannot be put in words, and the controller is
stopped at that moment, before the cycle goes on. The cycle never ends, and neither does the
stop. -/
theorem stop_not_over_wordless :
    let w := { answering .later with stopsOnSettling := fun _ => true }
    let s := sample.run w [.refresh 1, .make, .answer 0 (.error wordless), .deliver]
    s.stopped = true ∧ (∃ y, s.cycle = some y ∧ y.outcome = none) ∧
      (s.drain w).phase = .fetching ∧ Session.ended? (s.drain w) 0 = none ∧
      Session.answer? (s.drain w) (.stopped (some 0)) = none := by
  exact ⟨rfl, ⟨_, rfl, rfl⟩, rfl, rfl, rfl⟩

end MarketMaker.Refresh.Controller
