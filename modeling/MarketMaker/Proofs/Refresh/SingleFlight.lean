import MarketMaker.Proofs.Refresh.Unseen
import MarketMaker.Proofs.Refresh.Words

/-!
# One cycle at a time, and no stale answer

Cycles run one after the other, whatever order the events come in and whatever callbacks do: each
calls the source of bars once, ends once, and everybody who joined it is told the same outcome.

An answer that comes late, to a call whose request has settled meanwhile or whose cycle is gone,
makes no difference. Two controllers are `Alike` when they differ at most in where the call of a
settled request stands. Nothing reads that any more but the arrival of the answer itself, so two
such controllers stay alike through every run.
-/

namespace MarketMaker.Refresh

variable {α : Type}

/-- A cycle whose call stands elsewhere. -/
def Cycle.recall (call : Call α (List (Bar α))) (y : Cycle α) : Cycle α :=
  { y with request := { y.request with call } }

namespace Controller

/-- Two controllers that differ at most in where the call of a settled request stands. -/
def Alike (c d : Controller α) : Prop :=
  d = c ∨ ∃ y call, c.cycle = some y ∧ y.request.isOpen = false ∧ y.request.call ≠ .due ∧
    call ≠ .due ∧ d = c.seat (y.recall call)

variable {given : Nat → Except (Failure α) (List (Bar α)) → Prop} {c d : Controller α} {y : Cycle α}

theorem Alike.refl (c : Controller α) : Alike c c := .inl rfl

/-! ## A settled request -/

/-- Whatever settles a request finds a settled one settled already. -/
theorem settling_of_settled (w : Surroundings α)
    {f : Request α (List (Bar α)) → Request α (List (Bar α))} (hy : c.cycle = some y)
    (hsettled : y.request.isOpen = false) : c.settling w f = c.onRequest f := by
  have hnone : c.openCall? = none := by simp [openCall?, hy, hsettled]
  simp only [settling, hnone]

/-- A change of the request that neither looks at the call nor moves it. -/
theorem onRequest_recall {f : Request α (List (Bar α)) → Request α (List (Bar α))}
    (hf : ∀ (r : Request α (List (Bar α))) call, f { r with call } = { f r with call })
    (hy : c.cycle = some y) (call : Call α (List (Bar α))) :
    (c.seat (y.recall call)).onRequest f =
      (c.onRequest f).seat (({ y with request := f y.request } : Cycle α).recall call) := by
  have hmoved : f { y.request with call } = { f y.request with call } := hf y.request call
  simp only [onRequest, hy, seat, Cycle.recall, hmoved]
  cases y.call with
  | none => rfl
  | some n =>
    dsimp only
    split <;> rfl

/-- A change of the request that only moves its call. -/
theorem onRequest_eq_recall {f : Request α (List (Bar α)) → Request α (List (Bar α))}
    {call : Call α (List (Bar α))} (hy : c.cycle = some y)
    (hf : f y.request = { y.request with call }) : c.onRequest f = c.seat (y.recall call) := by
  simp only [onRequest, hy, hf, Bool.and_not_self, Bool.false_eq_true, if_false]
  split <;> rfl

/-- Its own call stands where it stands. -/
theorem eq_recall (hy : c.cycle = some y) : c = c.seat (y.recall y.request.call) := by
  rw [seat, Cycle.recall, ← hy]

/-- An answer to a call that was made only moves the call. -/
theorem answer_eq_recall (n : Nat) (a : Except (Failure α) (List (Bar α))) (hy : c.cycle = some y)
    (hcalled : y.request.call ≠ .due) :
    ∃ call, call ≠ .due ∧ c.answer n a = c.seat (y.recall call) := by
  by_cases hcall : y.call = some n
  · have hanswer : ∃ call, call ≠ .due ∧ y.request.answer a = { y.request with call } := by
      unfold Request.answer
      split
      · exact ⟨.answered a, nofun, rfl⟩
      · exact ⟨y.request.call, hcalled, rfl⟩
    obtain ⟨call, hdue, heq⟩ := hanswer
    refine ⟨call, hdue, ?_⟩
    simp only [answer, hy, hcall, if_true]
    exact onRequest_eq_recall hy heq
  · refine ⟨y.request.call, hcalled, ?_⟩
    rw [← eq_recall hy]
    simp [answer, hy, hcall]

variable [NumberText α]

/-- An answer that arrives at a settled request is thrown away. -/
theorem deliver_eq_recall (w : Surroundings α) (hy : c.cycle = some y)
    (hsettled : y.request.isOpen = false) (hdeaf : y.request.listening = false)
    (hcalled : y.request.call ≠ .due) :
    ∃ call, call ≠ .due ∧ c.deliver w = c.seat (y.recall call) := by
  have hreceive : ∃ call, call ≠ .due ∧ y.request.receive = { y.request with call } := by
    unfold Request.receive
    split
    · have hclosed : ({ y.request with call := .over } : Request α (List (Bar α))).isOpen = false :=
        hsettled
      refine ⟨.over, nofun, ?_⟩
      dsimp only
      split
      · exact Request.settle_of_settled hclosed
      · simp [Request.lose, hclosed]
    · exact ⟨y.request.call, hcalled, rfl⟩
  obtain ⟨call, hdue, heq⟩ := hreceive
  refine ⟨call, hdue, ?_⟩
  have hlosing : c.cycle.any (·.request.isLosing) = false := by
    rw [hy]
    simp only [Option.any_some, Request.isLosing, hsettled]
    split <;> rfl
  have hdetach : (y.recall call).request.detach = (y.recall call).request := by
    simp [Request.detach, Cycle.recall, hdeaf]
  simp only [deliver, hlosing, Bool.false_eq_true, if_false, settling_of_settled w hy hsettled,
    onRequest_eq_recall hy heq]
  apply onRequest_eq_self
  intro z hz
  obtain rfl := Option.some.inj hz
  split
  · rfl
  · exact hdetach

omit [NumberText α] in
theorem cycle_onRequest {f : Request α (List (Bar α)) → Request α (List (Bar α))}
    (hy : c.cycle = some y) : (c.onRequest f).cycle = some { y with request := f y.request } := by
  obtain ⟨said, heq, -⟩ := onRequest_of_some (f := f) hy
  rw [heq]

/-! ## Staying alike -/

omit [NumberText α] in
theorem Alike.of_recall {call : Call α (List (Bar α))} (hy : c.cycle = some y)
    (hsettled : y.request.isOpen = false) (hcalled : y.request.call ≠ .due) (hdue : call ≠ .due) :
    Alike c (c.seat (y.recall call)) :=
  .inr ⟨y, call, hy, hsettled, hcalled, hdue, rfl⟩

/-- A deadline that passes finds the two alike and leaves them alike. -/
theorem Alike.expire (w : Surroundings α) {call : Call α (List (Bar α))} (hy : c.cycle = some y)
    (hsettled : y.request.isOpen = false) (hcalled : y.request.call ≠ .due) (hdue : call ≠ .due) :
    Alike (c.expire w) ((c.seat (y.recall call)).expire w) := by
  have htimeOut (r : Request α (List (Bar α))) (call : Call α (List (Bar α))) :
      ({ r with call } : Request α (List (Bar α))).timeOut c.config.fetchTimeoutMs =
        { r.timeOut c.config.fetchTimeoutMs with call } := by
    unfold Request.timeOut Request.settle
    cases harmed : r.armed <;> cases hopen : r.settled <;>
      simp [Request.abort, Request.isOpen, harmed, hopen]
  have hclose (r : Request α (List (Bar α))) (call : Call α (List (Bar α))) :
      (if ({ r with call } : Request α (List (Bar α))).isOpen then { r with call }
        else ({ r with call } : Request α (List (Bar α))).detach) =
        { (if r.isOpen then r else r.detach) with call } := by
    cases hopen : r.settled <;> simp [Request.detach, Request.isOpen, hopen]
  have hpass : Request.Passes (fun _ => True) y.request _ :=
    (Request.Passes.timeOut c.config.fetchTimeoutMs y.request).trans (.close _)
  have hexpired := cycle_onRequest (f := (·.timeOut c.config.fetchTimeoutMs)) hy
  have hconfig : (c.seat (y.recall call)).config = c.config := rfl
  simp only [Controller.expire, settling_of_settled w hy hsettled,
    settling_of_settled w (c := c.seat (y.recall call)) rfl hsettled, hconfig,
    onRequest_recall htimeOut hy call]
  rw [onRequest_recall hclose hexpired call]
  exact .of_recall (cycle_onRequest hexpired) (hpass.settled hsettled).1
    (fun h => hcalled (hpass.due.mp h)) hdue

variable [Scalar α]

omit [NumberText α] in
/-- Where the call of a cycle stands is no matter when that is taken out of flight. -/
theorem Alike.clear [NumberText α] {call : Call α (List (Bar α))} (hy : c.cycle = some y)
    (hsettled : y.request.isOpen = false) (hcalled : y.request.call ≠ .due) (hdue : call ≠ .due) :
    Alike c.clear (c.seat (y.recall call)).clear := by
  cases hended : y.outcome with
  | none =>
    have hself : c.clear = c := by simp [Controller.clear, hy, hended]
    have hseat : (c.seat (y.recall call)).clear = c.seat (y.recall call) := by
      simp [Controller.clear, seat, Cycle.recall, hended]
    rw [hself, hseat]
    exact .of_recall hy hsettled hcalled hdue
  | some outcome =>
    refine .inl ?_
    simp only [Controller.clear, hy, hended, seat, Cycle.recall]
    cases outcome <;> rfl

variable [Numeric α]

/-- A cycle does not see where its call stands when it goes on. -/
theorem Alike.resume (w : Surroundings α) {call : Call α (List (Bar α))}
    (horderly : c.Orderly given) (hy : c.cycle = some y) (hsettled : y.request.isOpen = false)
    (hcalled : y.request.call ≠ .due) (hdue : call ≠ .due) :
    Alike (c.resume w) ((c.seat (y.recall call)).resume w) := by
  have hkeep (hrest : y.outcome = none → y.request.outcome = none) :
      Alike (c.resume w) ((c.seat (y.recall call)).resume w) := by
    rw [resume_eq_self w hy hrest, resume_eq_self w (c := c.seat (y.recall call)) rfl hrest]
    exact .of_recall hy hsettled hcalled hdue
  cases hrunning : y.outcome with
  | some outcome => exact hkeep fun hnone => absurd (hrunning.symm.trans hnone) (by simp)
  | none =>
    cases hfetched : y.request.outcome with
    | none => exact hkeep fun _ => hfetched
    | some fetched =>
      obtain ⟨outcome, after, hconclude, hconcludes, heq⟩ :=
        horderly.resume_spec w hy hrunning hcalled hfetched
      obtain ⟨-, hbusy⟩ := horderly.busy hy hfetched
      have hdeaf : y.request.listening = false := (horderly.rest y hy).1.deaf hsettled
      have hseat := resume_eq w (c := c.seat (y.recall call)) rfl hrunning hdue hfetched
      have hstarted : (y.recall call).startedAt = y.startedAt := rfl
      rw [hstarted, conclude_seat (y := y.recall call) w fetched y.startedAt hbusy hdeaf,
        hconclude] at hseat
      rw [heq, hseat]
      exact .of_recall (y := { y with outcome := some outcome }) rfl hsettled hcalled hdue

/-- **Every event keeps two controllers alike.** -/
theorem Alike.step (horderly : c.Orderly given) (h : Alike c d) (w : Surroundings α)
    (event : Event α) : Alike (c.step w event) (d.step w event) := by
  obtain rfl | ⟨y, call, hy, hsettled, hcalled, hdue, rfl⟩ := h
  · exact .refl _
  -- From here on the two differ in where the call of the cycle in flight stands, and in nothing
  -- else.
  have hdeaf : y.request.listening = false := (horderly.rest y hy).1.deaf hsettled
  have hkeep : Alike c (c.seat (y.recall call)) := .of_recall hy hsettled hcalled hdue
  cases event with
  | tick now =>
    simp only [Controller.step, ticked, tick_of_held (c := c) now (by simp [hy]),
      tick_of_held (c := c.seat (y.recall call)) now rfl]
    exact hkeep
  | refresh now =>
    simp only [Controller.step, refresh_of_busy hy,
      refresh_of_busy (c := c.seat (y.recall call)) rfl]
    exact hkeep
  | stop =>
    have hbusy : c.Busy := ⟨y, hy, hdeaf⟩
    have hseat : (c.seat (y.recall call)).Busy := ⟨_, rfl, hdeaf⟩
    simp only [Controller.step, stop_of_busy w hbusy, stop_of_busy w hseat]
    exact .of_recall (c := { c with stopped := true, stopping := c.stopping + 1 }) hy
      hsettled hcalled hdue
  | setMode mode =>
    simp only [Controller.step, switched_seat]
    exact .of_recall ((Aside.switched mode c).cycle.trans hy) hsettled hcalled hdue
  | answer n a =>
    obtain ⟨stands, hstands, heq⟩ := answer_eq_recall n a hy hcalled
    obtain ⟨stands', hstands', heq'⟩ :=
      answer_eq_recall (c := c.seat (y.recall call)) n a rfl hdue
    simp only [Controller.step, heq, heq']
    exact .of_recall (c := c.seat (y.recall stands)) (y := y.recall stands)
      rfl hsettled hstands hstands'
  | expire => exact .expire w hy hsettled hcalled hdue
  | make =>
    simp only [Controller.step, make_eq_self w hy hcalled,
      make_eq_self w (c := c.seat (y.recall call)) rfl hdue]
    exact hkeep
  | deliver =>
    obtain ⟨stands, hstands, heq⟩ := deliver_eq_recall w hy hsettled hdeaf hcalled
    obtain ⟨stands', hstands', heq'⟩ :=
      deliver_eq_recall (c := c.seat (y.recall call)) w rfl hsettled hdeaf hdue
    simp only [Controller.step, heq, heq']
    exact .of_recall (c := c.seat (y.recall stands)) (y := y.recall stands)
      rfl hsettled hstands hstands'
  | resume => exact .resume w horderly hy hsettled hcalled hdue
  | clear => exact .clear hy hsettled hcalled hdue
  | release =>
    have hrelease {x : Controller α} (hx : x.cycle.isSome = true) : x.release = x := by
      simp [release, hx]
    simp only [Controller.step, hrelease (x := c) (by simp [hy]),
      hrelease (x := c.seat (y.recall call)) rfl]
    exact hkeep

/-- **Two controllers that are alike stay alike.** -/
theorem Alike.run (horderly : c.Orderly fun _ _ => True) (h : Alike c d) (w : Surroundings α)
    (events : List (Event α)) : Alike (c.run w events) (d.run w events) := by
  induction events generalizing c d with
  | nil => exact h
  | cons event rest ih =>
    exact ih (horderly.event w event) (h.step horderly w event)

omit [Scalar α] [Numeric α] in
/-- An answer to a call that no open request waits for. -/
theorem Alike.answer (horderly : c.Orderly given) {n : Nat} (hclosed : c.openCall? ≠ some n)
    (a : Except (Failure α) (List (Bar α))) : Alike c (c.answer n a) := by
  cases hy : c.cycle with
  | none => exact .inl (by simp [Controller.answer, hy])
  | some y =>
    by_cases hcall : y.call = some n
    · have hsettled : y.request.isOpen = false := by
        cases hopen : y.request.isOpen with
        | false => rfl
        | true => exact absurd (by simp [openCall?, hy, hopen, hcall]) hclosed
      have hcalled : y.request.call ≠ .due := by
        intro hdue
        rw [((horderly.inFlight y hy).due hdue).1] at hcall
        cases hcall
      obtain ⟨call, hdue, heq⟩ := answer_eq_recall n a hy hcalled
      rw [heq]
      exact .of_recall hy hsettled hcalled hdue
    · exact .inl (by simp [Controller.answer, hy, hcall])

/-! ## The whole of it -/

omit [Scalar α] [Numeric α] in
/-- The milestones are those of the cycles that have ended, and then the call of the one in
flight. -/
theorem Orderly.milestones (h : c.Orderly given) :
    c.milestones = rounds c.ended ++ (c.cycle.bind (·.call)).toList.map .called := by
  obtain ⟨-, hcycles, hnumber⟩ := h.endings
  cases hy : c.cycle with
  | none =>
    rw [hy] at hcycles
    rw [(h.noCycle hy).2, hcycles]
    exact (List.append_nil _).symm
  | some y =>
    have hfits := h.inFlight y hy
    rw [← hnumber y hy]
    by_cases hdue : y.request.call = .due
    · obtain ⟨hcall, -, hpassed⟩ := hfits.due hdue
      simp [hpassed, hcall]
    · obtain ⟨hcall, -, hpassed⟩ := hfits.called hdue
      simp [hpassed, hcall]

omit [NumberText α] [Scalar α] [Numeric α] in
/-- What a run gives to the calls of the source of bars: the answers that come at once, and those
that come later. -/
def answers (w : Surroundings α) (events : List (Event α)) (call : Nat)
    (a : Except (Failure α) (List (Bar α))) : Prop :=
  w.reply call = .now a ∨ .answer call a ∈ events

/-- A cycle that succeeded did so with bars that were given to the call of its number. -/
theorem exists_bars_of_success {config : Config α} {c₀ : Controller α}
    (hcreate : create config = .ok c₀) (w : Surroundings α) (events : List (Event α)) {n : Nat}
    {outcome : Outcome α} (hended : (n, outcome) ∈ (c₀.run w events).endings)
    (hsuccess : outcome.isSuccess = true) : ∃ bars, answers w events n (.ok bars) := by
  -- A success has bars from the moment the cycle comes to it, and keeps them until the cycle ends.
  have hholds := run_invariant (c := c₀)
    (fun d => d.Orderly (answers w events) ∧ ∀ p ∈ d.endings, p.2.isSuccess = true →
      ∃ bars, answers w events p.1 (.ok bars)) w events (fun d hd event hevent => ?_) ?_
  · exact hholds.2 (n, outcome) hended hsuccess
  · obtain ⟨hd, hvouched⟩ := hd
    have hmove : Move w (answers w events) d (d.step w event) := by
      apply Move.of_step w
      rintro call a rfl
      exact .inr hevent
    refine ⟨hd.move (fun _ _ hreply => .inl hreply) hmove, ?_⟩
    rcases hmove.endings hd with hsame | ⟨y, result, hy, hresult, -, hadded⟩
    · rwa [hsame]
    · rw [hadded]
      intro p hp hp'
      rcases List.mem_append.mp hp with hp | hp
      · exact hvouched p hp hp'
      · obtain rfl := List.mem_singleton.mp hp
        have hfits := hd.inFlight y hy
        obtain ⟨hcalled, -, hbars⟩ := hfits.ended result hresult
        obtain ⟨bars, hbars⟩ := hbars hp'
        obtain ⟨call, hcall, hgiven⟩ := hfits.answered.outcome bars hbars
        obtain rfl := Option.some.inj ((hfits.called hcalled).1.symm.trans hcall)
        exact ⟨bars, hgiven⟩
  · obtain ⟨pricing, source, rfl⟩ := create_spec hcreate
    refine ⟨.create hcreate, fun p hp => ?_⟩
    cases hp

/-- How a controller is found after some events. -/
structure SingleFlight (w : Surroundings α) (events : List (Event α))
    (c : Controller α) : Prop where
  /-- Cycles are numbered as they start. They end in that order, each once, and at most one more is
  in flight. -/
  numbers : c.endings.map Prod.fst = List.range c.ended ∧
    c.cycles = c.ended + (if c.cycle.isSome then 1 else 0) ∧ ∀ y, c.cycle = some y →
    y.number = c.ended
  /-- A controller that is not idle has a cycle in flight that has not come to its end. -/
  phase : c.phase ≠ .idle → ∃ y, c.cycle = some y ∧ y.outcome = none
  /-- Each cycle that has ended called the source of bars once before, and the one in flight at most
  once. -/
  calls : c.milestones = rounds c.ended ++ (c.cycle.bind (·.call)).toList.map .called
  /-- Whoever waits for a cycle that has ended is told of its end, now and at any later time. -/
  told : ∀ n outcome, (n, outcome) ∈ c.endings → ∀ later,
    Session.answer? (c.run w later) (.outcome n) = some (.of (.outcome outcome) outcome)
  /-- A refresh is given the cycle in flight, or one that it starts, unless the controller was
  stopped. -/
  joined : ∀ now, c.refresh now = (.skipped, c) ∧ c.stopped = true ∧ c.cycle = none ∨
    ∃ y, (c.refresh now).2.cycle = some y ∧ (c.refresh now).1 = .cycle y.number
  /-- The bars of the cycle in flight were given to its own call. -/
  bars : ∀ y bars, c.cycle = some y → y.request.outcome = some (.ok bars) →
    y.call = some y.number ∧ answers w events y.number (.ok bars)
  /-- A cycle that has succeeded had bars that were given to its own call. -/
  succeeded : ∀ n outcome, (n, outcome) ∈ c.endings → outcome.isSuccess = true →
    ∃ bars, answers w events n (.ok bars)
  /-- While a cycle goes on with the outcome of its request, callbacks neither end it nor start
  another. -/
  reentry : ∀ y fetched, c.cycle = some y → y.request.outcome = some fetched →
    ∀ d : Controller α, d.cycle = c.cycle → ∀ actions, (d.performAll w actions).2.cycle = c.cycle ∧
      (d.performAll w actions).2.cycles = d.cycles ∧ (d.performAll w actions).2.phase = d.phase
  /-- An answer that comes when no open request waits for it makes no difference, then or at any
  later time. -/
  late : ∀ call a, c.openCall? ≠ some call → ∀ later,
    Alike (c.run w later) ((c.answer call a).run w later)

theorem singleFlight_run {config : Config α} {c₀ : Controller α} (hcreate : create config = .ok c₀)
    (w : Surroundings α) (events : List (Event α)) : SingleFlight w events (c₀.run w events) := by
  have horderly : (c₀.run w events).Orderly (answers w events) :=
    orderly_run hcreate (fun _ _ => .inl) (fun _ _ => .inr)
  have horderly' : (c₀.run w events).Orderly fun _ _ => True :=
    orderly_run hcreate (fun _ _ _ => trivial) (fun _ _ _ => trivial)
  have hsucceeded (n : Nat) (outcome : Outcome α) :=
    @exists_bars_of_success α _ _ _ config c₀ hcreate w events n outcome
  generalize c₀.run w events = c at *
  refine ⟨horderly.endings, horderly.phase, horderly.milestones,
    fun n outcome hmem => answer?_outcome horderly' hmem w, fun now => ?_,
    fun y bars hy hbars => ?_, hsucceeded, fun y fetched hy hfetched d hd actions => ?_,
    fun call a hclosed later => ?_⟩
  · cases hy : c.cycle with
    | some y => exact .inr ⟨y, by rw [refresh_of_busy hy]; exact ⟨hy, rfl⟩⟩
    | none =>
      cases hstopped : c.stopped with
      | true => exact .inl ⟨by simp [refresh, hy, hstopped], rfl, rfl⟩
      | false =>
        have hstart : c.refresh now = (.cycle c.cycles, c.start false now) := by
          simp [refresh, hy, hstopped]
        rw [hstart]
        exact .inr ⟨⟨c.cycles, false, now, .start c.config.fetchTimeoutMs false,
          none, none⟩, rfl, rfl⟩
  · have hfits := horderly.inFlight y hy
    obtain ⟨call, hcall, hgiven⟩ := hfits.answered.outcome bars hbars
    have hcalled : y.request.call ≠ .due := by
      intro hdue
      rw [(hfits.due hdue).1] at hcall
      cases hcall
    have hown := (hfits.called hcalled).1
    obtain rfl := Option.some.inj (hown.symm.trans hcall)
    exact ⟨hown, hgiven⟩
  · have hbusy : d.Busy := by
      obtain ⟨x, hx, hdeaf⟩ := (horderly.busy hy hfetched).2
      exact ⟨x, hd.trans hx, hdeaf⟩
    have haside := Aside.performAll w actions hbusy
    exact ⟨haside.cycle.trans hd, (congrArg Controller.cycles haside.core :), haside.phase⟩
  · exact (Alike.answer horderly hclosed a).run horderly' w later

omit [NumberText α] [Scalar α] [Numeric α] in
/-- Those who wait for a cycle are told an outcome when it did not break off. -/
theorem told_eq_outcome_iff (outcome : Outcome α) :
    Told.of (.outcome outcome) outcome = .outcome outcome ↔ ∀ f, outcome ≠ .broken f := by
  cases outcome with
  | broken f => exact iff_of_false nofun fun h => h f rfl
  | _ => exact iff_of_true rfl nofun

/-- **One cycle at a time, no stale answer, and one outcome for all.** That those who wait for a
cycle are told an outcome fails exactly when the cycle broke off, which it never does among
articulate surroundings. -/
theorem single_flight_and_outcome_iff {config : Config α} {c₀ : Controller α}
    (hcreate : create config = .ok c₀) (w : Surroundings α) (events : List (Event α)) :
    let c := c₀.run w events
    SingleFlight w events c ∧
      (∀ n outcome, (n, outcome) ∈ c.endings → ∀ later,
        (Session.answer? (c.run w later) (.outcome n) = some (.outcome outcome) ↔
          ∀ f, outcome ≠ .broken f)) ∧
      (w.Articulate → ∀ n outcome, (n, outcome) ∈ c.endings → ∀ f, outcome ≠ .broken f) := by
  have hflight := singleFlight_run hcreate w events
  refine ⟨hflight, fun n outcome hmem later => ?_, fun hw n outcome hmem => ?_⟩
  · rw [hflight.told n outcome hmem later, Option.some_inj]
    exact told_eq_outcome_iff outcome
  · exact not_broken_run hw hcreate events hmem

/-- The deadline of a call passes, and its answer comes while the next cycle waits for its own. -/
theorem single_flight_and_outcome_iff_lateAnswer :
    let w := answering .later
    let events : List (Event Float) :=
      [.refresh 1, .make, .expire, .resume, .clear, .refresh 2, .make, .answer 0 (.ok [])]
    let c := sample.run w events
    create sampleConfig = .ok sample ∧ SingleFlight w events c ∧
      c.milestones = [.called 0, .over 0, .called 1] :=
  ⟨create_sampleConfig, (single_flight_and_outcome_iff create_sampleConfig (answering .later) _).1,
    rfl⟩

/-- The source of the market throws something that cannot be put in words. The cycle breaks off, and
those who wait for it are told no outcome. -/
theorem outcome_not_told_wordless :
    let w := { answering (.now (.ok sampleBars)) with market := fun _ _ => ⟨[], .error wordless⟩ }
    let c := sample.run w [.refresh 1, .make, .deliver, .resume, .clear]
    c.endings = [(0, .broken .textless)] ∧
      Session.answer? c (.outcome 0) = some (.broken .textless) :=
  ⟨rfl, rfl⟩

end Controller

end MarketMaker.Refresh
