import MarketMaker.Proofs.Numbers
import MarketMaker.Proofs.Refresh.Waiting

/-!
# What a cycle comes to

When its request has an outcome, a cycle runs to its end: it computes, publishes, or fails.
`Keeps c d` says what all of that leaves alone: the **frame** of the controller, which is everything
but the phase, the published set, the schedule and what callbacks may change.

What it does to the schedule is told by its **ending**. A cycle *advances* the schedule when it
succeeds, and also when it has replaced the published set and comes to grief only then, because the
listener throws something that cannot be put in words. A cycle *sets back* the next attempt when it
fails, and also when it breaks off only after the listener was told of a failure. `Schedule.after`
is the law; a stopped controller cancels whatever cycle it resumes and changes nothing.
-/

namespace MarketMaker.Refresh

open Scalar

variable {α : Type}

/-- Whether a cycle came to parameters. -/
def Outcome.isSuccess : Outcome α → Bool
  | .published | .unchanged => true
  | _ => false

/-- Whether a cycle came to a failure. -/
def Outcome.isFailure : Outcome α → Bool
  | .failed _ => true
  | _ => false

/-- A success is no failure. -/
theorem Outcome.isFailure_of_isSuccess {o : Outcome α} (h : o.isSuccess = true) :
    o.isFailure = false := by
  cases o <;> first | rfl | cases h

/-- How a cycle ended. -/
structure Ending (α : Type) where
  /-- When it started. -/
  startedAt : α
  /-- What it came to. -/
  outcome : Outcome α
  /-- Whether it replaced the published set. -/
  replaced : Bool
  /-- Whether the listener was told of a failure. -/
  reported : Bool

/-- Whether a cycle moves the time of the last success. -/
def Ending.advances (e : Ending α) : Bool := e.outcome.isSuccess || e.replaced

/-- Whether a cycle makes the next attempt wait. -/
def Ending.setsBack (e : Ending α) : Bool := e.outcome.isFailure || e.reported

/-- A schedule after a cycle has ended. -/
def Schedule.after [Scalar α] (backoff : α) (e : Ending α) (s : Schedule α) : Schedule α :=
  { s with
    lastUpdate := if e.advances then some e.startedAt else s.lastUpdate
    retryNotBefore :=
      if e.setsBack then some (e.startedAt + backoff * 1000)
      else if e.advances then none
      else s.retryNotBefore }

namespace Controller

/-- A controller without what the rest of a cycle may change. -/
def frame (c : Controller α) : Controller α :=
  { c.core with
    schedule := { c.schedule with lastUpdate := none, retryNotBefore := none }
    phase := .idle
    published := none
    publications := 0
    calls := { fetch := c.calls.fetch } }

/-- What the rest of a cycle leaves of a controller. -/
structure Keeps (c d : Controller α) : Prop where
  /-- What the rest of a cycle cannot change is as it was. -/
  frame : d.frame = c.frame
  /-- A stop is not taken back. -/
  stopped : c.stopped = true → d.stopped = true
  /-- No milestone is passed on the way. -/
  trace : ∃ said, d.trace = c.trace ++ said ∧ ∀ e ∈ said, e.2.milestone? = none

variable {c d e : Controller α}

theorem Keeps.refl (c : Controller α) : Keeps c c := ⟨rfl, id, [], by simp, by simp⟩

theorem Keeps.trans (h₁ : Keeps c d) (h₂ : Keeps d e) : Keeps c e := by
  obtain ⟨said₁, htrace₁, hsaid₁⟩ := h₁.trace
  obtain ⟨said₂, htrace₂, hsaid₂⟩ := h₂.trace
  refine ⟨h₂.frame.trans h₁.frame, h₂.stopped ∘ h₁.stopped, said₁ ++ said₂, ?_, ?_⟩
  · rw [htrace₂, htrace₁, List.append_assoc]
  · intro e he
    rcases List.mem_append.mp he with he | he
    · exact hsaid₁ e he
    · exact hsaid₂ e he

/-- A change inside the frame that says nothing. -/
theorem Keeps.of_silent (hframe : d.frame = c.frame) (hstopped : d.stopped = c.stopped)
    (htrace : d.trace = c.trace) : Keeps c d :=
  ⟨hframe, fun h => hstopped.trans h, [], by rw [htrace, List.append_nil], by simp⟩

/-- A change inside the frame that says one thing. -/
theorem Keeps.of_said {said : Phase × Occurrence α} (hframe : d.frame = c.frame)
    (hstopped : d.stopped = c.stopped) (htrace : d.trace = c.trace ++ [said])
    (hsaid : said.2.milestone? = none) : Keeps c d :=
  ⟨hframe, fun h => hstopped.trans h, [said], htrace, by simpa using hsaid⟩

theorem Aside.keeps (h : Aside c d) : Keeps c d := by
  obtain ⟨said, htrace, hsaid⟩ := h.trace
  have hframe : d.frame = c.frame := by
    have hcore : ∀ x : Controller α, x.frame = { x.core with
        schedule := { x.core.schedule with lastUpdate := none, retryNotBefore := none }
        phase := .idle
        published := none
        publications := 0
        calls := { fetch := x.core.calls.fetch } } := fun _ => rfl
    rw [hcore d, hcore c, h.core]
  exact ⟨hframe, h.stopped, said, htrace,
    fun e he => Occurrence.milestone?_of_isAside (hsaid e he).2⟩

/-- A controller after a success of a time. -/
def dated (now : α) (c : Controller α) : Controller α :=
  { c with schedule := { c.schedule with lastUpdate := some now, retryNotBefore := none } }

theorem Keeps.cycle (h : Keeps c d) : d.cycle = c.cycle := (congrArg Controller.cycle h.frame :)

theorem Keeps.config (h : Keeps c d) : d.config = c.config := (congrArg Controller.config h.frame :)

theorem Keeps.busy (h : Keeps c d) (hbusy : c.Busy) : d.Busy := by
  obtain ⟨y, hy, hdeaf⟩ := hbusy
  exact ⟨y, h.cycle.trans hy, hdeaf⟩

theorem Aside.publications (h : Aside c d) : d.publications = c.publications :=
  (congrArg Controller.publications h.core :)

theorem Aside.failures (h : Aside c d) : d.calls.failure = c.calls.failure :=
  (congrArg (fun x => x.calls.failure) h.core :)

variable [Scalar α] [NumberText α]

/-! ## Failing -/

/-- What a cycle that does not succeed makes of a controller, with the time it started. -/
structure Fails (now : α) (c : Controller α) (o : Outcome α) (d : Controller α) : Prop where
  /-- It leaves the frame of the controller alone. -/
  keeps : Keeps c d
  /-- The published set was not replaced. -/
  publications : d.publications = c.publications
  /-- The outcome is no success. -/
  outcome : o.isSuccess = false
  /-- Ticks wait for the backoff after a failure, and after the report of one. -/
  schedule : d.schedule = { c.schedule with
    retryNotBefore :=
      if o.isFailure || decide (d.calls.failure ≠ c.calls.failure) then
        some (now + c.config.retryBackoffSeconds * 1000)
      else c.schedule.retryNotBefore }

/-- **A cycle in which something was thrown, stage by stage.** What each stage brings about, one
after the other, holds of the whole of it: the next attempt is dated, the failure is reported, and
the listener is told. -/
theorem caught_stages (w : Surroundings α) (f : Failure α) (now : α) (h : c.Busy)
    {holds : Controller α → Controller α → Prop} (hrefl : ∀ d, holds d d)
    (htrans : ∀ {d e g}, holds d e → holds e g → holds d g)
    (hdates : ∀ (d : Controller α) time level message context,
      holds d
        (({ d with schedule := { d.schedule with retryNotBefore := some time } } :
          Controller α).log level message context))
    (hreports : ∀ (d : Controller α) g,
      holds d (({ d with calls := { d.calls with failure := d.calls.failure + 1 } } :
        Controller α).note (.failed g)))
    (htells : ∀ (d : Controller α) reaction, d.Busy → holds d (d.tell w reaction).2) :
    holds c (c.caught w f now).2 := by
  have htold (d : Controller α) (e : Failure α) (hd : d.Busy) : holds d (d.tellFailure w e).2 := by
    unfold tellFailure
    cases w.listeners with
    | none => exact hrefl d
    | some l =>
      have hafter := htrans (hreports d e) (htells _ (l.onFailure d.calls.failure e) hd)
      dsimp only
      split
      · next after heq => rwa [heq] at hafter
      · next g after heq => rwa [heq] at hafter
  unfold caught
  split
  · exact hrefl c
  · cases f.toError with
    | error e => exact hrefl c
    | ok e =>
      dsimp only [fail]
      split
      · exact hrefl c
      · exact htrans (hdates c _ _ _ _) (htold _ e h)

/-- Telling of a failure leaves the schedule alone. The cycle comes to the failure, or the listener
was told. -/
theorem tellFailure_spec (w : Surroundings α) (f : Failure α) (h : c.Busy) :
    Keeps c (c.tellFailure w f).2 ∧
      (c.tellFailure w f).2.schedule = c.schedule ∧
      (c.tellFailure w f).2.publications = c.publications ∧
      (c.tellFailure w f).1.isSuccess = false ∧
      ((c.tellFailure w f).1.isFailure ||
        decide ((c.tellFailure w f).2.calls.failure ≠ c.calls.failure)) = true := by
  cases hlisteners : w.listeners with
  | none => simpa [tellFailure, hlisteners, Outcome.isFailure, Outcome.isSuccess] using Keeps.refl c
  | some l =>
    obtain ⟨noted, hnoted⟩ : ∃ noted, noted =
        ({ c with calls := { c.calls with failure := c.calls.failure + 1 } } : Controller α).note
          (.failed f) :=
      ⟨_, rfl⟩
    have hkeeps : Keeps c noted := by
      rw [hnoted]
      exact .of_said rfl rfl rfl rfl
    have htold := Aside.tell w (l.onFailure c.calls.failure f) (hkeeps.busy h)
    simp only [tellFailure, hlisteners, ← hnoted]
    rcases htell : noted.tell w (l.onFailure c.calls.failure f) with ⟨result, after⟩
    rw [htell] at htold
    have hfailures : after.calls.failure = c.calls.failure + 1 := by
      rw [htold.failures, hnoted]; rfl
    have hschedule : after.schedule = c.schedule := by rw [htold.schedule, hnoted]; rfl
    have hpublications : after.publications = c.publications := by
      rw [htold.publications, hnoted]; rfl
    cases result with
    | ok _ => exact ⟨hkeeps.trans htold.keeps, hschedule, hpublications, rfl, rfl⟩
    | error e =>
      refine ⟨hkeeps.trans htold.keeps, hschedule, hpublications, rfl, ?_⟩
      simp [hfailures]

variable [Numeric α]

/-- A failure whose next attempt can be dated. -/
theorem Fails.fail (w : Surroundings α) (f : Failure α) (now : α) (h : c.Busy) :
    Fails now c (c.fail w f now).1 (c.fail w f now).2 := by
  -- The next attempt is dated before the listener is told, so whatever that throws cannot undo it.
  obtain ⟨dated, hdated⟩ : ∃ dated, dated =
      ({ c with schedule := { c.schedule with
          retryNotBefore := some (now + c.config.retryBackoffSeconds * 1000) } } :
        Controller α).log .warn "Parameter refresh failed, keeping last published parameters"
        [("error", .string f.message), ("code", f.code?.getD .undefined),
          ("retryAt", .number (now + c.config.retryBackoffSeconds * 1000))] := ⟨_, rfl⟩
  have hkeeps : Keeps c dated := by
    rw [hdated]
    exact .of_said rfl rfl rfl rfl
  simp only [Controller.fail, checkUsable_eq_ok, ← hdated]
  obtain ⟨htold, hschedule, hpublications, houtcome, hset⟩ := tellFailure_spec w f (hkeeps.busy h)
  have hcount : dated.calls.failure = c.calls.failure := by rw [hdated]; rfl
  refine ⟨hkeeps.trans htold, by rw [hpublications, hdated]; rfl, houtcome, ?_⟩
  rw [hcount] at hset
  rw [if_pos hset, hschedule, hdated]
  rfl

/-- A cycle in which something was thrown never succeeds. It advances nothing, and sets back the
next attempt only when it comes to a failure or the listener was told of one. -/
theorem Fails.caught (w : Surroundings α) (f : Failure α) (now : α) (h : c.Busy) :
    Fails now c (c.caught w f now).1 (c.caught w f now).2 := by
  have hquiet (o : Outcome α) (hs : o.isSuccess = false)
      (hf : o.isFailure = false) : Fails now c o c :=
    ⟨.refl c, rfl, hs, by simp [hf]⟩
  unfold Controller.caught
  split
  · exact hquiet _ rfl rfl
  · cases f.toError with
    | error e => exact hquiet _ rfl rfl
    | ok e => exact .fail w e now h

/-! ## Publishing -/

omit [Numeric α] in
theorem replace_spec (w : Surroundings α) (next : Parameters α) (h : c.Busy) :
    Keeps c (c.replace w next).2 ∧
      (c.replace w next).2.schedule = c.schedule ∧
      (c.replace w next).2.publications = c.publications + 1 ∧
      (c.replace w next).2.calls.failure = c.calls.failure := by
  obtain ⟨logged, hlogged⟩ : ∃ logged, logged = ({ c with
      published := some next
      publications := c.publications + 1 } : Controller α).log .info "Quote parameters published"
      (ChangeRecord.between c.published next).fields := ⟨_, rfl⟩
  have hkeeps : Keeps c logged := by
    rw [hlogged]
    exact .of_said rfl rfl rfl rfl
  cases hlisteners : w.listeners with
  | none =>
    simp only [replace, hlisteners, ← hlogged]
    exact ⟨hkeeps, by rw [hlogged]; rfl, by rw [hlogged]; rfl, by rw [hlogged]; rfl⟩
  | some l =>
    obtain ⟨noted, hnoted⟩ : ∃ noted, noted =
        ({ logged with
          calls := { c.calls with publish := c.calls.publish + 1 } } : Controller α).note
          (.published (ChangeRecord.between c.published next) next) := ⟨_, rfl⟩
    have hkept : Keeps c noted := by
      rw [hnoted]
      refine hkeeps.trans (.of_said ?_ rfl rfl rfl)
      rw [hlogged]
      rfl
    have htold :=
      Aside.tell w (l.onPublish c.calls.publish (ChangeRecord.between c.published next) next)
      (hkept.busy h)
    simp only [replace, hlisteners, ← hlogged, ← hnoted]
    refine ⟨hkept.trans htold.keeps, ?_, ?_, ?_⟩
    · rw [htold.schedule, hnoted, hlogged]
      rfl
    · rw [htold.publications, hnoted, hlogged]
      rfl
    · rw [htold.failures, hnoted]
      rfl

/-- Whether a set is worth publishing can be told of numbers. -/
theorem isWorthPublishing_eq_ok (next : Parameters α) (c : Controller α) :
    ∃ worth, c.isWorthPublishing next = .ok worth := by
  unfold isWorthPublishing
  cases c.published with
  | none => exact ⟨true, rfl⟩
  | some previous =>
    have hcomparable : previous.isComparable next c.config.significantChangeThreshold = true := by
      simp [Parameters.isComparable, Numeric.hasText]
    simp only [Parameters.significance, Parameters.movement, hcomparable, if_true]
    split
    · exact ⟨true, rfl⟩
    · exact ⟨_, rfl⟩

/-- A set is published or kept back, and the cycle counts as a success either way. -/
theorem publish_cases (w : Surroundings α) (next : Parameters α) (now : α) (c : Controller α) :
    c.isWorthPublishing next = .ok true ∧ c.publish w next now =
        (((c.dated now).replace w next).1.map fun () => .published,
          ((c.dated now).replace w next).2) ∨
      c.isWorthPublishing next = .ok false ∧
      c.publish w next now = (.ok .unchanged, (c.dated now).log .debug
        "Recomputed parameters within change threshold, keeping published set"
        [("threshold", .number c.config.significantChangeThreshold)]) := by
  obtain ⟨worth, hworth⟩ := isWorthPublishing_eq_ok next c
  have hdated : (c.dated now).isWorthPublishing next = .ok worth := hworth
  rw [dated] at hdated
  simp only [publish, filled?_eq_some, hdated, dated]
  cases worth with
  | true => exact .inl ⟨hworth, rfl⟩
  | false => exact .inr ⟨hworth, rfl⟩

/-- A computed set advances the schedule. The cycle succeeds, or it has replaced the published
set. -/
theorem publish_spec (w : Surroundings α) (next : Parameters α) (now : α) (h : c.Busy) :
    Keeps c (c.publish w next now).2 ∧
      (c.publish w next now).2.schedule = { c.schedule with
        lastUpdate := some now, retryNotBefore := none } ∧
      (c.publish w next now).2.calls.failure = c.calls.failure ∧
      match (c.publish w next now).1 with
      | .ok outcome => outcome.isSuccess = true
      | .error _ => (c.publish w next now).2.publications = c.publications + 1 := by
  have hkeeps : Keeps c (c.dated now) := .of_silent rfl rfl rfl
  rcases publish_cases w next now c with ⟨-, heq⟩ | ⟨-, heq⟩
  · obtain ⟨htold, hschedule, hpublications, hfailures⟩ := replace_spec w next (hkeeps.busy h)
    rw [heq]
    refine ⟨hkeeps.trans htold, hschedule, hfailures, ?_⟩
    cases ((c.dated now).replace w next).1 with
    | ok _ => rfl
    | error _ => exact hpublications
  · rw [heq]
    exact ⟨hkeeps.trans (.of_said rfl rfl rfl rfl), rfl, rfl, rfl⟩

/-! ## The whole of it -/

omit [Scalar α] [NumberText α] [Numeric α] in
/-- How a cycle ended that was started at a time and has led from one controller to another. -/
def endingOf (now : α) (outcome : Outcome α) (c d : Controller α) : Ending α :=
  ⟨now, outcome, decide (d.publications ≠ c.publications),
    decide (d.calls.failure ≠ c.calls.failure)⟩

/-- What the rest of a cycle makes of a controller. -/
structure Concludes (now : α) (c : Controller α) (o : Outcome α) (d : Controller α) : Prop where
  /-- It leaves the frame of the controller alone. -/
  keeps : Keeps c d
  /-- The schedule follows from how the cycle ended. -/
  schedule : d.schedule = c.schedule.after c.config.retryBackoffSeconds (endingOf now o c d)
  /-- Of a success no failure is reported. -/
  quiet : o.isSuccess = true → d.calls.failure = c.calls.failure

omit [NumberText α] [Numeric α] in
theorem Fails.concludes {now : α} {o : Outcome α} (h : Fails now c o d) : Concludes now c o d := by
  refine ⟨h.keeps, ?_, fun hsuccess => absurd (h.outcome.symm.trans hsuccess) (by simp)⟩
  have hnot : (endingOf now o c d).advances = false := by
    simp [Ending.advances, endingOf, h.outcome, h.publications]
  rw [h.schedule, Schedule.after, hnot]
  rfl

/-- What the stages before publishing leave of a controller. -/
structure Steady (c d : Controller α) : Prop where
  /-- They leave the frame of the controller alone. -/
  keeps : Keeps c d
  /-- The schedule is as it was. -/
  schedule : d.schedule = c.schedule
  /-- The published set was not replaced. -/
  publications : d.publications = c.publications
  /-- No failure was reported. -/
  failures : d.calls.failure = c.calls.failure

omit [Scalar α] [NumberText α] [Numeric α] in
theorem Steady.trans (h₁ : Steady c d) (h₂ : Steady d e) : Steady c e :=
  ⟨h₁.keeps.trans h₂.keeps, h₂.schedule.trans h₁.schedule, h₂.publications.trans h₁.publications,
    h₂.failures.trans h₁.failures⟩

omit [Scalar α] [NumberText α] [Numeric α] in
theorem Steady.refl (c : Controller α) : Steady c c := ⟨.refl c, rfl, rfl, rfl⟩

omit [Scalar α] [NumberText α] [Numeric α] in
theorem Aside.steady (h : Aside c d) : Steady c d :=
  ⟨h.keeps, h.schedule, h.publications, h.failures⟩

omit [Scalar α] [NumberText α] [Numeric α] in
/-- Going on to another phase. -/
theorem Steady.enter (phase : Phase) (c : Controller α) : Steady c { c with phase } :=
  ⟨.of_silent rfl rfl rfl, rfl, rfl, rfl⟩

theorem warnShort_spec (bars : List (Bar α)) (c : Controller α) :
    ∃ warned, c.warnShort bars = .ok warned ∧ Steady c warned := by
  simp only [warnShort, checkUsable_eq_ok, bind, Except.bind, pure, Except.pure]
  split
  · exact ⟨_, rfl, (Aside.log _ _ _ c).steady⟩
  · exact ⟨c, rfl, .refl c⟩

omit [NumberText α] [Numeric α] in
/-- A cycle that fails in a later stage. -/
theorem Fails.of_steady {now : α} {o : Outcome α} (h : Steady c d) (hfails : Fails now d o e) :
    Fails now c o e := by
  refine ⟨h.keeps.trans hfails.keeps, hfails.publications.trans h.publications, hfails.outcome, ?_⟩
  rw [hfails.schedule, h.schedule, h.failures, h.keeps.config]

/-- The set that a cycle computed is published, or kept back, or published and then found not to be
told. -/
theorem Concludes.publish (w : Surroundings α) (next : Parameters α) (now : α) (h : Steady c d)
    (hbusy : c.Busy) :
    match d.publish w next now with
    | (.ok outcome, after) => Concludes now c outcome after
    | (.error f, after) => Concludes now c (after.caught w f now).1 (after.caught w f now).2 := by
  obtain ⟨hkeeps, hschedule, hfailures, hresult⟩ := publish_spec w next now (h.keeps.busy hbusy)
  rcases hp : d.publish w next now with ⟨result, after⟩
  rw [hp] at hkeeps hschedule hfailures hresult
  have hkept : Keeps c after := h.keeps.trans hkeeps
  have hcount : after.calls.failure = c.calls.failure := hfailures.trans h.failures
  have hmoved :
      after.schedule = { c.schedule with lastUpdate := some now, retryNotBefore := none } := by
    rw [← h.schedule]
    exact hschedule
  cases result with
  | ok outcome =>
    have hadvances : (endingOf now outcome c after).advances = true := by
      have hsuccess : outcome.isSuccess = true := hresult
      simp [Ending.advances, endingOf, hsuccess]
    have hquiet : (endingOf now outcome c after).setsBack = false := by
      have houtcome : outcome.isFailure = false := Outcome.isFailure_of_isSuccess hresult
      simp [Ending.setsBack, endingOf, houtcome, hcount]
    refine ⟨hkept, ?_, fun _ => hcount⟩
    rw [hmoved]
    simp only [Schedule.after, hadvances, hquiet, if_true, Bool.false_eq_true, if_false]
    rfl
  | error f =>
    -- The set is out already, so the cycle advances the schedule whatever becomes of the failure.
    have hpublications : after.publications = c.publications + 1 := by
      rw [← h.publications]
      exact hresult
    have hfails := Fails.caught w f now (hkept.busy hbusy)
    have hadvances : (endingOf now (after.caught w f now).1 c (after.caught w f now).2).advances =
        true := by
      simp [Ending.advances, endingOf, hfails.publications, hpublications]
    refine ⟨hkept.trans hfails.keeps, ?_,
      fun hsuccess => absurd (hfails.outcome.symm.trans hsuccess) (by simp)⟩
    rw [hfails.schedule, hcount, hkept.config]
    simp only [Schedule.after, hadvances, if_true, hmoved]
    rfl

/-- **The end of a cycle.** Whatever the callbacks do, a busy controller that runs its cycle to the
end keeps its frame, and its schedule is the one after that ending. -/
theorem Concludes.conclude (w : Surroundings α)
    (fetched : Except (Failure α) (List (Bar α))) (now : α) (h : c.Busy) :
    Concludes now c (c.conclude w fetched now).1 (c.conclude w fetched now).2 := by
  unfold Controller.conclude
  cases fetched with
  | error f => exact (Fails.caught w f now h).concludes
  | ok bars =>
    dsimp only
    split
    · exact (⟨.refl c, rfl, rfl, by simp [Outcome.isFailure]⟩ : Fails now c .cancelled c).concludes
    · obtain ⟨warned, hwarned, hsteady⟩ := warnShort_spec bars c
      have hcomputing := hsteady.trans (.enter .computing warned)
      have haside := Aside.compute w bars now (hcomputing.keeps.busy h)
      rcases hcompute : { warned with phase := .computing }.compute w bars now
        with ⟨result, computed⟩
      rw [hcompute] at haside
      simp only [hwarned, hcompute]
      have hcomputed : Steady c computed := hcomputing.trans haside.steady
      cases result with
      | error f =>
        exact (Fails.of_steady hcomputed (.caught w f now (hcomputed.keeps.busy h))).concludes
      | ok next =>
        have hpublish :=
          Concludes.publish w next now (hcomputed.trans (.enter .publishing computed)) h
        rcases hp : { computed with phase := .publishing }.publish w next now
          with ⟨published, after⟩
        rw [hp] at hpublish
        simp only [hp]
        cases published with
        | ok outcome => exact hpublish
        | error f => exact hpublish

/-- A cycle whose request failed does not succeed. -/
theorem isSuccess_conclude_error (w : Surroundings α) (f : Failure α) (now : α) (h : c.Busy) :
    (c.conclude w (.error f) now).1.isSuccess = false :=
  (Fails.caught w f now h).outcome

omit [Numeric α] in
/-- A stopped controller cancels the cycle and changes nothing. -/
theorem conclude_of_stopped (w : Surroundings α)
    (fetched : Except (Failure α) (List (Bar α))) (now : α) (h : c.stopped = true) :
    c.conclude w fetched now = (.cancelled, c) := by
  cases fetched with
  | error f => simp [conclude, caught, h]
  | ok bars => simp [conclude, h]

end Controller

end MarketMaker.Refresh
