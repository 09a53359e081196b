import MarketMaker.Proofs.Refresh.Computing

/-!
# A stop in the middle of a cycle

A callback may stop the controller while a cycle computes. The stop is **honoured** when nothing
that the cycle comes to is applied: what is published and the schedule stay as they were, and the
cycle ends as cancelled.

A cycle looks for a stop when its bars have come, and again when something was thrown, but not
between computing and publishing. So a stop from a callback is honoured exactly when the computation
fails; otherwise the set is applied as if nobody had stopped anything.
-/

namespace MarketMaker.Refresh.Controller

open Scalar

variable {α : Type}

/-- What a stopped cycle has come to when its stop is honoured. -/
structure Honoured (r : Controller α) (y : Cycle α) (d : Controller α) : Prop where
  /-- What is published is as it was. -/
  untouched : Untouched r d
  /-- The schedule is as it was. -/
  schedule : d.schedule = r.schedule
  /-- The cycle ended as cancelled. -/
  cancelled : d.outcomes[y.number]? = some .cancelled

/-- What a cycle has come to when its set is applied. -/
structure Applied (r : Controller α) (y : Cycle α) (d : Controller α) : Prop where
  /-- The cycle counts as the last one that succeeded. -/
  schedule : d.schedule = { r.schedule with lastUpdate := some y.startedAt, retryNotBefore := none }
  /-- It ends as a success, unless it has replaced the published set and the listener spoils it. -/
  outcome : (∃ outcome, d.outcomes[y.number]? = some outcome ∧ outcome.isSuccess = true) ∨
    d.publications = r.publications + 1

variable {r d : Controller α} {y : Cycle α}

/-- A cycle whose set is applied was not cancelled, or has replaced the published set. -/
theorem Applied.not_honoured (h : Applied r y d) : ¬ Honoured r y d := by
  intro hhonoured
  rcases h.outcome with ⟨outcome, houtcome, hsuccess⟩ | hreplaced
  · obtain rfl := Option.some.inj (houtcome.symm.trans hhonoured.cancelled)
    cases hsuccess
  · exact absurd (hhonoured.untouched.publications.symm.trans hreplaced)
      (Nat.ne_of_lt (Nat.lt_succ_self _))

variable [Scalar α] [NumberText α] [Numeric α] {w : Surroundings α} {bars : List (Bar α)}
  {b : Controller α}

omit [Numeric α] in
/-- A stopped cycle whose computation fails is cancelled, and that is all. -/
theorem Computes.conclude_of_error (h : Computes r y bars b) {f : Failure α}
    {computed : Controller α} (hcompute : b.compute w bars y.startedAt = (.error f, computed))
    (hstopped : computed.stopped = true) :
    r.conclude w (.ok bars) y.startedAt = (.cancelled, computed) := by
  rw [h.conclude_eq w, hcompute]
  simp [caught, hstopped]

/-- A cycle whose computation comes to parameters advances the schedule, stopped or not. It
succeeds, or it has replaced the published set. -/
theorem Computes.conclude_of_ok (h : Computes r y bars b) (hbusy : r.Busy) {next : Parameters α}
    {computed : Controller α} (hcompute : b.compute w bars y.startedAt = (.ok next, computed))
    (hstopped : computed.stopped = true) :
    let (outcome, e) := r.conclude w (.ok bars) y.startedAt
    e.stopped = true ∧ e.schedule = { r.schedule with
      lastUpdate := some y.startedAt, retryNotBefore := none } ∧
      (outcome.isSuccess = true ∨ e.publications = r.publications + 1) := by
  obtain ⟨asked, -, hprepares, -⟩ := h.prepares_compute hbusy w
  rw [hcompute] at hprepares
  have hentered := hprepares.trans (.enter .publishing computed)
  have hpublishing := hentered.keeps.busy hbusy
  obtain ⟨hkeeps, hschedule, -, hresult⟩ := publish_spec w next y.startedAt hpublishing
  rw [h.conclude_eq w, hcompute]
  dsimp only
  rcases hp : { computed with phase := .publishing }.publish w next y.startedAt
    with ⟨published, after⟩
  rw [hp] at hkeeps hschedule hresult
  have hstays : after.stopped = true := hkeeps.stopped hstopped
  rw [← hprepares.schedule, ← hprepares.publications]
  simp only [hp]
  cases published with
  | ok outcome => exact ⟨hstays, hschedule, .inl hresult⟩
  | error f =>
    -- What the listener threw is met by a stopped controller, which cancels the cycle with its set
    -- out already.
    have hcancelled : after.caught w f y.startedAt = (.cancelled, after) := by simp [caught, hstays]
    dsimp only
    rw [hcancelled]
    exact ⟨hstays, hschedule, .inr hresult⟩

/-- All is a lull after a cycle that was stopped while it computed. -/
theorem GoesOn.lull_of_stopped {fetched : Except (Failure α) (List (Bar α))}
    (h : GoesOn r y fetched) (horderly : r.Orderly fun _ _ => True)
    (hstopped : (r.conclude w fetched y.startedAt).2.stopped = true) (events : List (Event α)) :
    Lull (r.resume w) ((r.resume w).run w events) := by
  obtain ⟨-, heq⟩ := h.resume horderly w
  have hresumed := horderly.event w .resume
  refine .of_ended hresumed w events ?_ (.inl ?_)
  · intro z hz
    simp only [step, heq] at hz
    obtain rfl := Option.some.inj hz
    exact Option.some_ne_none _
  · simp only [step, heq]
    exact hstopped

/-- **A stop in the middle of a cycle is honoured exactly when the computation fails.** Take any run
up to the moment `r` when the cycle in flight goes on and computes, with a callback that stops the
controller meanwhile, and any run from the end of that cycle on. If the computation comes to
parameters these are applied. -/
theorem stop_honoured_iff {config : Config α} {c₀ : Controller α} (hcreate : create config = .ok c₀)
    (w : Surroundings α) (before after : List (Event α)) {y : Cycle α} {bars : List (Bar α)}
    {b : Controller α} (hcomputes : Computes (c₀.run w before) y bars b)
    (hstopped : (b.compute w bars y.startedAt).2.stopped = true) :
    let r := c₀.run w before
    let d := (r.step w .resume).run w after
    (Honoured r y d ↔ ∃ f, (b.compute w bars y.startedAt).1 = .error f) ∧
      ((∃ next, (b.compute w bars y.startedAt).1 = .ok next) → Applied r y d) ∧
      Untouched r (b.compute w bars y.startedAt).2 ∧
      (b.compute w bars y.startedAt).2.schedule = r.schedule := by
  have horderly : (c₀.run w before).Orderly fun _ _ => True :=
    orderly_run hcreate (fun _ _ _ => trivial) (fun _ _ _ => trivial)
  generalize c₀.run w before = r at hcomputes horderly ⊢
  intro r d
  have hgoes := hcomputes.toGoesOn
  have hbusy := (horderly.busy hgoes.cycle hgoes.fetched).2
  obtain ⟨asked, -, hprepares, -⟩ := hcomputes.prepares_compute hbusy w
  have hcount := horderly.length_outcomes hgoes.cycle hgoes.running
  have houtcomes := hgoes.outcomes_resume horderly w
  -- What the cycle came to is found again at `d`, since nothing starts after a stop.
  have hend {outcome : Outcome α} {e : Controller α}
      (hconclude : r.conclude w (.ok bars) y.startedAt = (outcome, e)) (hstays : e.stopped = true) :
      d.outcomes[y.number]? = some outcome ∧ Lasts e d := by
    have hlull : Lull (r.resume w) d :=
      hgoes.lull_of_stopped horderly (by rw [hconclude]; exact hstays) after
    have hlasts := (hgoes.lasts horderly hlull).1
    rw [hconclude] at hlasts houtcomes
    refine ⟨?_, hlasts⟩
    rw [hlull.outcomes, houtcomes, ← hcount, List.getElem?_concat_length]
  rcases hcompute : b.compute w bars y.startedAt with ⟨result, computed⟩
  rw [hcompute] at hstopped hprepares
  cases result with
  | error f =>
    obtain ⟨hcancelled, hlasts⟩ := hend (hcomputes.conclude_of_error hcompute hstopped) hstopped
    have hhonoured : Honoured r y d :=
      ⟨hprepares.untouched.trans hlasts.untouched, hlasts.schedule.trans hprepares.schedule,
        hcancelled⟩
    exact ⟨iff_of_true hhonoured ⟨f, rfl⟩, nofun, hprepares.untouched, hprepares.schedule⟩
  | ok next =>
    have hok := hcomputes.conclude_of_ok hbusy hcompute hstopped
    rcases hconclude : r.conclude w (.ok bars) y.startedAt with ⟨outcome, e⟩
    rw [hconclude] at hok
    obtain ⟨hstays, hschedule, hresult⟩ := hok
    obtain ⟨houtcome, hlasts⟩ := hend hconclude hstays
    have happlied : Applied r y d := by
      refine ⟨hlasts.schedule.trans hschedule,
        hresult.imp (fun hsuccess => ⟨outcome, houtcome, hsuccess⟩) ?_⟩
      intro hreplaced
      exact hlasts.untouched.publications.trans hreplaced
    exact ⟨iff_of_false happlied.not_honoured nofun, fun _ => happlied, hprepares.untouched,
      hprepares.schedule⟩

/-- Surroundings with two bars, in which whoever is asked for the market stops the controller
first. -/
def halting (market : Except (Failure Float) (Market Float)) : Surroundings Float :=
  { answering (.now (.ok sampleBars)) with
    market := fun _ _ => ⟨[.stop], market⟩
    listeners := some silent }

/-- The source of the market stops the controller and throws. -/
theorem stop_honoured_iff_noMarket :
    let w := halting (.error (.thrown (.string "closed")))
    let r := sample.run w [.refresh 1, .make, .deliver]
    let d := (r.step w .resume).run w [.clear, .refresh 2]
    ∃ y b, (create sampleConfig = .ok sample ∧ Computes r y sampleBars b ∧
      (b.compute w sampleBars y.startedAt).2.stopped = true) ∧ Honoured r y d := by
  intro w r d
  obtain ⟨y, hgoes, hstarted⟩ : ∃ y, GoesOn r y (.ok sampleBars) ∧ y.startedAt = 1 :=
    ⟨_, ⟨rfl, rfl, nofun, rfl⟩, rfl⟩
  have hcomputes := hgoes.computes_short (by decide +kernel) (by decide +kernel)
  have hstopped : ((r.beginShort sampleBars).compute w sampleBars y.startedAt).2.stopped =
      true := by
    rw [hstarted]
    decide +kernel
  have hfailed : ((r.beginShort sampleBars).compute w sampleBars y.startedAt).1.isOk = false := by
    rw [hstarted]
    decide +kernel
  obtain ⟨hhonoured, -⟩ := stop_honoured_iff create_sampleConfig w [.refresh 1, .make, .deliver]
    [.clear, .refresh 2] hcomputes hstopped
  refine ⟨y, _, ⟨create_sampleConfig, hcomputes, hstopped⟩, hhonoured.mpr ?_⟩
  revert hfailed
  cases ((r.beginShort sampleBars).compute w sampleBars y.startedAt).1 with
  | ok next => exact nofun
  | error f => exact fun _ => ⟨f, rfl⟩

/-- The source of the market stops the controller and answers. The set is published all the same. -/
theorem stop_not_honoured_market :
    let w :=
      halting (.ok { midPrice := 100, inventory := 0, alpha := 1, kappa := 1, timestamp := 0 })
    let r := sample.run w [.refresh 1, .make, .deliver]
    let d := r.run w [.resume, .clear]
    r.stopped = false ∧ d.stopped = true ∧ r.outcomes.length = 0 ∧
    d.outcomes[0]?.any Outcome.isSuccess = true ∧
      r.published.isSome = false ∧ d.published.isSome = true ∧
      d.calls.publish = r.calls.publish + 1 ∧
      r.schedule.lastUpdate.isSome = false ∧ d.schedule.lastUpdate.isSome = true := by
  decide +kernel

end MarketMaker.Refresh.Controller
