import MarketMaker.Proofs.Refresh.History

/-!
# When a tick starts a cycle

A tick starts a cycle when the controller is **ready**: it was not stopped, no cycle is in flight,
the time since the latest advance is no shorter than the interval, and the backoff after the latest
setback is over. Otherwise a tick changes nothing. Refreshes pass the gate without asking, and move
it like any other cycle.

Where the history is plain, these are the latest success and the latest failure since.
-/

namespace MarketMaker.Refresh.Controller

open Scalar

variable {α : Type} [Scalar α]

/-- Whether a tick at a time finds a controller ready to start a cycle, going by an advance and a
setback of its schedule. -/
def Ready (c : Controller α) (advance setback : Option (Ending α)) (now : α) : Prop :=
  c.stopped = false ∧ c.cycle = none ∧
    (∀ e, advance = some e → ¬ now - e.startedAt < c.config.updateIntervalSeconds * 1000) ∧
    ∀ e, setback = some e → ¬ now < e.startedAt + c.config.retryBackoffSeconds * 1000

variable [NumberText α]

/-- What the history of a run says of the controller at its end. -/
structure Gated (config : Config α) (history : List (Ending α)) (c : Controller α) : Prop where
  /-- The configuration has not changed. -/
  config : c.config = config
  /-- Those who waited for the cycles were told the outcomes of the history. -/
  outcomes : c.outcomes = history.reverse.map (·.outcome)
  /-- A tick starts a cycle exactly when the history leaves it ready. -/
  starts : ∀ now, c.tick now = .ok (c.start true now) ↔
    c.Ready (lastAdvance? history) (lastSetback? history) now
  /-- Any other tick does nothing. -/
  rests : ∀ now, ¬ c.Ready (lastAdvance? history) (lastSetback? history) now → c.tick now = .ok c
  /-- A tick is answered with the set that was published when it was called. -/
  answered : ∀ now d, c.tick now = .ok d → d.published = c.published
  /-- While a cycle is in flight, a tick from a callback does nothing. -/
  reentered : ∀ d : Controller α, d.cycle = c.cycle → d.cycle ≠ none → ∀ now, d.tick now = .ok d

variable [Numeric α] {c : Controller α}

omit [Scalar α] [Numeric α] in
theorem start_ne_self (ticked : Bool) (now : α) (c : Controller α) : c.start ticked now ≠ c := by
  intro h
  have hcycles : c.cycles + 1 = c.cycles := congrArg Controller.cycles h
  omega

/-- A tick starts a cycle or does nothing. -/
theorem tick_eq (now : α) (c : Controller α) : c.tick now = .ok
    (if c.withinInterval now || c.cycle.isSome || c.stopped || c.backsOff now then c
    else c.start true now) := by
  cases hheld : c.withinInterval now || c.cycle.isSome || c.stopped <;>
    cases hback : c.backsOff now <;>
    simp [tick, isDue, hheld, hback, bind, Except.bind, Except.map, pure, Except.pure]

omit [NumberText α] [Numeric α] in
/-- What the schedule holds against a cycle, for a schedule that remembers two endings. -/
theorem ready_iff {interval : α} {advance setback : Option (Ending α)}
    (hschedule : c.schedule = ⟨interval, advance.map (·.startedAt),
      setback.map fun e => e.startedAt + c.config.retryBackoffSeconds * 1000⟩) (now : α) :
    c.Ready advance setback now ↔
      (c.withinInterval now || c.cycle.isSome || c.stopped || c.backsOff now) = false := by
  have hwithin : c.withinInterval now = false ↔
      ∀ e, advance = some e → ¬ now - e.startedAt < c.config.updateIntervalSeconds * 1000 := by
    cases advance <;> simp [withinInterval, hschedule]
  have hback : c.backsOff now = false ↔
      ∀ e, setback = some e → ¬ now < e.startedAt + c.config.retryBackoffSeconds * 1000 := by
    cases setback <;> simp [backsOff, hschedule]
  simp only [Bool.or_eq_false_iff, Option.isSome_eq_false_iff, Option.isNone_iff_eq_none]
  rw [hwithin, hback]
  constructor
  · rintro ⟨hstopped, hcycle, hadvance, hsetback⟩
    exact ⟨⟨⟨hadvance, hcycle⟩, hstopped⟩, hsetback⟩
  · rintro ⟨⟨⟨hadvance, hcycle⟩, hstopped⟩, hsetback⟩
    exact ⟨hstopped, hcycle, hadvance, hsetback⟩

/-- A controller that was created is gated by the history of its run. -/
theorem gated_run {config : Config α} {c₀ : Controller α} (hcreate : create config = .ok c₀)
    (w : Surroundings α) (events : List (Event α)) :
    Gated config (history w c₀ events) (c₀.run w events) := by
  obtain ⟨hconfig, hschedule, houtcomes⟩ := schedule_run (.create hcreate) w events
  obtain ⟨pricing, source, rfl⟩ := create_spec hcreate
  rw [foldr_after, ← hconfig] at hschedule
  generalize Controller.run w _ events = c at *
  generalize history w _ events = h at *
  have hready (now : α) := ready_iff hschedule now
  have hrests (now : α) (hnot : ¬ c.Ready (lastAdvance? h) (lastSetback? h) now) :
      c.tick now = .ok c := by
    rw [hready, Bool.not_eq_false] at hnot
    rw [tick_eq, if_pos hnot]
  refine ⟨hconfig, houtcomes, fun now => ⟨fun hstarts => ?_, fun hstarts => ?_⟩, hrests,
    fun now d htick => ?_, fun d hd hbusy now => ?_⟩
  · -- Starting a cycle changes the controller, and a tick that is held back does not.
    refine Classical.byContradiction fun hnot => ?_
    exact start_ne_self true now c (Except.ok.inj (hstarts.symm.trans (hrests now hnot)))
  · rw [hready] at hstarts
    rw [tick_eq, hstarts]
    rfl
  · rcases tick_cases htick with rfl | ⟨rfl, -⟩
    · rfl
    · rfl
  · exact tick_of_held now (by simp [Option.isSome_iff_ne_none.mpr hbusy])

/-- **The gate over a whole run.** Ticks go by the latest advance and the latest setback of the
history. These are the latest success and the latest failure since, as one expects, exactly when the
history is plain; among articulate surroundings it is. -/
theorem tick_starts_iff {config : Config α} {c₀ : Controller α} (hcreate : create config = .ok c₀)
    (w : Surroundings α) (events : List (Event α)) :
    let c := c₀.run w events
    let h := history w c₀ events
    Gated config h c ∧
      (lastAdvance? h = lastSuccess? h ∧ lastSetback? h = lastFailure? h ↔ IsPlain h) ∧
      (IsPlain h → ∀ now, (c.tick now = .ok (c.start true now) ↔
        c.Ready (lastSuccess? h) (lastFailure? h) now)) ∧
      (w.Articulate → IsPlain h) := by
  have horderly : c₀.Orderly fun _ _ => True := .create hcreate
  have hgated := gated_run hcreate w events
  have hremembered := remembered_iff_isPlain (setsBack_of_isSuccess horderly w events)
  refine ⟨hgated, hremembered, fun hplain now => ?_, fun hw => isPlain_history hw horderly events⟩
  obtain ⟨hadvance, hsetback⟩ := hremembered.mpr hplain
  rw [← hadvance, ← hsetback]
  exact hgated.starts now

/-- Surroundings that keep out of everything throw nothing. -/
theorem articulate_answering (reply : Reply Float) : (answering reply).Articulate where
  market _ _ := .ok _
  performance _ h := by cases h
  onPublish _ h := by cases h
  onFloorClamp _ h := by cases h
  onFailure _ h := by cases h

/-- A cycle of time 1 fails for want of bars. Ticks wait for the end of the backoff, and for nothing
else. -/
theorem tick_starts_iff_afterFailure :
    let w := answering (.now (.ok []))
    let events : List (Event Float) := [.refresh 1, .make, .deliver, .resume, .clear]
    let c := sample.run w events
    let h := history w sample events
    (create sampleConfig = .ok sample ∧ IsPlain h) ∧ (lastFailure? h).map (·.startedAt) = some 1 ∧
      c.tick 5000 = .ok c ∧ c.Ready (lastSuccess? h) (lastFailure? h) 5001 := by
  obtain ⟨-, -, hstarts, hplain⟩ := tick_starts_iff create_sampleConfig (answering (.now (.ok [])))
    [.refresh 1, .make, .deliver, .resume, .clear]
  have hisPlain := hplain (articulate_answering _)
  exact ⟨⟨create_sampleConfig, hisPlain⟩, rfl, rfl, (hstarts hisPlain 5001).mp rfl⟩

/-- Surroundings whose listener for published sets throws something that cannot be put in words. -/
def speechless : Surroundings Float :=
  { answering (.now (.ok sampleBars)) with
    listeners := some {
      onPublish := fun _ _ _ => ⟨[], .error wordless⟩
      onFloorClamp := fun _ _ => ⟨[], .ok ()⟩
      onFailure := fun _ _ => ⟨[], .ok ()⟩ } }

/-- The listener throws something that cannot be put in words when it is told of the first set. The
cycle fails, and the backoff after it is over, but no tick starts another before the interval has
passed as well. -/
theorem tick_not_started_wordless :
    let events : List (Event Float) := [.refresh 1, .make, .deliver, .resume, .clear]
    let c := sample.run speechless events
    let h := history speechless sample events
    lastSuccess? h = none ∧ (lastFailure? h).isSome = true ∧
      c.Ready (lastSuccess? h) (lastFailure? h) 6001 ∧ c.tick 6001 = .ok c ∧
      c.tick 60001 = .ok (c.start true 60001) := by
  intro events c h
  have hsuccess : lastSuccess? h = none := Option.isNone_iff_eq_none.mp (by decide +kernel)
  have hcycle : c.cycle = none := Option.isNone_iff_eq_none.mp (by decide +kernel)
  have hover : (lastFailure? h).all (fun e =>
      !decide (6001 < e.startedAt + c.config.retryBackoffSeconds * 1000)) =
        true := by decide +kernel
  refine ⟨hsuccess, by decide +kernel, ⟨by decide +kernel, hcycle, ?_, ?_⟩, ?_, ?_⟩
  · rw [hsuccess]
    intro e he
    cases he
  · intro e he
    rw [he] at hover
    simpa using hover
  · rw [tick_eq, if_pos (by decide +kernel)]
  · rw [tick_eq, if_neg (by decide +kernel)]

end MarketMaker.Refresh.Controller
