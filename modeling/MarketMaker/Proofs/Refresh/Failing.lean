import Mathlib
import MarketMaker.Proofs.Refresh.Computing
import MarketMaker.Proofs.Refresh.Gate

/-!
# What a failed cycle leaves behind

A cycle that fails sets back the next attempt, tells the listener and those who wait of its failure,
and leaves the controller idle. The source of risk aversion is asked once at most, and not at all by
a cycle that fails before it consults it.

That it leaves alone what is published, and when the last success was, holds exactly when it fails
before it comes to parameters. It can fail after that only because the listener that is told of the
new set throws something that cannot be put in words.
-/

namespace MarketMaker.Refresh.Controller

open Scalar

variable {α : Type} [Scalar α] [NumberText α] [Numeric α]

variable {given : Nat → Except (Failure α) (List (Bar α)) → Prop} {c d : Controller α}
  {w : Surroundings α} {y : Cycle α} {f : Failure α}

/-! ## The moment of failing -/

/-- What a cycle that fails has done when it has come to its end. -/
structure FailsWith (w : Surroundings α) (f : Failure α) (c d : Controller α) : Prop where
  /-- The listener, if there is one, is told of the failure. -/
  reports : d.reports = c.reports ++ w.listeners.toList.map fun _ => f
  /-- A source is asked once at most, and only if the cycle comes so far. -/
  learns : ∃ asked ≤ 1, Learns asked c d ∧
    ((∀ source context, ¬ Consults w c source context) → asked = 0)
  /-- What is published is as it was exactly if no set was computed. -/
  untouched : Untouched c d ↔ ∀ next, ¬ ComesTo w c next

/-- A cycle that fails before it comes to parameters. -/
theorem FailsWith.of_caught {asked : Nat} {f g : Failure α} {now : α} (hbusy : c.Busy)
    (hprepares : Prepares asked c d) (hasked : asked ≤ 1)
    (hnone : (∀ source context, ¬ Consults w c source context) → asked = 0)
    (hnothing : ∀ next, ¬ ComesTo w c next) (hfailed : (d.caught w g now).1 = .failed f) :
    FailsWith w f c (d.caught w g now).2 := by
  have hd := hprepares.keeps.busy hbusy
  have hlearns := hprepares.learns.trans (Learns.caught w g now hd)
  have huntouched := hprepares.untouched.trans (Untouched.caught w g now hd)
  refine ⟨?_, ⟨asked, hasked, by simpa using hlearns, hnone⟩, iff_of_true huntouched hnothing⟩
  rw [caught_reports hd hfailed, hprepares.reports]

/-- **A cycle that goes on and fails.** -/
theorem GoesOn.failsWith {fetched : Except (Failure α) (List (Bar α))} (h : GoesOn c y fetched)
    (hbusy : c.Busy) (hfailed : (c.conclude w fetched y.startedAt).1 = .failed f) :
    FailsWith w f c (c.conclude w fetched y.startedAt).2 := by
  have hidle : Prepares 0 c c := (Aside.refl c).prepares (.refl c)
  cases fetched with
  | error g =>
    -- Without bars nothing is computed.
    refine .of_caught hbusy hidle (Nat.zero_le 1) (fun _ => rfl) ?_ hfailed
    rintro next ⟨z, bars, b, hb, -⟩
    obtain rfl := Option.some.inj (h.cycle.symm.trans hb.cycle)
    cases h.fetched.symm.trans hb.fetched
  | ok bars =>
    cases hstopped : c.stopped with
    | true =>
      rw [conclude_of_stopped w _ _ hstopped] at hfailed
      cases hfailed
    | false =>
      obtain ⟨b, hb⟩ := h.computes hstopped
      obtain ⟨asked, hasked, hprepares, hnone⟩ := hb.prepares_compute hbusy w
      rw [hb.conclude_eq w] at hfailed ⊢
      rcases hcompute : b.compute w bars y.startedAt with ⟨result, computed⟩
      rw [hcompute] at hprepares
      simp only [hcompute] at hfailed ⊢
      cases result with
      | error g =>
        refine .of_caught hbusy hprepares hasked hnone ?_ hfailed
        rintro next ⟨z, bars', b', hb', hnext⟩
        obtain ⟨rfl, rfl, rfl⟩ := hb.eq hb'
        rw [hcompute] at hnext
        cases hnext
      | ok next =>
        have hentered := hprepares.trans (.enter .publishing computed)
        have hpublishing := hentered.keeps.busy hbusy
        obtain ⟨hkeeps, -, -, hresult⟩ := publish_spec w next y.startedAt hpublishing
        have hreported := publish_reports w next y.startedAt hpublishing
        have hlearns := Learns.publish w next y.startedAt hpublishing
        rcases hp : { computed with phase := .publishing }.publish w next y.startedAt
          with ⟨published, after⟩
        rw [hp] at hkeeps hresult hreported hlearns
        simp only [hp] at hfailed ⊢
        cases published with
        | ok outcome =>
          -- A set that was published is no failure.
          have hsuccess : outcome.isSuccess = true := hresult
          have hfailed' : outcome = .failed f := hfailed
          rw [hfailed'] at hsuccess
          cases hsuccess
        | error g =>
          have hafter := hkeeps.busy hpublishing
          have hreplaced : (after.caught w g y.startedAt).2.publications = c.publications + 1 := by
            rw [(Untouched.caught w g y.startedAt hafter).publications, ← hentered.publications]
            exact hresult
          refine ⟨by rw [caught_reports hafter hfailed, hreported, hentered.reports],
            ⟨asked, hasked, ?_, hnone⟩, ?_⟩
          · simpa using (hentered.learns.trans hlearns).trans (Learns.caught w g y.startedAt hafter)
          · refine iff_of_false (fun huntouched => ?_) fun hnothing => ?_
            · exact absurd (huntouched.publications.symm.trans hreplaced)
                (Nat.ne_of_lt (Nat.lt_succ_self _))
            · exact hnothing next ⟨y, bars, b, hb, by rw [hcompute]⟩

/-- Among articulate surroundings a cycle that comes to parameters does not fail. -/
theorem GoesOn.not_comesTo {fetched : Except (Failure α) (List (Bar α))} (h : GoesOn c y fetched)
    (hbusy : c.Busy) (hw : w.Articulate)
    (hfailed : (c.conclude w fetched y.startedAt).1 = .failed f) (next : Parameters α) :
    ¬ ComesTo w c next := by
  rintro ⟨z, bars, b, hb, hnext⟩
  obtain rfl := Option.some.inj (h.cycle.symm.trans hb.cycle)
  obtain rfl := Option.some.inj (h.fetched.symm.trans hb.fetched)
  have hbegun := hb.prepares.keeps.busy hbusy
  have haside := Aside.compute w bars y.startedAt hbegun
  rw [hb.conclude_eq w] at hfailed
  rcases hcompute : b.compute w bars y.startedAt with ⟨result, computed⟩
  rw [hcompute] at hnext haside
  obtain rfl : result = .ok next := hnext
  have hpublishing : ({ computed with phase := .publishing } : Controller α).Busy :=
    haside.busy hbegun
  obtain ⟨outcome, hok⟩ := exists_publish_eq_ok hw next y.startedAt hpublishing
  obtain ⟨-, -, -, hresult⟩ := publish_spec w next y.startedAt hpublishing
  simp only [hcompute] at hfailed
  rcases hp : { computed with phase := .publishing }.publish w next y.startedAt
    with ⟨published, after⟩
  rw [hp] at hok hresult
  obtain rfl : published = .ok outcome := hok
  have hsuccess : outcome.isSuccess = true := hresult
  simp only [hp] at hfailed
  have hfailed' : outcome = .failed f := hfailed
  rw [hfailed'] at hsuccess
  cases hsuccess

/-! ## Those who wait -/

/-- Those who wait for a cycle that has come to its end are told what it came to, once every step
was taken that waits for nothing outside. -/
theorem told_of_outcomes (horderly : d.Orderly fun _ _ => True) (w : Surroundings α) {n : Nat}
    {outcome : Outcome α} (hended : ∀ z, d.cycle = some z → z.outcome ≠ none)
    (houtcome : d.outcomes[n]? = some outcome) (later : List (Event α)) :
    Session.answer? ((d.drain w).run w later) (.outcome n) =
      some (.of (.outcome outcome) outcome) := by
  have hdrain : d.run w [.make, .deliver, .resume, .clear, .release] = d.drain w := rfl
  have hdrained : (d.drain w).Orderly fun _ _ => True := by
    rw [← hdrain]
    exact horderly.run w _
  have hnone : (d.drain w).cycle = none :=
    cycle_drain horderly w fun z hz hrunning => absurd hrunning (hended z hz)
  obtain ⟨-, -, houtcomes⟩ := schedule_run horderly w [.make, .deliver, .resume, .clear, .release]
  rw [hdrain] at houtcomes
  -- The outcomes so far stay, and all of them have been told now.
  have hlist : (d.drain w).endings.map Prod.snd = (d.drain w).outcomes := by
    simp [outcomes, hnone]
  have hsecond : ((d.drain w).endings.map Prod.snd)[n]? = some outcome := by
    rw [hlist, houtcomes, List.getElem?_append_left (List.getElem?_eq_some_iff.mp houtcome).1,
      houtcome]
  rw [List.getElem?_map] at hsecond
  obtain ⟨p, hp, rfl⟩ := Option.map_eq_some_iff.mp hsecond
  have hfirst : ((d.drain w).endings.map Prod.fst)[n]? = some p.1 := by
    rw [List.getElem?_map, hp]
    rfl
  rw [hdrained.endings.1] at hfirst
  obtain rfl : n = p.1 := by
    obtain ⟨hlt, heq⟩ := List.getElem?_eq_some_iff.mp hfirst
    simpa using heq
  exact answer?_outcome hdrained (List.mem_of_getElem? hp) w later

/-! ## The whole of it -/

/-- What a cycle leaves behind that was in flight at `s` and has failed by `d`. -/
structure FailedFrame (w : Surroundings α) (s : Controller α) (y : Cycle α) (f : Failure α)
    (d : Controller α) : Prop where
  /-- Ticks wait for the backoff after the start of the cycle. -/
  retry : d.schedule.retryNotBefore = some (y.startedAt + s.config.retryBackoffSeconds * 1000)
  /-- The listener, if there is one, is told of that failure and of no other. -/
  reports : d.reports = s.reports ++ w.listeners.toList.map fun _ => f
  /-- The controller is idle. -/
  idle : d.phase = .idle
  /-- Those who wait for the cycle are told the failure, then and at any later time. -/
  told : ∀ later, Session.answer? ((d.drain w).run w later) (.outcome y.number) =
    some (.outcome (.failed f))

/-- **What a failed cycle leaves behind.** Take a cycle in flight at any moment `s` of a run, and
any later moment `d` by which it has failed and no other has started. It went on at one moment `r`
in between; and it has left alone what is published, and when the last success was, exactly when it
came to no parameters at that moment. Among articulate surroundings it never did. -/
theorem failed_untouched_iff {config : Config α} {c₀ : Controller α}
    (hcreate : create config = .ok c₀) (w : Surroundings α) (before after : List (Event α))
    {y : Cycle α} {f : Failure α} (hy : (c₀.run w before).cycle = some y)
    (hrunning : y.outcome = none)
    (hlast : ((c₀.run w before).run w after).cycles = (c₀.run w before).cycles)
    (hfailed : ((c₀.run w before).run w after).outcomes[y.number]? = some (.failed f)) :
    let s := c₀.run w before
    let d := s.run w after
    FailedFrame w s y f d ∧
      (∀ first rest, after = first ++ rest → ∀ now, ∃ e, (s.run w first).tick now = .ok e) ∧
      ∃ waits rest, after = waits ++ .resume :: rest ∧
        let r := s.run w waits
        (Untouched s d ↔ ∀ next, ¬ ComesTo w r next) ∧
        (w.Articulate → ∀ next, ¬ ComesTo w r next) ∧
        ∃ asked ≤ 1, Learns asked s d ∧
          ((∀ source context, ¬ Consults w r source context) → asked = 0) := by
  have hs : (c₀.run w before).Orderly fun _ _ => True :=
    orderly_run hcreate (fun _ _ _ => trivial) (fun _ _ _ => trivial)
  generalize c₀.run w before = s at hy hlast hfailed hs ⊢
  have hrun (events : List (Event α)) : (s.run w events).Orderly fun _ _ => True :=
    run_invariant (·.Orderly fun _ _ => True) w events
      (fun e he event _ => he.step w (fun _ _ _ => trivial) (fun _ _ _ => trivial)) hs
  obtain ⟨waits, rest, z, fetched, hsplit, hwaits, hgoes, hnumber, hstarted, hend, hlater⟩ :=
    exists_goesOn hs w hy hrunning hlast hfailed
  have horderly := hrun waits
  have hbusy := (horderly.busy hgoes.cycle hgoes.fetched).2
  have hfails := hgoes.failsWith hbusy hend
  obtain ⟨hconcludes, -⟩ := hgoes.resume horderly w
  obtain ⟨hlasts, hended⟩ := hgoes.lasts horderly hlater
  have hd := hrun after
  have hconfig : (s.run w waits).config = s.config := (congrArg Controller.config hwaits.lasting :)
  refine ⟨⟨?_, ?_, ?_, told_of_outcomes hd w hended hfailed⟩,
    fun first rest _ now => ⟨_, tick_eq now _⟩, waits, rest, hsplit, ?_,
    fun hw => hgoes.not_comesTo hbusy hw hend, ?_⟩
  · rw [hlasts.schedule, hconcludes.schedule, hconfig, ← hstarted]
    simp [Schedule.after, Ending.setsBack, endingOf, hend, Outcome.isFailure]
  · rw [hlasts.reports, hfails.reports, hwaits.reports]
  · refine Decidable.byContradiction fun hactive => ?_
    obtain ⟨x, hx, hrunning'⟩ := hd.phase hactive
    exact hended x hx hrunning'
  · -- What the lulls before and after leave alone makes no difference.
    rw [← hfails.untouched]
    constructor
    · intro huntouched
      exact (hwaits.untouched.symm.trans huntouched).trans hlasts.untouched.symm
    · intro huntouched
      exact (hwaits.untouched.trans huntouched).trans hlasts.untouched
  · obtain ⟨asked, hasked, hlearns, hnone⟩ := hfails.learns
    exact ⟨asked, hasked, (hwaits.learns.before hlearns).trans hlasts.learns, hnone⟩

/-- Surroundings without any bars, whose listener for failures switches the mode and throws
something with a text. -/
def complaining : Surroundings Float :=
  { answering (.now (.ok [])) with
    listeners := some { silent with
      onFailure := fun _ _ => ⟨[.setMode (.known .fixed)], .error (.thrown (.string "too bad"))⟩ } }

/-- A cycle of time 1 fails for want of bars, and the listener that is told so throws. -/
theorem failed_untouched_iff_noBars :
    let s := sample.run complaining [.refresh 1, .make]
    let d := s.run complaining [.deliver, .resume, .clear]
    let y : Cycle Float := ⟨0, false, 1, Request.begun.make.answer (.ok []), some 0, none⟩
    ∃ f, (create sampleConfig = .ok sample ∧ s.cycle = some y ∧ y.outcome = none ∧
      d.cycles = s.cycles ∧
      d.outcomes[y.number]? = some (.failed f)) ∧
      FailedFrame complaining s y f d ∧ Untouched s d ∧ d.switches = s.switches + 1 := by
  intro s d y
  have hy : s.cycle = some y := rfl
  have hlast : d.cycles = s.cycles := by decide +kernel
  have hend : d.outcomes[y.number]?.any Outcome.isFailure = true := by decide +kernel
  obtain ⟨outcome, houtcome, hfailure⟩ := (Option.any_eq_true _ _).mp hend
  cases outcome with
  | failed f =>
    have hw : complaining.Articulate :=
      ⟨fun _ _ => .ok _, nofun, fun l hl => by cases hl; exact fun _ _ _ => .ok (),
        fun l hl => by cases hl; exact fun _ _ => .ok (),
        fun l hl => by cases hl; exact fun _ _ => .error rfl⟩
    obtain ⟨hframe, -, waits, rest, -, huntouched, hnot, -⟩ :=
      failed_untouched_iff create_sampleConfig complaining [.refresh 1, .make]
        [.deliver, .resume, .clear] hy rfl hlast houtcome
    exact ⟨f, ⟨create_sampleConfig, hy, rfl, hlast, houtcome⟩, hframe, huntouched.mpr (hnot hw),
      by decide +kernel⟩
  | _ => cases hfailure

/-- The listener throws something that cannot be put in words when it is told of the first set. The
cycle has failed, and yet that set is published and the time of the last success is that of the
failed cycle. -/
theorem failed_not_untouched_wordless :
    let s := sample.run speechless [.refresh 1]
    let d := s.run speechless [.make, .deliver, .resume, .clear]
    d.outcomes[0]?.any Outcome.isFailure = true ∧ d.cycles = s.cycles ∧
      s.published.isSome = false ∧ d.published.isSome = true ∧ d.publications = s.publications + 1 ∧
      s.schedule.lastUpdate.isSome = false ∧
      d.schedule.lastUpdate.any (fun time => decide (1 ≤ time)) = true ∧
      d.calls.publish = s.calls.publish + 1 := by
  decide +kernel

end MarketMaker.Refresh.Controller
