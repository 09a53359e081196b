import MarketMaker.Proofs.Refresh.RiskAversion
import MarketMaker.Proofs.Settings

/-!
# A mode and its source

The source of risk aversion in place is of the kind that the mode asks for, and there is none in the
mode without risk aversion: such a controller `Matches`. Every change that a controller can go
through keeps that:

* calls from outside and from callbacks either leave the mode and the source alone or switch both;
* a source that was asked remains of its kind, and is not put back once it was replaced.

It holds at every `Moment` when somebody can look at the controller or call it: between two events
of a run, and while a cycle has called back and waits. At each of them a switch is one step: it is
refused and nothing has changed, or it puts the mode and a fresh source in place and changes nothing
else.
-/

namespace MarketMaker.Refresh.Controller

variable {α : Type} [Scalar α]

/-- The kind of source that a mode asks for. What is no mode asks for none. -/
def gammaMode? : Choice Mode α → Option Mode
  | .known .autoOptimize | .given _ => none
  | .known mode => some mode

/-- The source that a mode starts with. The learner has learnt nothing yet. -/
def freshSource (s : Gamma.SourceSettings α) : Mode → Option (Gamma.Source α)
  | .fixed => some (.fixed s.riskFactor s.gammaMin s.gammaMax)
  | .onlineAdaptive =>
    some (.online ⟨s.learnerConfig, Gamma.Learner.startGamma s.learnerConfig, .empty⟩)
  | .ruleAdaptive => some (.rules ⟨s.ruleConfig, Scalar.clamp s.riskFactor s.gammaMin s.gammaMax⟩)
  | .autoOptimize => none

/-- A controller whose source is of the kind that its mode asks for. -/
def Matches (c : Controller α) : Prop := c.source.map (·.mode) = gammaMode? c.mode

variable {c d : Controller α}

/-! ## Fresh sources -/

/-- What a known mode builds its source of, once its settings are accepted. -/
theorem eq_freshSource {settings : Gamma.SourceSettings α} {mode : Mode}
    {source : Option (Gamma.Source α)}
    (h : Gamma.Source.create (.known mode) settings = .ok source) :
    source = freshSource settings mode := by
  cases mode with
  | fixed =>
    obtain ⟨-, -, h⟩ := Guards.bind_eq_ok.mp h
    exact (Except.ok.inj h).symm
  | autoOptimize =>
    obtain ⟨-, -, h⟩ := Guards.bind_eq_ok.mp h
    exact (Except.ok.inj h).symm
  | onlineAdaptive =>
    obtain ⟨-, -, h⟩ := Guards.bind_eq_ok.mp h
    obtain ⟨learner, hlearner, h⟩ := Guards.bind_eq_ok.mp h
    obtain rfl := Except.ok.inj h
    obtain ⟨-, rfl⟩ := Gamma.Learner.create_spec hlearner
    rfl
  | ruleAdaptive =>
    obtain ⟨-, -, h⟩ := Guards.bind_eq_ok.mp h
    obtain ⟨scheduler, hscheduler, h⟩ := Guards.bind_eq_ok.mp h
    obtain rfl := Except.ok.inj h
    obtain ⟨-, -, -, rfl⟩ := Gamma.Scheduler.create_eq_ok_iff.mp hscheduler
    rfl

/-- A source is built of the kind that the mode asks for. -/
theorem mode_create {settings : Gamma.SourceSettings α} {mode : Choice Mode α}
    {source : Option (Gamma.Source α)} (h : Gamma.Source.create mode settings = .ok source) :
    source.map (·.mode) = gammaMode? mode := by
  cases mode with
  | known m =>
    rw [eq_freshSource h]
    cases m <;> rfl
  | given v =>
    obtain ⟨-, -, h⟩ := Guards.bind_eq_ok.mp h
    obtain rfl := Except.ok.inj h
    rfl

/-! ## Changes that keep a source and its mode together -/

omit [Scalar α] in
theorem Matches.of_same (h : Matches c) (hmode : d.mode = c.mode) (hsource : d.source = c.source) :
    Matches d := by
  rw [Matches, hmode, hsource]
  exact h

omit [Scalar α] in
theorem Matches.of_stance (h : Matches c) (hstance : d.stance = c.stance) : Matches d :=
  h.of_same (congrArg (·.2.2.2.2) hstance :) (congrArg (·.1) hstance :)

omit [Scalar α] in
theorem Matches.note (h : Matches c) (o : Occurrence α) : Matches (c.note o) := h

omit [Scalar α] in
theorem Matches.logAll (h : Matches c) (entries : List (Log.Entry α)) :
    Matches (c.logAll entries) := by
  induction entries generalizing c with
  | nil => exact h
  | cons e rest ih => exact ih (h.note (.logged e))

/-- A source that was asked is of its kind, and one that was replaced meanwhile is not put back. -/
theorem Matches.keepSource (h : Matches d) {source : Gamma.Source α}
    (hsource : c.source = some source) (hlearns : Learns 0 c d) (context : Gamma.Context α) :
    Matches (d.keepSource c.switches (source.resolve context).2.1) := by
  unfold Controller.keepSource
  split
  · next hswitches =>
    have hkind : (source.resolve context).2.1.mode = source.mode := source.mode_next context
    have hmatches : d.source.map (·.mode) = gammaMode? d.mode := h
    rw [hlearns.source_eq hswitches, hsource] at hmatches
    rw [Matches, ← hmatches]
    exact congrArg some hkind
  · exact h

variable [NumberText α]

theorem Matches.switched (h : Matches c) (mode : Choice Mode α) : Matches (c.switched mode).2 := by
  unfold Controller.switched
  cases hset : c.setMode mode with
  | error f => exact h
  | ok after =>
    obtain ⟨source, hsource, rfl⟩ := setMode_eq_ok hset
    exact mode_create hsource

theorem Matches.ticked (h : Matches c) (now : α) : Matches (c.ticked now).2 := by
  unfold Controller.ticked
  cases ht : c.tick now with
  | error f => exact h
  | ok after =>
    rcases tick_cases ht with rfl | ⟨rfl, -⟩
    · exact h
    · exact h

omit [Scalar α] in
theorem Matches.refresh (h : Matches c) (now : α) : Matches (c.refresh now).2 := by
  unfold Controller.refresh
  split
  · exact h
  · split <;> exact h

/-! ## Callbacks -/

variable {w : Surroundings α}

theorem Matches.perform (h : Matches c) (w : Surroundings α) (a : Action α) :
    Matches (c.perform w a).2 := by
  cases a with
  | stop => exact h.of_stance (stance_stop w c)
  | setMode mode => exact (h.switched mode).note _
  | refresh now => exact h.refresh now
  | tick now =>
    cases ht : c.tick now with
    | error f => simpa only [Controller.perform, ht] using h
    | ok after =>
      have hticked := h.ticked now
      simp only [Controller.ticked, ht] at hticked
      simpa only [Controller.perform, ht] using hticked.note _

theorem Matches.performAll (h : Matches c) (w : Surroundings α) (actions : List (Action α)) :
    Matches (c.performAll w actions).2 := by
  induction actions generalizing c with
  | nil => exact h
  | cons a rest ih =>
    have hfirst := h.perform w a
    unfold Controller.performAll
    rcases hp : c.perform w a with ⟨result, after⟩
    rw [hp] at hfirst
    cases result with
    | ok _ => exact ih hfirst
    | error f => exact hfirst

theorem Matches.react {β : Type} (h : Matches c) (w : Surroundings α) (r : Reaction α β) :
    Matches (c.react w r).2 :=
  h.performAll w r.actions

theorem Matches.tell (h : Matches c) (w : Surroundings α) (r : Reaction α Unit) :
    Matches (c.tell w r).2 := by
  have hreact := h.react w r
  rcases tell_cases w r c with heq | heq | ⟨entry, heq⟩ <;> rw [heq]
  · exact hreact
  · exact hreact
  · exact hreact.note _

theorem Matches.askMarket (h : Matches c) (w : Surroundings α) (bars : List (Bar α)) :
    Matches (c.askMarket w bars).2 :=
  Matches.react
    (c := ({ c with calls := { c.calls with market := c.calls.market + 1 } } : Controller α).note
    (.marketAsked bars.length)) h w _

theorem Matches.askPerformance (h : Matches c) (w : Surroundings α) :
    Matches (c.askPerformance w).2 := by
  unfold Controller.askPerformance
  cases w.performance with
  | none => exact h
  | some ask =>
    exact Matches.react
      (c := ({ c with calls := { c.calls with performance := c.calls.performance + 1 } } :
      Controller α).note .performanceAsked) h w _

theorem Matches.tellClamp (h : Matches c) (w : Surroundings α) (e : Pricing.FloorClamp α) :
    Matches (c.tellClamp w e).2 := by
  unfold Controller.tellClamp
  cases w.listeners with
  | none => exact h
  | some l =>
    exact Matches.tell (c := ({ c with calls := { c.calls with clamp := c.calls.clamp + 1 } } :
      Controller α).note (.clamped e)) h w _

/-! ## The stages of a cycle -/

theorem Matches.price (h : Matches c) (w : Surroundings α) (estimate : Volatility.Estimate α)
    (market : Market α) (now gamma : α) : Matches (c.price w estimate market now gamma).2 := by
  unfold Controller.price
  dsimp only
  split
  · exact h
  · next quote hquote =>
    have hlogged :=
      h.logAll (Pricing.logOf ⟨market, gamma, estimate.value, c.config.timeHorizonSeconds⟩ quote)
    cases quote.floorClamp with
    | none => exact hlogged
    | some e => exact hlogged.tellClamp w e

theorem Matches.computeWith (h : Matches c) (w : Surroundings α) {source : Gamma.Source α}
    (hsource : c.source = some source) (hbusy : c.Busy) (estimate : Volatility.Estimate α)
    (market : Market α) (now : α) : Matches (c.computeWith w source estimate market now).2 := by
  have hasked := h.askPerformance w
  have hlearns := Learns.askPerformance w hbusy
  unfold Controller.computeWith
  rcases hp : c.askPerformance w with ⟨result, after⟩
  rw [hp] at hasked hlearns
  cases result with
  | error f => exact hasked
  | ok performance =>
    dsimp only
    split
    · exact ((hasked.keepSource hsource hlearns _).logAll _).price w estimate market now _
    · exact hasked

theorem Matches.compute (h : Matches c) (w : Surroundings α) (bars : List (Bar α))
    (now : α) (hbusy : c.Busy) : Matches (c.compute w bars now).2 := by
  have hasked := h.askMarket w bars
  have haside := Aside.askMarket w bars hbusy
  unfold Controller.compute
  cases Volatility.estimate bars c.config.volatilityInterval now with
  | error f => exact h
  | ok estimate =>
    rcases hm : c.askMarket w bars with ⟨result, after⟩
    rw [hm] at hasked haside
    cases result with
    | error f => exact hasked
    | ok market =>
      dsimp only
      cases hsource : after.source with
      | none => exact hasked
      | some source => exact hasked.computeWith w hsource (haside.busy hbusy) estimate market now

theorem Matches.replace (h : Matches c) (w : Surroundings α) (next : Parameters α) :
    Matches (c.replace w next).2 := by
  unfold Controller.replace
  dsimp only
  cases w.listeners with
  | none => exact h
  | some l =>
    dsimp only
    generalize hnoted : Controller.note _ _ = noted
    have hmatches : Matches noted := by
      rw [← hnoted]
      exact h
    exact hmatches.tell w _

theorem Matches.publish (h : Matches c) (w : Surroundings α) (next : Parameters α) (now : α) :
    Matches (c.publish w next now).2 := by
  unfold Controller.publish
  dsimp only
  split
  · exact h
  · refine Matches.replace ?_ w next
    exact h
  · exact h

/-- What is thrown in a cycle does not part a source from its mode. -/
theorem Matches.caught (h : Matches c) (w : Surroundings α) (f : Failure α)
    (now : α) (hbusy : c.Busy) : Matches (c.caught w f now).2 := by
  let holds (c d : Controller α) : Prop := Matches c → Matches d
  have hstages : holds c (c.caught w f now).2 :=
    caught_stages w f now hbusy (fun _ => id) (fun h₁ h₂ => h₂ ∘ h₁)
    (fun _ _ _ _ _ => id) (fun _ _ => id) fun _ reaction _ h => h.tell w reaction
  exact hstages h

/-! ## Runs -/

variable [Numeric α]

/-- A cycle that begins to compute has the source that it had before. -/
theorem Computes.matches {y : Cycle α} {bars : List (Bar α)} {b : Controller α}
    (h : Computes c y bars b) (hc : Matches c) : Matches b := by
  obtain ⟨warned, hwarned, rfl⟩ := h.begun
  simp only [warnShort, checkUsable_eq_ok, bind, Except.bind, pure, Except.pure] at hwarned
  obtain rfl := Except.ok.inj hwarned
  split
  · exact hc
  · exact hc

theorem GoesOn.matches_conclude {y : Cycle α} {fetched : Except (Failure α) (List (Bar α))}
    (h : GoesOn c y fetched) (hbusy : c.Busy) (w : Surroundings α) (hc : Matches c) :
    Matches (c.conclude w fetched y.startedAt).2 := by
  let holds (c d : Controller α) : Prop := Matches c → Matches d
  have hstages : holds c (c.conclude w fetched y.startedAt).2 :=
    h.conclude_stages hbusy w (fun _ => id) (fun h₁ h₂ => h₂ ∘ h₁)
      (fun _ hb hc => hb.matches hc) (fun _ _ hbegun hb => hb.compute w _ y.startedAt hbegun)
      (fun _ => id) (fun _ next _ hd => hd.publish w next y.startedAt)
    (fun _ f hbusy hd => hd.caught w f y.startedAt hbusy)
  exact hstages hc

theorem Matches.step (h : Matches c) (horderly : c.Orderly fun _ _ => True) (w : Surroundings α)
    (event : Event α) : Matches (c.step w event) := by
  cases event with
  | tick now => exact h.ticked now
  | refresh now => exact h.refresh now
  | setMode mode => exact h.switched mode
  | stop => exact h.of_stance (stance_stop w c)
  | answer call a => exact h.of_stance (stance_answer call a c)
  | expire => exact h.of_stance (stance_expire w c)
  | make => exact h.of_stance (stance_make w c)
  | deliver => exact h.of_stance (stance_deliver w c)
  | clear => exact h.of_stance (stance_clear c)
  | release => exact h.of_stance (stance_release c)
  | resume =>
    rcases resume_cases w c with heq | ⟨y, fetched, hy, hrunning, hcalled, hfetched⟩
    · simp only [Controller.step, heq]
      exact h
    · have hgoes : GoesOn c y fetched := ⟨hy, hrunning, hcalled, hfetched⟩
      obtain ⟨-, heq⟩ := hgoes.resume horderly w
      have hconcluded := hgoes.matches_conclude (horderly.busy hgoes.cycle hgoes.fetched).2 w h
      simp only [Controller.step, heq]
      exact hconcluded

/-- **Throughout a run** the source in place is of the kind that the mode asks for. -/
theorem matches_run {config : Config α} {c₀ : Controller α} (hcreate : create config = .ok c₀)
    (w : Surroundings α) (events : List (Event α)) : Matches (c₀.run w events) := by
  have hfirst : Matches c₀ := by
    obtain ⟨-, hsource⟩ := check_of_create hcreate
    obtain ⟨pricing, source, rfl⟩ := create_spec hcreate
    exact mode_create hsource
  let holds (c d : Controller α) : Prop := Matches c → Matches d
  have hrun : holds c₀ (c₀.run w events) := by
    refine (Orderly.create hcreate).relates_run w (fun _ => id) ?_ (fun d event hd => ?_) events
    · exact fun h₁ h₂ => h₂ ∘ h₁
    · exact fun h => h.step hd w event
  exact hrun hfirst

/-! ## Moments -/

omit [Numeric α] in
/-- The cycle in flight goes on, throws something, and leaves a controller behind. -/
inductive Throws (w : Surroundings α) (c : Controller α) : Controller α → Prop where
  /-- Its request has failed. -/
  | fetching {y : Cycle α} {f : Failure α} (h : GoesOn c y (.error f)) : Throws w c c
  /-- Its computation throws. -/
  | computing {y : Cycle α} {bars : List (Bar α)} {b d : Controller α} {f : Failure α}
    (h : Computes c y bars b) (hthrown : b.compute w bars y.startedAt = (.error f, d)) :
    Throws w c d
  /-- Publishing its set throws. -/
  | publishing {y : Cycle α} {bars : List (Bar α)} {b computed d : Controller α}
    {next : Parameters α} {f : Failure α} (h : Computes c y bars b)
    (hcomputed : b.compute w bars y.startedAt = (.ok next, computed))
    (hthrown : { computed with phase := .publishing }.publish w next y.startedAt = (.error f, d)) :
    Throws w c d

omit [Scalar α] [NumberText α] [Numeric α] in
/-- A controller as a callback finds it, with the call counted and seen. -/
def called (calls : Calls) (o : Occurrence α) (c : Controller α) : Controller α :=
  { c with calls }.note o

omit [Numeric α] in
/-- The cycle in flight goes on and calls back. Who is called finds a controller. -/
inductive CallsBack (w : Surroundings α) (c : Controller α) : Controller α → Prop where
  /-- The source of the market is called. -/
  | market {y : Cycle α} {bars : List (Bar α)} {b : Controller α} (h : Computes c y bars b) :
    CallsBack w c (b.called { b.calls with
      market := b.calls.market + 1 } (.marketAsked bars.length))
  /-- Whoever tracks the performance is called. -/
  | performance {y : Cycle α} {bars : List (Bar α)} {b after : Controller α} {market : Market α}
    (h : Computes c y bars b) (hmarket : b.askMarket w bars = (.ok market, after)) :
    CallsBack w c (after.called { after.calls with
      performance := after.calls.performance + 1 } .performanceAsked)
  /-- The listener is told of the floor. -/
  | clamp {y : Cycle α} {bars : List (Bar α)} {b d : Controller α} {source : Gamma.Source α}
    {context : Gamma.Context α} {entries : List (Log.Entry α)} (event : Pricing.FloorClamp α)
    (h : Computes c y bars b)
    (hconsults : b.consultation? w bars y.startedAt = some (source, context))
    (hquoted : d = (b.consulted w bars source context).logAll entries) :
    CallsBack w c (d.called { d.calls with clamp := d.calls.clamp + 1 } (.clamped event))
  /-- The listener is told of a new set. -/
  | publish {y : Cycle α} {bars : List (Bar α)} {b computed d : Controller α} {next : Parameters α}
    (h : Computes c y bars b) (hcomputed : b.compute w bars y.startedAt = (.ok next, computed))
    (hreplaced : d = { computed with
      phase := .publishing
      schedule := { computed.schedule with lastUpdate := some y.startedAt, retryNotBefore := none }
      published := some next
      publications := computed.publications + 1 }.log .info "Quote parameters published"
        (ChangeRecord.between computed.published next).fields) :
    CallsBack w c (d.called { d.calls with publish := d.calls.publish + 1 }
      (.published (ChangeRecord.between computed.published next) next))
  /-- The listener is told of a failure. -/
  | failure {thrown d : Controller α} {time : α} {context : List (String × Value α)} (f : Failure α)
    (h : Throws w c thrown)
    (hfailed : d = { thrown with
      schedule := { thrown.schedule with retryNotBefore := some time } }.log .warn
      "Parameter refresh failed, keeping last published parameters" context) :
    CallsBack w c (d.called { d.calls with failure := d.calls.failure + 1 } (.failed f))

omit [Numeric α] in
/-- A controller at a moment when somebody can look at it or call it: between two events of a run,
or when a cycle has called back, and what was called has made some calls already. -/
inductive Moment (w : Surroundings α) (c₀ : Controller α) : Controller α → Prop where
  /-- Between two events. -/
  | between (events : List (Event α)) : Moment w c₀ (c₀.run w events)
  /-- Within an event, after some calls. -/
  | within (events : List (Event α)) {d : Controller α} (h : CallsBack w (c₀.run w events) d)
    (done : List (Action α)) : Moment w c₀ (d.performAll w done).2

/-- What a stage of a cycle leaves alone: the frame of the controller, and that its source matches
its mode. -/
structure Fits (c d : Controller α) : Prop where
  /-- The frame is as it was. -/
  frame : d.frame = c.frame
  /-- A source that matched the mode does so still. -/
  kind : Matches c → Matches d

variable {y : Cycle α} {bars : List (Bar α)} {b : Controller α}

omit [Scalar α] [NumberText α] [Numeric α] in
theorem Fits.trans {e : Controller α} (h₁ : Fits c d) (h₂ : Fits d e) : Fits c e :=
  ⟨h₂.frame.trans h₁.frame, h₂.kind ∘ h₁.kind⟩

omit [Scalar α] [NumberText α] [Numeric α] in
theorem Fits.busy (h : Fits c d) (hbusy : c.Busy) : d.Busy := by
  have hcycle : d.cycle = c.cycle := (congrArg Controller.cycle h.frame :)
  obtain ⟨y, hy, hdeaf⟩ := hbusy
  exact ⟨y, hcycle.trans hy, hdeaf⟩

theorem Computes.fits (h : Computes c y bars b) : Fits c b := ⟨h.prepares.keeps.frame, h.matches⟩

theorem Computes.fits_compute (h : Computes c y bars b) (hbusy : c.Busy) (w : Surroundings α) :
    Fits c (b.compute w bars y.startedAt).2 := by
  have hbegun := h.fits.busy hbusy
  exact h.fits.trans
    ⟨(Aside.compute w bars y.startedAt hbegun).keeps.frame,
      fun hb => hb.compute w bars y.startedAt hbegun⟩

theorem Throws.fits (h : Throws w c d) (hbusy : c.Busy) : Fits c d := by
  cases h with
  | fetching => exact ⟨rfl, id⟩
  | computing hb hthrown =>
    have hfits := hb.fits_compute hbusy w
    rwa [hthrown] at hfits
  | @publishing y bars b computed _ next f hb hcomputed hthrown =>
    have hfits := hb.fits_compute hbusy w
    rw [hcomputed] at hfits
    have hentered : Fits c { computed with phase := .publishing } := hfits.trans ⟨rfl, id⟩
    have hpublished : Fits { computed with phase := .publishing }
        ({ computed with phase := .publishing }.publish w next y.startedAt).2 :=
      ⟨(publish_spec w next y.startedAt (hentered.busy hbusy)).1.frame,
        fun h => h.publish w next y.startedAt⟩
    rw [hthrown] at hpublished
    exact hentered.trans hpublished

/-- A source is consulted in a controller whose source matches its mode, and it still does
afterwards. -/
theorem Computes.fits_consulted {source : Gamma.Source α} {context : Gamma.Context α}
    (h : Computes c y bars b) (hbusy : c.Busy)
    (hconsults : b.consultation? w bars y.startedAt = some (source, context)) :
    Fits c (b.consulted w bars source context) := by
  have hbegun := h.fits.busy hbusy
  obtain ⟨haside, -⟩ := compute_of_consultation w bars y.startedAt hbegun hconsults
  refine h.fits.trans ⟨haside.keeps.frame, fun hb => ?_⟩
  obtain ⟨_, after, performance, told, -, hmarket, hsource, -⟩ := consultation?_eq_some hconsults
  have hasked := hb.askMarket w bars
  have hbusy' := (Aside.askMarket w bars hbegun).busy hbegun
  rw [hmarket] at hasked hbusy'
  have hkept :=
    (hasked.askPerformance w).keepSource hsource (Learns.askPerformance w hbusy') context
  simp only [consulted, hmarket]
  exact hkept.logAll _

/-- Whoever is called back in a cycle finds the frame of the controller, and a source that matches
the mode. -/
theorem CallsBack.fits (h : CallsBack w c d) (hbusy : c.Busy) : Fits c d := by
  cases h with
  | market hb => exact hb.fits.trans ⟨rfl, id⟩
  | @performance y bars b after market hb hmarket =>
    have hbegun := hb.fits.busy hbusy
    have hasked : Fits b (b.askMarket w bars).2 :=
      ⟨(Aside.askMarket w bars hbegun).keeps.frame, fun h => h.askMarket w bars⟩
    rw [hmarket] at hasked
    exact (hb.fits.trans hasked).trans ⟨rfl, id⟩
  | @clamp y bars b _ source context entries event hb hconsults hquoted =>
    have hlogged :
        Fits (b.consulted w bars source context)
          ((b.consulted w bars source context).logAll entries) :=
      ⟨(Aside.logAll entries _).keeps.frame, fun h => h.logAll entries⟩
    subst hquoted
    exact ((hb.fits_consulted hbusy hconsults).trans hlogged).trans ⟨rfl, id⟩
  | publish hb hcomputed hreplaced =>
    have hfits := hb.fits_compute hbusy w
    rw [hcomputed] at hfits
    subst hreplaced
    exact hfits.trans ⟨rfl, id⟩
  | failure f hthrown hfailed =>
    subst hfailed
    exact (hthrown.fits hbusy).trans ⟨rfl, id⟩

omit [Numeric α] in
/-- A cycle calls back only when it goes on. -/
theorem CallsBack.goesOn (h : CallsBack w c d) : ∃ y fetched, GoesOn c y fetched := by
  cases h with
  | market hb | performance hb | clamp _ hb | publish hb => exact ⟨_, _, hb.toGoesOn⟩
  | failure f hthrown =>
    cases hthrown with
    | fetching hgoes => exact ⟨_, _, hgoes⟩
    | computing hb | publishing hb => exact ⟨_, _, hb.toGoesOn⟩

/-- What holds at every moment: the configuration is the one that the controller was created with,
and the source in place is of the kind that the mode asks for. -/
theorem Moment.spec {config : Config α} {c₀ : Controller α} (hcreate : create config = .ok c₀)
    (h : Moment w c₀ d) : d.config = config ∧ Matches d := by
  have hconfig (events : List (Event α)) : (c₀.run w events).config = config := by
    obtain ⟨asked, hlearns⟩ := learns_run (.create hcreate) w events
    obtain ⟨pricing, source, rfl⟩ := create_spec hcreate
    exact hlearns.config
  cases h with
  | between events => exact ⟨hconfig events, matches_run hcreate w events⟩
  | within events h done =>
    have horderly : (c₀.run w events).Orderly fun _ _ => True :=
      orderly_run hcreate (fun _ _ _ => trivial) (fun _ _ _ => trivial)
    obtain ⟨y, fetched, hgoes⟩ := h.goesOn
    have hbusy := (horderly.busy hgoes.cycle hgoes.fetched).2
    have hfits := h.fits hbusy
    have hfound := (congrArg Controller.config hfits.frame :)
    have hperformed := (Aside.performAll w done (hfits.busy hbusy)).config
    exact ⟨(hperformed.trans hfound).trans (hconfig events),
      (hfits.kind (matches_run hcreate w events)).performAll w done⟩

/-! ## Switching -/

omit [NumberText α] [Numeric α] in
/-- A configuration that holds together does so in another mode exactly when its risk factor fits
that mode. -/
theorem check_mode {config : Config α} (h : config.check = .ok ()) (mode : Mode) :
    ({ config with mode := .known mode } : Config α).check = .ok () ↔
      mode = .fixed ∨ config.riskFactorWithin = true := by
  obtain ⟨hrisk, hfill, hstop, hbounds, -⟩ := Config.check_eq_ok_iff.mp h
  have hmode : (Choice.known mode : Choice Mode α).is .fixed = true ↔ mode = .fixed := by
    simp [Choice.is]
  rw [Config.check_eq_ok_iff, ← hmode]
  exact ⟨fun hall => hall.2.2.2.2, fun hfits => ⟨hrisk, hfill, hstop, hbounds, hfits⟩⟩

omit [Numeric α] in
/-- A mode is taken when the risk factor fits it and its source can be built. -/
theorem setMode_ok_iff (hcheck : d.config.check = .ok ()) (mode : Mode) :
    (d.switched (.known mode)).1 = .ok () ↔
      (mode = .fixed ∨ d.config.riskFactorWithin = true) ∧
        ∃ source, Gamma.Source.create (.known mode) (sourceSettings d.config) = .ok source := by
  have hset : (d.switched (.known mode)).1 = .ok () ↔
      ∃ after, d.setMode (.known mode) = .ok after := by
    unfold Controller.switched
    cases d.setMode (.known mode) <;> simp
  rw [hset, ← check_mode hcheck]
  constructor
  · rintro ⟨after, h⟩
    obtain ⟨valid, hvalid, h⟩ := Guards.bind_eq_ok.mp h
    obtain ⟨source, hsource, -⟩ := Guards.bind_eq_ok.mp h
    obtain ⟨_, hchecked, -⟩ := Guards.bind_eq_ok.mp (Guards.mapError_eq_ok.mp hvalid)
    exact ⟨hchecked, source, Guards.mapError_eq_ok.mp hsource⟩
  · rintro ⟨hchecked, source, hsource⟩
    refine ⟨_, Guards.bind_eq_ok.mpr ⟨{ d.config with mode := .known mode }, ?_,
      Guards.bind_eq_ok.mpr ⟨source, Guards.mapError_eq_ok.mpr hsource, rfl⟩⟩⟩
    exact Guards.mapError_eq_ok.mpr (Guards.bind_eq_ok.mpr ⟨(), hchecked, rfl⟩)

/-- **Switching is one step.** At every moment of a created controller, also while a cycle that uses
the source has called back, a switch to any mode either is refused and nothing at all has changed;
or it puts that mode in place with the fresh source that the unchanged configuration builds for it,
whose learner has learnt nothing, and nothing else has changed but what was logged. It is taken
exactly when the risk factor fits the mode and the source can be built.

And at every moment there is no source exactly in the mode without risk aversion, or in what is no
mode, and a source in place is of the kind that the mode asks for. -/
theorem setMode_atomic {config : Config α} {c₀ : Controller α} (hcreate : create config = .ok c₀)
    (w : Surroundings α) (hmoment : Moment w c₀ d) (mode : Mode) :
    d.config = config ∧
    (∀ f, (d.switched (.known mode)).1 = .error f → (d.switched (.known mode)).2 = d) ∧
    ((d.switched (.known mode)).1 = .ok () → (d.switched (.known mode)).2 =
      ({ d with
        mode := .known mode
        source := freshSource (sourceSettings config) mode
        switches := d.switches + 1 } : Controller α).log .info "Parameter mode switched"
          [("mode", .string mode.name)]) ∧
    ((d.switched (.known mode)).1 = .ok () ↔
      (mode = .fixed ∨ config.riskFactorWithin = true) ∧
        ∃ source, Gamma.Source.create (.known mode) (sourceSettings config) = .ok source) ∧
    (d.source = none ↔ ∀ m, d.mode = .known m → m = .autoOptimize) ∧
    ∀ source, d.source = some source → d.mode = .known source.mode := by
  obtain ⟨hconfig, hmatches⟩ := hmoment.spec hcreate
  obtain ⟨hcheck, -⟩ := check_of_create hcreate
  have hkind : d.source.map (·.mode) = gammaMode? d.mode := hmatches
  subst hconfig
  refine ⟨rfl, fun f hf => ?_, fun hok => ?_, setMode_ok_iff hcheck mode, ?_,
    fun source hsource => ?_⟩
  · unfold Controller.switched at hf ⊢
    cases hset : d.setMode (.known mode) with
    | ok after =>
      rw [hset] at hf
      cases hf
    | error g => rfl
  · unfold Controller.switched at hok ⊢
    cases hset : d.setMode (.known mode) with
    | error g =>
      rw [hset] at hok
      cases hok
    | ok after =>
      obtain ⟨source, hsource, rfl⟩ := setMode_eq_ok hset
      obtain rfl := eq_freshSource hsource
      rfl
  · rw [← Option.map_eq_none_iff, hkind]
    cases hmode : d.mode with
    | given v => exact iff_of_true rfl nofun
    | known m => cases m <;> simp [gammaMode?]
  · rw [hsource] at hkind
    cases hmode : d.mode with
    | given v =>
      rw [hmode] at hkind
      cases hkind
    | known m =>
      rw [hmode] at hkind
      cases m <;> simp_all [gammaMode?]

/-- Whoever is asked for the performance in the middle of a cycle switches from the constant to the
rules. -/
theorem setMode_atomic_switching :
    let w := switching .ruleAdaptive
    create fixedConfig = .ok fixedSample ∧ ∃ d, Moment w fixedSample d ∧ d.phase = .computing ∧
      (d.switched (.known .ruleAdaptive)).1 = .ok () ∧
      (d.switched (.known .ruleAdaptive)).2.source =
        freshSource (sourceSettings fixedConfig) .ruleAdaptive ∧
      (d.switched (.known .ruleAdaptive)).2.cycle = d.cycle := by
  intro w
  obtain ⟨y, context, hcomputes, hconsults, -⟩ := switching_spec .ruleAdaptive
  obtain ⟨estimate, after, performance, told, -, hmarket, -⟩ := consultation?_eq_some hconsults
  have horderly : (fixedSample.run w [.refresh 1, .make, .deliver]).Orderly fun _ _ => True :=
    orderly_run create_fixedSample (fun _ _ _ => trivial) (fun _ _ _ => trivial)
  have hbusy := hcomputes.prepares.keeps.busy (horderly.busy hcomputes.cycle hcomputes.fetched).2
  have hasked := Aside.askMarket w sampleBars hbusy
  rw [hmarket] at hasked
  have hmoment := Moment.within [.refresh 1, .make, .deliver] (.performance hcomputes hmarket) []
  obtain ⟨hconfig, -, htaken, hiff, -⟩ := setMode_atomic create_fixedSample w hmoment .ruleAdaptive
  have hwithin : fixedConfig.riskFactorWithin = true := by decide +kernel
  have hok := hiff.mpr ⟨.inr hwithin, _, rfl⟩
  refine ⟨create_fixedSample, _, hmoment, hasked.phase, hok, ?_, ?_⟩
  · rw [htaken hok]
    rfl
  · rw [htaken hok]
    rfl

end MarketMaker.Refresh.Controller
