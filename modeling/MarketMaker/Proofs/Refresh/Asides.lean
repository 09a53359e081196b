import MarketMaker.Refresh.Cycle

/-!
# What callbacks may do

While a cycle is computing or publishing it asks the market and the performance and tells the
listeners. Each of these callbacks may call back into the controller, and so may the next one.
`Aside c c'` says what is left of `c` after that:

* the **core** of the controller is the same: the configuration, the schedule, the published set,
  the phase and the cycle in flight;
* a controller that was stopped stays stopped;
* the trace has only grown, by **asides**: what callbacks were asked and what was logged;
* a callback that ticked was answered with the published set.

It holds of every operation between the beginning of a computation and its end, because a cycle in
flight whose request listens no more is out of reach for `stop`, and keeps `tick` and `refresh` from
starting another one. Only the mode, the source of risk aversion and how often the market, the
performance and the listener of spreads below the floor were called are open to callbacks.
-/

namespace MarketMaker.Refresh

variable {α : Type}

/-- Whether something seen is no step of a cycle but said or asked in passing. -/
def Occurrence.isAside : Occurrence α → Bool
  | .marketAsked _ | .performanceAsked | .clamped _ | .reentered _ | .logged _ => true
  | _ => false

/-- What is seen of the published set. -/
inductive Sight (α : Type) where
  /-- The listener is told of a set, with the record of what changed. -/
  | announced (record : ChangeRecord α) (parameters : Parameters α)
  /-- A callback that ticks is answered. -/
  | answered (published : Option (Parameters α))

/-- What an occurrence shows of the published set. -/
def Occurrence.sight? : Occurrence α → Option (Sight α)
  | .published record parameters => some (.announced record parameters)
  | .reentered (.ticked answer) => some (.answered answer)
  | _ => none

namespace Controller

/-- All that was seen of the published set. -/
def sights (c : Controller α) : List (Sight α) := c.trace.filterMap fun e => e.2.sight?

@[simp] theorem sights_note (o : Occurrence α) (c : Controller α) :
    (c.note o).sights = c.sights ++ o.sight?.toList := by
  cases h : o.sight? <;> simp [sights, note, h]

@[simp] theorem sights_log (level : Log.Level) (message : String)
    (context : List (String × Value α)) (c : Controller α) :
    (c.log level message context).sights = c.sights := by
  rw [log, sights_note]
  exact List.append_nil _

/-- A controller without what callbacks may change. -/
def core (c : Controller α) : Controller α :=
  { c with
    mode := .given .undefined
    source := none
    switches := 0
    stopped := false
    stopping := 0
    calls := { c.calls with market := 0, performance := 0, clamp := 0 }
    trace := [] }

/-- A controller with a cycle in flight whose request no longer listens to `stop`. -/
def Busy (c : Controller α) : Prop := ∃ y, c.cycle = some y ∧ y.request.listening = false

theorem Busy.of_core_eq {c c' : Controller α} (h : c.Busy) (hcore : c'.core = c.core) :
    c'.Busy := by
  have hcycle : c'.cycle = c.cycle := (congrArg Controller.cycle hcore :)
  obtain ⟨y, hy, hdeaf⟩ := h
  exact ⟨y, hcycle.trans hy, hdeaf⟩

/-- What is left of a controller after callbacks. -/
structure Aside (c c' : Controller α) : Prop where
  /-- What no callback can change is as it was. -/
  core : c'.core = c.core
  /-- A stop is not taken back. -/
  stopped : c.stopped = true → c'.stopped = true
  /-- What was done is said in the phase that the controller is in, as an aside. -/
  trace : ∃ said, c'.trace = c.trace ++ said ∧ ∀ e ∈ said, e.1 = c.phase ∧ e.2.isAside = true
  /-- Whatever callbacks were answered, they were answered with the published set. -/
  answers : ∃ n, c'.sights = c.sights ++ List.replicate n (.answered c.published)

namespace Aside

variable {c c' c'' : Controller α}

theorem phase (h : Aside c c') : c'.phase = c.phase := (congrArg Controller.phase h.core :)

theorem config (h : Aside c c') : c'.config = c.config := (congrArg Controller.config h.core :)

theorem cycle (h : Aside c c') : c'.cycle = c.cycle := (congrArg Controller.cycle h.core :)

theorem schedule (h : Aside c c') : c'.schedule = c.schedule :=
  (congrArg Controller.schedule h.core :)

theorem published (h : Aside c c') : c'.published = c.published :=
  (congrArg Controller.published h.core :)

theorem busy (h : Aside c c') (hbusy : c.Busy) : c'.Busy := hbusy.of_core_eq h.core

theorem refl (c : Controller α) : Aside c c :=
  ⟨rfl, id, ⟨[], by simp, by simp⟩, 0, by simp⟩

theorem trans (h₁ : Aside c c') (h₂ : Aside c' c'') : Aside c c'' := by
  obtain ⟨said₁, htrace₁, hsaid₁⟩ := h₁.trace
  obtain ⟨said₂, htrace₂, hsaid₂⟩ := h₂.trace
  obtain ⟨n₁, hanswers₁⟩ := h₁.answers
  obtain ⟨n₂, hanswers₂⟩ := h₂.answers
  refine ⟨h₂.core.trans h₁.core, fun h => h₂.stopped (h₁.stopped h), ⟨said₁ ++ said₂, ?_, ?_⟩,
    n₁ + n₂, ?_⟩
  · rw [htrace₂, htrace₁, List.append_assoc]
  · intro e he
    rcases List.mem_append.mp he with he | he
    · exact hsaid₁ e he
    · exact ⟨(hsaid₂ e he).1.trans h₁.phase, (hsaid₂ e he).2⟩
  · rw [hanswers₂, hanswers₁, h₁.published, List.append_assoc, List.replicate_append_replicate]

/-- A change that says nothing. -/
theorem of_silent (hcore : c'.core = c.core) (hstopped : c.stopped = true → c'.stopped = true)
    (htrace : c'.trace = c.trace) : Aside c c' := by
  refine ⟨hcore, hstopped, ⟨[], by rw [htrace, List.append_nil], by simp⟩, 0, ?_⟩
  rw [sights, htrace]
  exact (List.append_nil _).symm

/-- Something said in passing, which is no answer but one with the published set. -/
theorem note (c : Controller α) (o : Occurrence α) (ho : o.isAside = true)
    (hsight : ∃ n, o.sight?.toList = List.replicate n (.answered c.published)) :
    Aside c (c.note o) := by
  obtain ⟨n, hn⟩ := hsight
  refine ⟨rfl, id, ⟨[(c.phase, o)], rfl, ?_⟩, n, by rw [sights_note, hn]⟩
  intro e he
  obtain rfl := List.mem_singleton.mp he
  exact ⟨rfl, ho⟩

theorem log (level : Log.Level) (message : String) (context : List (String × Value α))
    (c : Controller α) : Aside c (c.log level message context) :=
  note c _ rfl ⟨0, rfl⟩

theorem logAll (entries : List (Log.Entry α)) (c : Controller α) : Aside c (c.logAll entries) := by
  induction entries generalizing c with
  | nil => exact refl c
  | cons e rest ih => exact (note c (.logged e) rfl ⟨0, rfl⟩).trans (ih (c.note (.logged e)))

end Aside

/-! ## Calls into a busy controller -/

/-- A change of the request in flight that does not change it. -/
theorem onRequest_eq_self {f : Request α (List (Bar α)) → Request α (List (Bar α))}
    {c : Controller α} (h : ∀ y, c.cycle = some y → f y.request = y.request) :
    c.onRequest f = c := by
  unfold onRequest
  cases hcycle : c.cycle with
  | none => rfl
  | some y =>
    have hsame : ({ c with cycle := some y } : Controller α) = c := by rw [← hcycle]
    simp only [h y hcycle, hsame, Bool.and_not_self, Bool.false_eq_true, if_false]
    split <;> rfl

theorem onRequest_cancel_of_busy {c : Controller α} (h : c.Busy) : c.onRequest .cancel = c := by
  apply onRequest_eq_self
  intro y hy
  obtain ⟨z, hz, hdeaf⟩ := h
  obtain rfl : y = z := Option.some.inj (hy.symm.trans hz)
  simp [Request.cancel, hdeaf]

/-- Stopping a busy controller only marks it. -/
theorem stop_of_busy (w : Surroundings α) {c : Controller α} (h : c.Busy) :
    c.stop w = { c with stopped := true, stopping := c.stopping + 1 } := by
  have hmarked : ({ c with stopped := true, stopping := c.stopping + 1 } : Controller α).Busy := h
  unfold stop settling
  rw [onRequest_cancel_of_busy hmarked]
  dsimp only
  split
  · next hopen hsettled => rw [hopen] at hsettled; cases hsettled
  · rfl

theorem Aside.stop (w : Surroundings α) {c : Controller α} (h : c.Busy) : Aside c (c.stop w) := by
  rw [stop_of_busy w h]
  exact .of_silent rfl (fun _ => rfl) rfl

variable [Scalar α] [NumberText α]

/-- A mode that is taken replaces the source by a fresh one and nothing else, and is logged. -/
theorem setMode_eq_ok {mode : Choice Mode α} {c after : Controller α}
    (h : c.setMode mode = .ok after) :
    ∃ source, Gamma.Source.create mode (sourceSettings c.config) = .ok source ∧
      after = ({ c with source := source, mode := mode, switches := c.switches + 1 } :
        Controller α).log .info "Parameter mode switched" [("mode", mode.value)] := by
  unfold setMode at h
  cases hvalid : (Config.validate { c.config with mode }).mapError (·.failure) with
  | error e => rw [hvalid] at h; cases h
  | ok config =>
    cases hsource : Gamma.Source.create mode (sourceSettings c.config) with
    | error e => rw [hvalid, hsource] at h; cases h
    | ok source =>
      rw [hvalid, hsource] at h
      exact ⟨source, rfl, (Except.ok.inj h).symm⟩

theorem Aside.switched (mode : Choice Mode α) (c : Controller α) : Aside c (c.switched mode).2 := by
  unfold Controller.switched
  cases hset : c.setMode mode with
  | error e => exact .refl c
  | ok after =>
    obtain ⟨source, -, rfl⟩ := setMode_eq_ok hset
    have hreplaced :
        Aside c { c with source := source, mode := mode, switches := c.switches + 1 } :=
      .of_silent rfl id rfl
    exact hreplaced.trans (.log _ _ _ _)

/-- A tick never starts a cycle while one is in flight. -/
theorem eq_of_tick_of_busy {now : α} {c c' : Controller α} (h : c.cycle.isSome = true)
    (ht : c.tick now = .ok c') : c' = c := by
  unfold tick isDue at ht
  cases hlast : checkUsable (c.schedule.lastUpdate.elim [] fun last => [now, last]) with
  | error f => simp [hlast, bind, Except.bind, Except.map] at ht
  | ok _ =>
    simp [hlast, h, bind, Except.bind, Except.map, pure, Except.pure] at ht
    exact ht.symm

omit [Scalar α] in
/-- A refresh joins the cycle in flight. -/
theorem refresh_of_busy {now : α} {c : Controller α} {y : Cycle α} (h : c.cycle = some y) :
    c.refresh now = (.cycle y.number, c) := by
  simp [refresh, h]

/-- Whatever a callback does to a busy controller is an aside. -/
theorem Aside.perform (w : Surroundings α) {c : Controller α} (h : c.Busy) (a : Action α) :
    Aside c (c.perform w a).2 := by
  cases a with
  | stop => exact .stop w h
  | setMode mode => exact (Aside.switched mode c).trans (.note _ _ rfl ⟨0, rfl⟩)
  | tick now =>
    obtain ⟨y, hy, -⟩ := h
    cases ht : c.tick now with
    | error f => simpa only [Controller.perform, ht] using Aside.refl c
    | ok after =>
      obtain rfl := eq_of_tick_of_busy (by rw [hy]; rfl) ht
      simpa only [Controller.perform, ht] using Aside.note after _ rfl ⟨1, rfl⟩
  | refresh now =>
    obtain ⟨y, hy, -⟩ := h
    simpa only [Controller.perform, refresh_of_busy hy] using Aside.refl c

theorem Aside.performAll (w : Surroundings α) (actions : List (Action α)) {c : Controller α}
    (h : c.Busy) : Aside c (c.performAll w actions).2 := by
  induction actions generalizing c with
  | nil => exact .refl c
  | cons a rest ih =>
    have hfirst := Aside.perform w h a
    unfold Controller.performAll
    rcases hp : c.perform w a with ⟨result, after⟩
    rw [hp] at hfirst
    cases result with
    -- A call that throws is the last one.
    | error f => exact hfirst
    | ok _ => exact hfirst.trans (ih (hfirst.busy h))

theorem Aside.react {β : Type} (w : Surroundings α) (r : Reaction α β) {c : Controller α}
    (h : c.Busy) : Aside c (c.react w r).2 :=
  Aside.performAll w r.actions h

omit [Scalar α] in
/-- There is one failure for want of words. -/
theorem eq_textless_of_toError {f e : Failure α} (h : f.toError = .error e) : e = .textless := by
  unfold Failure.toError at h
  split at h
  · exact (Except.error.inj h).symm
  · split at h <;> cases h

/-- To tell a listener is to call it. What it throws is one line of the log more, and goes no
further, unless there are no words for it. -/
theorem tell_cases (w : Surroundings α) (r : Reaction α Unit) (c : Controller α) :
    c.tell w r = (.ok (), (c.react w r).2) ∨
      c.tell w r = (.error .textless, (c.react w r).2) ∨
      ∃ entry, c.tell w r = (.ok (), (c.react w r).2.note (.logged entry)) := by
  unfold Controller.tell
  rcases c.react w r with ⟨result, after⟩
  cases result with
  | ok _ => exact .inl rfl
  | error f =>
    dsimp only
    split
    · exact .inr (.inr ⟨_, rfl⟩)
    · next e he =>
      obtain rfl := eq_textless_of_toError he
      exact .inr (.inl rfl)

theorem Aside.tell (w : Surroundings α) (r : Reaction α Unit) {c : Controller α} (h : c.Busy) :
    Aside c (c.tell w r).2 := by
  have hreact := Aside.react w r h
  rcases tell_cases w r c with heq | heq | ⟨entry, heq⟩ <;> rw [heq]
  · exact hreact
  · exact hreact
  · exact hreact.trans (.note _ _ rfl ⟨0, rfl⟩)

/-! ## The stages of a computation -/

theorem Aside.askMarket (w : Surroundings α) (bars : List (Bar α)) {c : Controller α} (h : c.Busy) :
    Aside c (c.askMarket w bars).2 := by
  have hcounted : Aside c { c with calls := { c.calls with market := c.calls.market + 1 } } :=
    .of_silent rfl id rfl
  have hasked := hcounted.trans (.note _ (.marketAsked bars.length) rfl ⟨0, rfl⟩)
  exact hasked.trans (.react w _ (hasked.busy h))

theorem Aside.askPerformance (w : Surroundings α) {c : Controller α} (h : c.Busy) :
    Aside c (c.askPerformance w).2 := by
  unfold Controller.askPerformance
  cases w.performance with
  | none => exact .refl c
  | some ask =>
    have hcounted :
        Aside c { c with calls := { c.calls with performance := c.calls.performance + 1 } } :=
      .of_silent rfl id rfl
    have hasked := hcounted.trans (.note _ .performanceAsked rfl ⟨0, rfl⟩)
    exact hasked.trans (.react w _ (hasked.busy h))

theorem Aside.tellClamp (w : Surroundings α) (e : Pricing.FloorClamp α) {c : Controller α}
    (h : c.Busy) : Aside c (c.tellClamp w e).2 := by
  unfold Controller.tellClamp
  cases w.listeners with
  | none => exact .refl c
  | some l =>
    have hcounted : Aside c { c with calls := { c.calls with clamp := c.calls.clamp + 1 } } :=
      .of_silent rfl id rfl
    have hasked := hcounted.trans (.note _ (.clamped e) rfl ⟨0, rfl⟩)
    exact hasked.trans (.tell w _ (hasked.busy h))

omit [Scalar α] [NumberText α] in
theorem Aside.keepSource (switches : Nat) (source : Gamma.Source α) (c : Controller α) :
    Aside c (c.keepSource switches source) := by
  unfold Controller.keepSource
  split
  · exact .of_silent rfl id rfl
  · exact .refl c

theorem Aside.price (w : Surroundings α) (estimate : Volatility.Estimate α) (market : Market α)
    (now gamma : α) {c : Controller α} (h : c.Busy) :
    Aside c (c.price w estimate market now gamma).2 := by
  unfold Controller.price
  dsimp only
  split
  · exact .refl c
  · next quote hquote =>
    have hlogged := Aside.logAll
      (Pricing.logOf ⟨market, gamma, estimate.value, c.config.timeHorizonSeconds⟩ quote) c
    cases hclamp : quote.floorClamp with
    | none => exact hlogged
    | some e => exact hlogged.trans (.tellClamp w e (hlogged.busy h))

theorem Aside.computeWith (w : Surroundings α) (source : Gamma.Source α)
    (estimate : Volatility.Estimate α) (market : Market α) (now : α) {c : Controller α}
    (h : c.Busy) : Aside c (c.computeWith w source estimate market now).2 := by
  have hasked := Aside.askPerformance w h
  unfold Controller.computeWith
  rcases hp : c.askPerformance w with ⟨result, after⟩
  rw [hp] at hasked
  cases result with
  | error f => exact hasked
  | ok performance =>
    dsimp only
    split
    · generalize source.resolve _ = answer
      obtain ⟨gamma, resolved, lines⟩ := answer
      have hkept := hasked.trans (.keepSource c.switches resolved after)
      have hlogged := hkept.trans (.logAll lines _)
      exact hlogged.trans (.price w estimate market now gamma (hlogged.busy h))
    · exact hasked

/-- A computation leaves the core of the controller as it is, whatever its callbacks do. -/
theorem Aside.compute (w : Surroundings α) (bars : List (Bar α)) (now : α) {c : Controller α}
    (h : c.Busy) : Aside c (c.compute w bars now).2 := by
  unfold Controller.compute
  cases Volatility.estimate bars c.config.volatilityInterval now with
  | error f => exact .refl c
  | ok estimate =>
    have hasked := Aside.askMarket w bars h
    rcases hm : c.askMarket w bars with ⟨result, after⟩
    rw [hm] at hasked
    cases result with
    | error f => exact hasked
    | ok market =>
      dsimp only
      cases after.source with
      | none => exact hasked
      | some source =>
        exact hasked.trans (.computeWith w source estimate market now (hasked.busy h))

end Controller

end MarketMaker.Refresh
