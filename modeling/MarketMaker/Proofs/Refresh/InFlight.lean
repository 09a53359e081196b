import MarketMaker.Proofs.Refresh.Runs

/-!
# What holds of the request in flight

A few steps only reach the request of the cycle in flight: it begins, its call is made and answered,
its deadline passes, its answer arrives, and a stop cancels it. A property that none of them takes
away is **lasting**. It may depend on whether the controller is stopped, so being stopped is a step
of its own: a cycle that runs may stop its controller and leave its request as it is.

A lasting property holds of the request in flight throughout a run (`Lasting.run`).
-/

namespace MarketMaker.Refresh

variable {α : Type} [NumberText α]

/-- A property of the request in flight, of a controller that is stopped or not, that no step takes
away. -/
structure Lasting (P : Bool → Request α (List (Bar α)) → Prop) : Prop where
  /-- A request that has just begun has it. -/
  begun (stopped : Bool) : P stopped .begun
  /-- A stop does not take it away. -/
  stop {stopped : Bool} {r : Request α (List (Bar α))} (h : P stopped r) : P true r
  /-- After a stop, the request is cancelled. -/
  cancel {r : Request α (List (Bar α))} (h : P true r) : P true r.cancel
  /-- The call is made. -/
  make {stopped : Bool} {r : Request α (List (Bar α))} (h : P stopped r) : P stopped r.make
  /-- The call is answered. -/
  answer {stopped : Bool} {r : Request α (List (Bar α))} (h : P stopped r)
    (a : Except (Failure α) (List (Bar α))) : P stopped (r.answer a)
  /-- The deadline passes. -/
  timeOut {stopped : Bool} {r : Request α (List (Bar α))} (h : P stopped r) (milliseconds : α) :
    P stopped (r.timeOut milliseconds)
  /-- The answer arrives. -/
  receive {stopped : Bool} {r : Request α (List (Bar α))} (h : P stopped r) : P stopped r.receive
  /-- The request no longer listens. -/
  detach {stopped : Bool} {r : Request α (List (Bar α))} (h : P stopped r) : P stopped r.detach

namespace Controller

variable {P : Bool → Request α (List (Bar α)) → Prop} {c d : Controller α}

/-- A controller whose request in flight has the property. -/
def InFlight (P : Bool → Request α (List (Bar α)) → Prop) (c : Controller α) : Prop :=
  ∀ y, c.cycle = some y → P c.stopped y.request

namespace InFlight

omit [NumberText α] in
theorem onRequest {f : Request α (List (Bar α)) → Request α (List (Bar α))} (h : c.InFlight P)
    (hf : ∀ r, P c.stopped r → P c.stopped (f r)) : (c.onRequest f).InFlight P := by
  cases hcycle : c.cycle with
  | none => rwa [onRequest_of_none hcycle]
  | some y =>
    obtain ⟨said, heq, -⟩ := onRequest_of_some (f := f) hcycle
    rw [heq]
    rintro z hz
    obtain rfl := Option.some.inj hz
    exact hf _ (h y hcycle)

variable (hP : Lasting P)
include hP

/-- A request that stays in flight as it is. -/
theorem of_cycle (h : c.InFlight P) (hstopped : c.stopped = true → d.stopped = true)
    (hcycle : ∀ z, d.cycle = some z → ∃ y, c.cycle = some y ∧ z.request = y.request) :
    d.InFlight P := by
  intro z hz
  obtain ⟨y, hy, hrequest⟩ := hcycle z hz
  rw [hrequest]
  cases hd : d.stopped with
  | true => exact hP.stop (h y hy)
  | false =>
    cases hc : c.stopped with
    | false => exact hc ▸ h y hy
    | true => cases (hstopped hc).symm.trans hd

theorem close (h : c.InFlight P) :
    (c.onRequest fun r => if r.isOpen then r else r.detach).InFlight P := by
  refine h.onRequest fun r hr => ?_
  split
  · exact hr
  · exact hP.detach hr

theorem halt (h : c.InFlight P) : c.halt.InFlight P :=
  onRequest (c := { c with stopped := true, stopping := c.stopping + 1 })
    (fun y hy => hP.stop (h y hy)) fun _ hr => hP.cancel hr

theorem settling (w : Surroundings α) {f : Request α (List (Bar α)) → Request α (List (Bar α))}
    (h : c.InFlight P) (hf : ∀ r, P c.stopped r → P c.stopped (f r)) :
    (c.settling w f).InFlight P := by
  rcases settling_cases w f c with heq | heq
  · rw [heq]
    exact h.onRequest hf
  · rw [heq]
    exact (h.onRequest hf).halt hP

theorem stop (h : c.InFlight P) (w : Surroundings α) : (c.stop w).InFlight P := by
  rcases stop_cases w c with heq | heq
  · rw [heq]
    exact h.halt hP
  · rw [heq]
    exact (h.halt hP).halt hP

theorem answer (h : c.InFlight P) (call : Nat) (a : Except (Failure α) (List (Bar α))) :
    (c.answer call a).InFlight P := by
  unfold Controller.answer
  split
  · split
    · exact h.onRequest fun _ hr => hP.answer hr a
    · exact h
  · exact h

theorem expire (h : c.InFlight P) (w : Surroundings α) : (c.expire w).InFlight P :=
  (h.settling hP w fun _ hr => hP.timeOut hr _).close hP

theorem make (h : c.InFlight P) (w : Surroundings α) : (c.make w).InFlight P := by
  rcases make_cases w c with heq | ⟨y, hy, hdue⟩
  · rwa [heq]
  · have hmade := hP.make (h y hy)
    simp only [Controller.make, hy, hdue]
    rintro z hz
    obtain rfl := Option.some.inj hz
    dsimp only
    split
    · exact hP.answer hmade _
    · exact hmade

theorem deliver (h : c.InFlight P) (w : Surroundings α) : (c.deliver w).InFlight P := by
  have hclosed := (h.settling hP w fun _ hr => hP.receive hr).close hP
  unfold Controller.deliver
  dsimp only
  split
  · exact hclosed
  · exact hclosed

theorem release (h : c.InFlight P) : c.release.InFlight P := by
  have hwaits : Waits (fun _ _ => True) c c.release := .release c
  have hcycle : c.release.cycle = c.cycle := by
    unfold Controller.release
    split
    · rfl
    · exact (Aside.logAll _ _).cycle
  exact h.of_cycle hP hwaits.stopped fun z hz => ⟨z, hcycle ▸ hz, rfl⟩

variable [Scalar α] [Numeric α]

theorem start (ticked : Bool) (now : α) (c : Controller α) : (c.start ticked now).InFlight P := by
  rw [start_eq]
  rintro z hz
  obtain rfl := Option.some.inj hz
  exact hP.begun _

/-- Every event leaves the property to the request in flight. -/
theorem step (h : c.InFlight P) (horderly : c.Orderly fun _ _ => True) (w : Surroundings α)
    (event : Event α) : (c.step w event).InFlight P := by
  cases event with
  | tick now =>
    simp only [Controller.step, ticked]
    cases ht : c.tick now with
    | error f => exact h
    | ok after =>
      rcases tick_cases ht with rfl | ⟨rfl, -⟩
      · exact h
      · exact .start hP true now c
  | refresh now =>
    simp only [Controller.step, refresh]
    cases c.cycle with
    | some y => exact h
    | none =>
      dsimp only
      split
      · exact h
      · exact .start hP false now c
  | stop => exact h.stop hP w
  | setMode mode =>
    have haside := Aside.switched mode c
    exact h.of_cycle hP haside.stopped fun z hz => ⟨z, haside.cycle ▸ hz, rfl⟩
  | answer call a => exact h.answer hP call a
  | expire => exact h.expire hP w
  | make => exact h.make hP w
  | deliver => exact h.deliver hP w
  | resume =>
    simp only [Controller.step]
    rcases resume_cases w c with heq | ⟨y, fetched, hy, hrunning, hcalled, hfetched⟩
    · rwa [heq]
    · -- The cycle runs to its end with its request left alone.
      obtain ⟨outcome, after, -, hconcludes, heq⟩ :=
        horderly.resume_spec w hy hrunning hcalled hfetched
      rw [heq]
      refine h.of_cycle hP hconcludes.keeps.stopped fun z hz => ⟨y, hy, ?_⟩
      obtain rfl := Option.some.inj hz
      rfl
  | clear =>
    simp only [Controller.step]
    rcases clear_cases c with heq | ⟨y, outcome, hy, hended⟩
    · rwa [heq]
    · intro z hz
      cases (clear_spec hy hended).2.1.symm.trans hz
  | release => exact h.release hP

end InFlight

end Controller

/-- **Throughout a run, the request in flight has a lasting property.** -/
theorem Lasting.run [Scalar α] [Numeric α] {P : Bool → Request α (List (Bar α)) → Prop}
    (hP : Lasting P) {config : Config α} {c₀ : Controller α}
    (hcreate : Controller.create config = .ok c₀) (w : Surroundings α) (events : List (Event α)) :
    (c₀.run w events).InFlight P := by
  have hholds := Controller.run_invariant (fun d => d.Orderly (fun _ _ => True) ∧ d.InFlight P)
    w events (fun d hd event _ => ⟨hd.1.event w event, hd.2.step hP hd.1 w event⟩) (c := c₀)
    ⟨.create hcreate, ?_⟩
  · exact hholds.2
  · obtain ⟨pricing, source, rfl⟩ := Controller.create_spec hcreate
    rintro y hy
    cases hy

end MarketMaker.Refresh
