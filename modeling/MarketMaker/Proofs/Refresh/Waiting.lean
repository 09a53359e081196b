import MarketMaker.Proofs.Refresh.Asides
import MarketMaker.Proofs.Refresh.Requests
import MarketMaker.Refresh.Run

/-!
# What happens while a cycle waits

Most events do not move a controller on. `stop`, `setMode`, a deadline, an answer and its arrival
only reach the request in flight, mark the controller as stopped, or replace its source of risk
aversion. `Waits c d` says that `d` is `c` after such an event:

* the **skeleton** of the controller is the same: the configuration, the schedule, the published
  set, the phase, all counts of calls and how many cycles were started;
* the cycle in flight is the same, and its request has passed to a later state;
* the trace has only grown, and nothing in it is a **milestone**: no call of the source of bars, and
  no end of a cycle.

An event may take several strides, and between them a settled request may still listen. A single
stride is a `Drift`; it keeps a controller **poised**, and an event as a whole keeps it **at rest**.
In both the request in flight of a stopped controller is settled.
-/

namespace MarketMaker.Refresh

variable {α : Type}

/-- A point that a cycle passes once. -/
inductive Milestone where
  /-- The source of bars is called. -/
  | called (call : Nat)
  /-- The cycle is put away. -/
  | over (cycle : Nat)
  deriving DecidableEq

/-- The milestone that something seen is. -/
def Occurrence.milestone? : Occurrence α → Option Milestone
  | .fetched call _ => some (.called call)
  | .ended cycle _ => some (.over cycle)
  | _ => none

theorem Occurrence.milestone?_of_isAside {o : Occurrence α} (h : o.isAside = true) :
    o.milestone? = none := by
  cases o <;> first | rfl | cases h

/-- What was given to the call of a cycle. -/
def Cycle.Given (given : Nat → Except (Failure α) (List (Bar α)) → Prop) (y : Cycle α)
    (a : Except (Failure α) (List (Bar α))) : Prop :=
  ∃ n, y.call = some n ∧ given n a

namespace Controller

/-- A controller without its cycle and what may change while that waits. -/
def skeleton (c : Controller α) : Controller α :=
  { c with
    mode := .given .undefined
    source := none
    switches := 0
    cycle := none
    stopped := false
    stopping := 0
    trace := [] }

variable {c : Controller α}

/-! ## Reaching the request in flight -/

theorem onRequest_of_none {f : Request α (List (Bar α)) → Request α (List (Bar α))}
    (h : c.cycle = none) : c.onRequest f = c := by
  simp [onRequest, h]

theorem onRequest_of_some {f : Request α (List (Bar α)) → Request α (List (Bar α))} {y : Cycle α}
    (h : c.cycle = some y) :
    ∃ said, c.onRequest f = { c with
        cycle := some { y with request := f y.request }
        trace := c.trace ++ said } ∧
      ∀ e ∈ said, e.1 = c.phase ∧ e.2.milestone? = none := by
  have hsilent : ({ c with cycle := some { y with request := f y.request } } : Controller α) =
      { c with cycle := some { y with request := f y.request }, trace := c.trace ++ [] } := by
    rw [List.append_nil]
  simp only [onRequest, h]
  split
  · next n hcall =>
    split
    · exact ⟨[(c.phase, .aborted n)], rfl, by simp [Occurrence.milestone?]⟩
    · exact ⟨[], hsilent, by simp⟩
  · exact ⟨[], hsilent, by simp⟩

/-- Settling the request in flight comes to a change of the request, and perhaps a halt after it. -/
theorem settling_cases (w : Surroundings α)
    (f : Request α (List (Bar α)) → Request α (List (Bar α))) (c : Controller α) :
    c.settling w f = c.onRequest f ∨ c.settling w f = (c.onRequest f).halt := by
  unfold settling
  dsimp only
  split
  · split
    · exact .inr rfl
    · exact .inl rfl
  · exact .inl rfl

/-- Stopping is halting, once or twice. -/
theorem stop_cases (w : Surroundings α) (c : Controller α) :
    c.stop w = c.halt ∨ c.stop w = c.halt.halt :=
  settling_cases w .cancel _

/-! ## Events that do not move a controller on -/

/-- A controller that may be in the middle of an event. -/
def Poised (c : Controller α) : Prop :=
  ∀ y, c.cycle = some y → y.request.Attentive ∧ (c.stopped = true → y.request.isOpen = false)

/-- A controller between two events. -/
def AtRest (c : Controller α) : Prop :=
  ∀ y, c.cycle = some y → y.request.Tidy ∧ (c.stopped = true → y.request.isOpen = false)

theorem AtRest.poised (h : c.AtRest) : c.Poised :=
  fun y hy => ⟨(h y hy).1.toAttentive, (h y hy).2⟩

variable [NumberText α]

/-- A stride of a waiting controller. -/
structure Drift (given : Nat → Except (Failure α) (List (Bar α)) → Prop)
    (c d : Controller α) : Prop where
  /-- What does not change during a wait is as it was. -/
  skeleton : d.skeleton = c.skeleton
  /-- Where no cycle was in flight, none is. -/
  noCycle : c.cycle = none → d.cycle = none
  /-- A cycle in flight is the same, but for what became of its request. -/
  inFlight : ∀ y, c.cycle = some y →
    ∃ r, d.cycle = some { y with request := r } ∧ Request.Passes (y.Given given) y.request r
  /-- A stop is not taken back. -/
  stopped : c.stopped = true → d.stopped = true
  /-- It is poised still. -/
  poised : c.Poised → d.Poised
  /-- What was done is said in the phase that it is in, and no milestone is passed. -/
  trace : ∃ said, d.trace = c.trace ++ said ∧ ∀ e ∈ said, e.1 = c.phase ∧ e.2.milestone? = none

/-- What is left of a controller after an event that does not move it on. -/
structure Waits (given : Nat → Except (Failure α) (List (Bar α)) → Prop) (c d : Controller α) : Prop
    extends Drift given c d where
  /-- A controller at rest is at rest again. -/
  rest : c.AtRest → d.AtRest

variable {given : Nat → Except (Failure α) (List (Bar α)) → Prop} {d e : Controller α}

theorem Drift.refl (c : Controller α) : Drift given c c :=
  ⟨rfl, id, fun y hy => ⟨y.request, hy, .refl _⟩, id, id, [], by simp, by simp⟩

theorem Drift.phase (h : Drift given c d) : d.phase = c.phase :=
  (congrArg Controller.phase h.skeleton :)

theorem Drift.trans (h₁ : Drift given c d) (h₂ : Drift given d e) : Drift given c e := by
  obtain ⟨said₁, htrace₁, hsaid₁⟩ := h₁.trace
  obtain ⟨said₂, htrace₂, hsaid₂⟩ := h₂.trace
  refine ⟨h₂.skeleton.trans h₁.skeleton, h₂.noCycle ∘ h₁.noCycle, ?_, h₂.stopped ∘ h₁.stopped,
    h₂.poised ∘ h₁.poised, said₁ ++ said₂, ?_, ?_⟩
  · intro y hy
    obtain ⟨r₁, hcycle₁, hpass₁⟩ := h₁.inFlight y hy
    obtain ⟨r₂, hcycle₂, hpass₂⟩ := h₂.inFlight _ hcycle₁
    exact ⟨r₂, hcycle₂, hpass₁.trans hpass₂⟩
  · rw [htrace₂, htrace₁, List.append_assoc]
  · intro e he
    rcases List.mem_append.mp he with he | he
    · exact hsaid₁ e he
    · exact ⟨(hsaid₂ e he).1.trans h₁.phase, (hsaid₂ e he).2⟩

theorem Waits.refl (c : Controller α) : Waits given c c := ⟨.refl c, id⟩

theorem Drift.note (c : Controller α) (o : Occurrence α) (ho : o.milestone? = none) :
    Drift given c (c.note o) := by
  refine ⟨rfl, id, fun y hy => ⟨y.request, hy, .refl _⟩, id, id, [(c.phase, o)], rfl, ?_⟩
  intro e he
  obtain rfl := List.mem_singleton.mp he
  exact ⟨rfl, ho⟩

/-- Changing the request in flight is a stride when the request passes to a later state. -/
theorem Drift.onRequest {f : Request α (List (Bar α)) → Request α (List (Bar α))}
    (h : ∀ y, c.cycle = some y → Request.Passes (y.Given given) y.request (f y.request)) :
    Drift given c (c.onRequest f) := by
  cases hcycle : c.cycle with
  | none => simpa only [onRequest_of_none hcycle] using Drift.refl c
  | some y =>
    obtain ⟨said, heq, hsaid⟩ := onRequest_of_some (f := f) hcycle
    have hpass := h y hcycle
    rw [heq]
    refine ⟨rfl, fun hnone => ?_, ?_, id, ?_, said, rfl, hsaid⟩
    · rw [hcycle] at hnone
      cases hnone
    · intro z hz
      obtain rfl : y = z := Option.some.inj (hcycle.symm.trans hz)
      exact ⟨f y.request, rfl, hpass⟩
    · intro hpoised z hz
      obtain rfl := Option.some.inj hz
      obtain ⟨hattentive, hheeded⟩ := hpoised y hcycle
      exact ⟨hpass.attentive hattentive, fun hstopped => (hpass.settled (hheeded hstopped)).1⟩

omit [NumberText α] in
/-- A request that passes to a tidy state is at rest. -/
theorem AtRest.onRequest {f : Request α (List (Bar α)) → Request α (List (Bar α))}
    (h : ∀ y, c.cycle = some y →
      (f y.request).Tidy ∧ (c.stopped = true → (f y.request).isOpen = false)) :
    (c.onRequest f).AtRest := by
  intro z hz
  cases hcycle : c.cycle with
  | none =>
    rw [onRequest_of_none hcycle, hcycle] at hz
    cases hz
  | some y =>
    obtain ⟨said, heq, -⟩ := onRequest_of_some (f := f) hcycle
    rw [heq] at hz ⊢
    obtain rfl := Option.some.inj hz
    exact h y hcycle

/-! ## Stopping while a cycle waits -/

theorem AtRest.halt (h : c.Poised) : c.halt.AtRest := by
  apply AtRest.onRequest
  intro y hy
  obtain ⟨htidy, hsettled⟩ := (h y hy).1.tidy_cancel
  exact ⟨htidy, fun _ => hsettled⟩

theorem Drift.halt (c : Controller α) : Drift given c c.halt := by
  -- The mark of a stop need not find a settled request, so it is no stride by itself.
  have hreached : Drift given { c with stopped := true, stopping := c.stopping + 1 } c.halt :=
    .onRequest fun y _ => .cancel y.request
  exact ⟨hreached.skeleton, hreached.noCycle, hreached.inFlight, fun _ => hreached.stopped rfl,
    fun h => (AtRest.halt h).poised, hreached.trace⟩

theorem Drift.settling (w : Surroundings α)
    {f : Request α (List (Bar α)) → Request α (List (Bar α))}
    (h : ∀ y, c.cycle = some y → Request.Passes (y.Given given) y.request (f y.request)) :
    Drift given c (c.settling w f) := by
  rcases settling_cases w f c with heq | heq
  · rw [heq]
    exact .onRequest h
  · rw [heq]
    exact (Drift.onRequest h).trans (.halt _)

theorem Waits.stop (w : Surroundings α) (c : Controller α) : Waits given c (c.stop w) := by
  rcases stop_cases w c with heq | heq
  · rw [heq]
    exact ⟨.halt c, fun h => .halt h.poised⟩
  · rw [heq]
    exact ⟨(Drift.halt c).trans (.halt _), fun h => .halt (AtRest.halt h.poised).poised⟩

/-! ## Answers and deadlines -/

/-- A request that stops listening once it is settled leaves the controller at rest. -/
theorem Waits.close (h : Drift given c d) :
    Waits given c (d.onRequest fun r => if r.isOpen then r else r.detach) := by
  refine ⟨h.trans (.onRequest fun y _ => .close y.request), fun hrest => ?_⟩
  apply AtRest.onRequest
  intro y hy
  obtain ⟨hattentive, hheeded⟩ := h.poised hrest.poised y hy
  refine ⟨hattentive.tidy_close, fun hstopped => ?_⟩
  have hpass :
      y.request.Passes (fun _ => True) (if y.request.isOpen then y.request else y.request.detach) :=
    .close y.request
  exact (hpass.settled (hheeded hstopped)).1

theorem Waits.answer {call : Nat} {a : Except (Failure α) (List (Bar α))} (h : given call a)
    (c : Controller α) : Waits given c (c.answer call a) := by
  unfold Controller.answer
  split
  · next y hy =>
    split
    · next hcall =>
      have hpass : ∀ z, c.cycle = some z →
          Request.Passes (z.Given given) z.request (z.request.answer a) := by
        intro z hz
        obtain rfl : y = z := Option.some.inj (hy.symm.trans hz)
        exact .answer ⟨call, hcall, h⟩ y.request
      refine ⟨.onRequest hpass, fun hrest => .onRequest fun z hz => ?_⟩
      obtain ⟨htidy, hheeded⟩ := hrest z hz
      exact ⟨htidy.answer a, fun hstopped => ((hpass z hz).settled (hheeded hstopped)).1⟩
    · exact .refl c
  · exact .refl c

theorem Waits.expire (w : Surroundings α) (c : Controller α) : Waits given c (c.expire w) :=
  .close (.settling w fun y _ => .timeOut _ y.request)

theorem Waits.deliver (w : Surroundings α) (c : Controller α) : Waits given c (c.deliver w) := by
  have hclosed :
      Waits given c ((c.settling w .receive).onRequest fun r => if r.isOpen then r else r.detach) :=
    .close (.settling w fun y _ => .receive y.request)
  unfold Controller.deliver
  dsimp only
  split
  · exact ⟨hclosed.toDrift.trans (.note _ _ rfl), hclosed.rest⟩
  · exact hclosed

/-! ## Events beside the cycle -/

theorem Waits.release (c : Controller α) : Waits given c c.release := by
  -- Every call of `stop` that is over logs a line of its own.
  have hsaid : ∀ (entries : List (Log.Entry α)) (c : Controller α), Waits given c
      (entries.foldl (fun c e => c.note (.logged e)) c) := by
    intro entries
    induction entries with
    | nil => exact fun c => .refl c
    | cons e rest ih =>
      intro c
      have hrest := ih (c.note (.logged e))
      exact ⟨(Drift.note c _ rfl).trans hrest.toDrift, hrest.rest⟩
  unfold Controller.release
  split
  · exact .refl c
  · have hreleased : Drift given c { c with stopping := 0 } :=
      ⟨rfl, id, fun y hy => ⟨y.request, hy, .refl _⟩, id, id, [], by simp, by simp⟩
    have hlogged :=
      hsaid (List.replicate c.stopping (Log.Entry.mk service .info "Refresh controller stopped"
      (some [("symbol", c.config.symbol)]))) { c with stopping := 0 }
    exact ⟨hreleased.trans hlogged.toDrift, hlogged.rest⟩

variable [Scalar α]

theorem Waits.switched (mode : Choice Mode α) (c : Controller α) :
    Waits given c (c.switched mode).2 := by
  unfold Controller.switched
  cases hset : c.setMode mode with
  | error e => exact .refl c
  | ok after =>
    obtain ⟨source, -, rfl⟩ := setMode_eq_ok hset
    have hreplaced :
        Drift given c { c with source := source, mode := mode, switches := c.switches + 1 } :=
      ⟨rfl, id, fun y hy => ⟨y.request, hy, .refl _⟩, id, id, [], by simp, by simp⟩
    exact ⟨hreplaced.trans (.note _ _ rfl), id⟩

end Controller

end MarketMaker.Refresh
