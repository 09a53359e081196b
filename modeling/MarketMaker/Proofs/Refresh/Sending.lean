import MarketMaker.Proofs.Refresh.InFlight
import MarketMaker.Proofs.Refresh.Settlement
import MarketMaker.Proofs.Refresh.Stopping

/-!
# A cancelled request is sent all the same

The call of a request is made a moment after the request has begun. Whether its caller has cancelled
is asked once, at the beginning. So a call that is **due** stays due until it is made
(`call_run_eq_due_iff`), and a caller that cancels in between does not keep it from being made.

Such a call is **forewarned**: what settles a request before its call is made also aborts the signal
that the call will be handed, and nothing takes that back (`lasting_forewarned`). And it is in vain,
since the request has its outcome already.

The calls that a controller has made are its **sendings**. After a stop there is at most one more,
that of the cycle in flight. If it was due at the stop, it is made at the next moment, and
forewarned (`sendings_run`).
-/

namespace MarketMaker.Refresh

variable {α β : Type}

namespace Request

/-- A request that has aborted its signal, if it has settled before its call was made. -/
def Forewarned (r : Request α β) : Prop := r.call = .due → r.isOpen = false → r.aborted = true

variable {r : Request α β}

/-- Only a call that is due is made. -/
theorem make_eq_self_iff : r.make = r ↔ r.call ≠ .due := by
  cases hcall : r.call with
  | due =>
    refine iff_of_false (fun heq => ?_) fun hdue => hdue rfl
    have hmade : r.make.call = .waiting := by simp only [make, hcall]
    cases (heq ▸ hmade).symm.trans hcall
  | _ =>
    refine iff_of_true (by simp only [make, hcall]) fun hdue => ?_
    cases hdue

theorem aborted_make (r : Request α β) : r.make.aborted = r.aborted := by
  unfold make
  split <;> rfl

namespace Forewarned

theorem begun : (begun : Request α β).Forewarned := fun _ => nofun

theorem of_called (h : r.call ≠ .due) : r.Forewarned := fun hdue => absurd hdue h

theorem of_aborted (h : r.aborted = true) : r.Forewarned := fun _ _ => h

/-- Whatever the outcome is that a request settles with, its signal is aborted if it was. -/
theorem settle (h : r.aborted = true) (outcome : Except (Failure α) β) :
    (r.settle outcome).Forewarned := by
  unfold Request.settle
  split
  · exact of_aborted h
  · exact of_aborted h

theorem cancel (h : r.Forewarned) : r.cancel.Forewarned := by
  unfold Request.cancel
  split
  · exact settle rfl _
  · exact h

theorem detach (h : r.Forewarned) : r.detach.Forewarned := h

theorem make (r : Request α β) : r.make.Forewarned := by
  unfold Request.make
  split
  · exact of_called nofun
  · next hcalled => exact of_called hcalled

theorem answer (h : r.Forewarned) (a : Except (Failure α) β) : (r.answer a).Forewarned := by
  unfold Request.answer
  split
  · exact of_called nofun
  · exact h

variable [NumberText α]

theorem timeOut (h : r.Forewarned) (milliseconds : α) : (r.timeOut milliseconds).Forewarned := by
  unfold Request.timeOut
  split
  · exact settle rfl _
  · exact h

theorem receive (h : r.Forewarned) : r.receive.Forewarned := by
  unfold Request.receive
  split
  · dsimp only
    split
    · exact of_called (by rw [call_settle]; exact nofun)
    · unfold Request.lose
      split
      · exact of_called nofun
      · exact of_called nofun
  · exact h

/-- Whatever happens to a request leaves it forewarned. -/
theorem step (h : r.Forewarned) (milliseconds : α) (e : Event α β) :
    (r.step milliseconds e).Forewarned := by
  cases e with
  | cancel => exact h.cancel
  | expire =>
    simp only [Request.step, expire]
    split
    · exact (h.timeOut milliseconds).detach
    · exact h
  | make => exact make r
  | answer a => exact h.answer a
  | deliver =>
    simp only [Request.step, deliver]
    split
    · exact h.receive.detach
    · exact h

theorem run (h : r.Forewarned) (milliseconds : α) (history : List (Event α β)) :
    (r.run milliseconds history).Forewarned := by
  induction history generalizing r with
  | nil => exact h
  | cons e later ih => exact ih (h.step milliseconds e)

end Forewarned

variable [NumberText α]

/-- A call that is due stays due through every event but its being made. -/
theorem call_step_eq_due_iff (r : Request α β) (milliseconds : α) (e : Event α β) :
    (r.step milliseconds e).call = .due ↔ r.call = .due ∧ e ≠ .make := by
  -- To stop listening makes no difference to the call.
  have hpass {r' : Request α β} (h : Passes (fun _ => True) r r') (hother : e ≠ .make) :
      r'.detach.call = .due ↔ r.call = .due ∧ e ≠ .make := h.due.trans (and_iff_left hother).symm
  cases e with
  | cancel => exact hpass (.cancel r) (by simp)
  | expire =>
    simp only [step, expire]
    split
    · exact hpass (.timeOut milliseconds r) (by simp)
    · exact hpass (.refl r) (by simp)
  | make =>
    refine iff_of_false ?_ fun h => h.2 rfl
    simp only [step, make]
    split
    · simp
    · assumption
  | answer a => exact hpass (.answer trivial r) (by simp)
  | deliver =>
    simp only [step, deliver]
    split
    · exact hpass (.receive r) (by simp)
    · exact hpass (.refl r) (by simp)

theorem call_run_eq_due_iff (r : Request α β) (milliseconds : α) (history : List (Event α β)) :
    (r.run milliseconds history).call = .due ↔ r.call = .due ∧ .make ∉ history := by
  induction history generalizing r with
  | nil => simp [run]
  | cons e later ih =>
    have hrun : r.run milliseconds (e :: later) = (r.step milliseconds e).run milliseconds later :=
      rfl
    rw [hrun, ih, call_step_eq_due_iff, List.mem_cons, not_or, and_assoc, ne_comm]

/-! ## After a cancellation -/

omit [NumberText α] in
/-- A cancellation is a trigger. -/
theorem exists_firstAfter {history : List (Event α β)} (h : .cancel ∈ history)
    (before : List (Event α β)) : ∃ t, firstAfter before history = some t := by
  induction history generalizing before with
  | nil => cases h
  | cons e later ih =>
    rw [firstAfter]
    cases htrigger : trigger? before e with
    | some t => exact ⟨t, rfl⟩
    | none =>
      rcases List.mem_cons.mp h with rfl | hlater
      · cases htrigger
      · exact ih hlater _

/-- A request whose caller has cancelled is concluded, by the cancellation or by something
before. -/
theorem exists_concluded {milliseconds : α} (htime : NumberText.hasText milliseconds = true)
    {cancelled : Bool} {before : List (Event α β)} (h : cancelled = true ∨ .cancel ∈ before) :
    ∃ t, ((start milliseconds cancelled).run milliseconds before).Concluded milliseconds t := by
  cases cancelled with
  | true =>
    have hstart : (start milliseconds true : Request α β) = refused := by simp [start, htime]
    have hrefused : (refused : Request α β).Concluded milliseconds .cancelled :=
      ⟨⟨rfl, rfl, rfl⟩, rfl, rfl⟩
    rw [hstart]
    exact ⟨.cancelled, hrefused.run before⟩
  | false =>
    have hstart : (start milliseconds false : Request α β) = awaiting [] := by
      simp only [start, htime, Bool.not_true, Bool.false_eq_true, if_false]
      rfl
    obtain ⟨t, ht⟩ := exists_firstAfter (h.resolve_left Bool.false_ne_true) []
    rw [hstart]
    exact ⟨t, (run_awaiting htime [] before).2 t ht⟩

/-- **The call of a cancelled request is made**, unless the caller had cancelled before the request
began, or the call was made already. -/
theorem make_of_cancelled {milliseconds : α} (htime : NumberText.hasText milliseconds = true)
    {cancelled : Bool} {before : List (Event α β)} (h : cancelled = true ∨ .cancel ∈ before) :
    let r : Request α β := (start milliseconds cancelled).run milliseconds before
    (r.make = r ↔ cancelled = true ∨ .make ∈ before) ∧
      (r.make ≠ r → r.make.aborted = true ∧ ∀ later, (r.make.run milliseconds later).outcome =
        r.outcome) := by
  intro r
  have hstart : (start milliseconds cancelled : Request α β).call = .due ↔ cancelled = false := by
    cases cancelled <;> simp [start, htime, refused, begun]
  have hforewarned : (start milliseconds cancelled : Request α β).Forewarned := by
    cases cancelled with
    | true => exact .of_called fun hdue => Bool.noConfusion (hstart.mp hdue)
    | false => simpa [start, htime] using Forewarned.begun
  have hdue : r.call = .due ↔ cancelled = false ∧ .make ∉ before := by
    rw [call_run_eq_due_iff, hstart]
  obtain ⟨t, hconcluded⟩ := exists_concluded (β := β) htime h
  refine ⟨?_, fun hmade => ⟨?_, fun later => ?_⟩⟩
  · rw [make_eq_self_iff, Ne, hdue, Classical.not_and_iff_not_or_not, Bool.not_eq_false,
      Classical.not_not]
  · have hdue : r.call = .due :=
      Classical.not_not.mp fun hcalled => hmade (make_eq_self_iff.mpr hcalled)
    rw [aborted_make]
    exact hforewarned.run milliseconds before hdue (by simp [isOpen, hconcluded.settled])
  · obtain ⟨call, hlater⟩ := hconcluded.toInert.run milliseconds (.make :: later)
    have hmade : r.make.run milliseconds later = { r with call } := hlater
    rw [hmade]

end Request

/-- Whatever happens to the request in flight leaves it forewarned. -/
theorem lasting_forewarned [NumberText α] :
    Lasting fun _ (r : Request α (List (Bar α))) => r.Forewarned where
  begun _ := .begun
  stop h := h
  cancel h := h.cancel
  make {_ r} _ := .make r
  answer h a := h.answer a
  timeOut h milliseconds := h.timeOut milliseconds
  receive h := h.receive
  detach h := h.detach

/-! ## The calls of a controller -/

/-- The call that something seen is, with whether its signal was aborted already. -/
def Occurrence.sending? : Occurrence α → Option (Nat × Bool)
  | .fetched call warned => some (call, warned)
  | _ => none

theorem Occurrence.sending?_of_milestone?_eq_none {o : Occurrence α} (h : o.milestone? = none) :
    o.sending? = none := by
  cases o <;> first | rfl | cases h

namespace Controller

/-- The calls of the source of bars, in their order. -/
def sendings (c : Controller α) : List (Nat × Bool) := c.trace.filterMap fun e => e.2.sending?

/-- The number of the cycle in flight, if its call is due. -/
def due? (c : Controller α) : Option Nat :=
  c.cycle.bind fun y =>
    match y.request.call with
    | .due => some y.number
    | _ => none

/-- A controller whose request in flight is forewarned. -/
def Forewarned (c : Controller α) : Prop := ∀ y, c.cycle = some y → y.request.Forewarned

variable {c d : Controller α}

theorem sendings_eq_of_said {said : List (Phase × Occurrence α)}
    (htrace : d.trace = c.trace ++ said) (hsaid : ∀ e ∈ said, e.2.milestone? = none) :
    d.sendings = c.sendings := by
  have hnone : said.filterMap (fun e => e.2.sending?) = [] := by
    rw [List.filterMap_eq_nil_iff]
    exact fun e he => Occurrence.sending?_of_milestone?_eq_none (hsaid e he)
  rw [sendings, htrace, List.filterMap_append, hnone, List.append_nil, sendings]

theorem due?_eq_some_iff {n : Nat} :
    c.due? = some n ↔ ∃ y, c.cycle = some y ∧ y.number = n ∧ y.request.call = .due := by
  unfold due?
  cases hy : c.cycle with
  | none => simp
  | some y => cases hcall : y.request.call <;> simp [hcall]

theorem due?_eq_none_iff : c.due? = none ↔ ∀ y, c.cycle = some y → y.request.call ≠ .due := by
  unfold due?
  cases hy : c.cycle with
  | none => simp
  | some y => cases hcall : y.request.call <;> simp [hcall]

variable [NumberText α] [Scalar α] [Numeric α]

/-- **Throughout a run, the request in flight is forewarned.** -/
theorem forewarned_run {config : Config α} {c₀ : Controller α} (hcreate : create config = .ok c₀)
    (w : Surroundings α) (events : List (Event α)) : (c₀.run w events).Forewarned :=
  lasting_forewarned.run hcreate w events

/-! ### After a stop -/

/-- A stopped controller after an event that made no call: the one that was due is due still. -/
structure Withholds (c d : Controller α) : Prop where
  /-- It is stopped still. -/
  stopped : d.stopped = true
  /-- No call was made. -/
  sendings : d.sendings = c.sendings
  /-- The call that was due is due still. -/
  due : d.due? = c.due?

omit [Scalar α] [Numeric α] in
theorem Waits.withholds {given : Nat → Except (Failure α) (List (Bar α)) → Prop}
    (h : Waits given c d) (hstopped : c.stopped = true) : Withholds c d := by
  obtain ⟨said, htrace, hsaid⟩ := h.trace
  refine ⟨h.stopped hstopped, sendings_eq_of_said htrace fun e he => (hsaid e he).2, ?_⟩
  cases hy : c.cycle with
  | none => rw [due?, due?, hy, h.noCycle hy]
  | some y =>
    obtain ⟨r, hr, hpass⟩ := h.inFlight y hy
    refine Option.ext fun n => ?_
    simp only [due?_eq_some_iff, hr, hy, Option.some.injEq, exists_eq_left', hpass.due]

/-- The call of a cycle is all that is still made after a stop. -/
theorem Orderly.withholds (horderly : c.Orderly fun _ _ => True) (hstopped : c.stopped = true)
    (w : Surroundings α) {event : Event α} (hother : event ≠ .make) :
    Withholds c (c.step w event) := by
  have hsame : Withholds c c := ⟨hstopped, rfl, rfl⟩
  have hwaits (h : Waits (fun _ _ => True) c (c.step w event)) : Withholds c (c.step w event) :=
    h.withholds hstopped
  cases event with
  | tick now =>
    simp only [Controller.step, ticked,
      tick_of_held now (show (c.cycle.isSome || c.stopped) = true by simp [hstopped])]
    exact hsame
  | refresh now =>
    simp only [Controller.step, refresh, hstopped, if_true]
    split <;> exact hsame
  | stop => exact hwaits (.stop w c)
  | setMode mode => exact hwaits (.switched mode c)
  | answer call a => exact hwaits (.answer trivial c)
  | expire => exact hwaits (.expire w c)
  | make => exact absurd rfl hother
  | deliver => exact hwaits (.deliver w c)
  | resume =>
    simp only [Controller.step]
    rcases resume_cases w c with heq | ⟨y, fetched, hy, hrunning, hcalled, hfetched⟩
    · rwa [heq]
    · obtain ⟨outcome, after, -, hconcludes, heq⟩ :=
        horderly.resume_spec w hy hrunning hcalled hfetched
      obtain ⟨said, htrace, hsaid⟩ := hconcludes.keeps.trace
      rw [heq]
      refine ⟨hconcludes.keeps.stopped hstopped, sendings_eq_of_said htrace hsaid, ?_⟩
      simp [due?, hy]
  | clear =>
    simp only [Controller.step]
    rcases clear_cases c with heq | ⟨y, outcome, hy, hended⟩
    · rwa [heq]
    · obtain ⟨-, hnone, hkept, said, htrace, hsaid⟩ := clear_spec hy hended
      obtain ⟨hcalled, -⟩ := (horderly.inFlight y hy).ended outcome hended
      have hnoted : (c.note (.ended y.number outcome)).sendings = c.sendings := by
        simp [sendings, note, Occurrence.sending?]
      have hundue : c.due? = none := due?_eq_none_iff.mpr fun z hz => by
        obtain rfl := Option.some.inj (hy.symm.trans hz)
        exact hcalled
      refine ⟨hkept.trans hstopped, ?_, ?_⟩
      · rw [← hnoted]
        exact sendings_eq_of_said htrace fun e he => (hsaid e he).2
      · rw [hundue, due?, hnone]
        rfl
  | release => exact hwaits (.release c)

omit [Numeric α] [Scalar α] in
/-- The call that is due is made, and then none is. -/
theorem Orderly.sendings_make (horderly : c.Orderly fun _ _ => True) (hwarned : c.Forewarned)
    (hstopped : c.stopped = true) (w : Surroundings α) :
    (c.make w).stopped = true ∧ (c.make w).due? = none ∧
      (c.make w).sendings = c.sendings ++ c.due?.toList.map fun n => (n, true) := by
  cases hdue : c.due? with
  | none =>
    have hself : c.make w = c :=
      (make_cases w c).resolve_right fun ⟨y, hy, hcall⟩ => due?_eq_none_iff.mp hdue y hy hcall
    rw [hself]
    exact ⟨hstopped, hdue, by simp⟩
  | some n =>
    obtain ⟨y, hy, rfl, hcall⟩ := due?_eq_some_iff.mp hdue
    obtain ⟨r, heq, hcalled, -⟩ := make_spec w hy hcall
    obtain ⟨-, hnumber, -⟩ := (horderly.inFlight y hy).due hcall
    have haborted : y.request.aborted = true := hwarned y hy hcall ((horderly.rest y hy).2 hstopped)
    rw [heq]
    refine ⟨hstopped, due?_eq_none_iff.mpr ?_, ?_⟩
    · rintro z hz
      obtain rfl := Option.some.inj hz
      exact hcalled
    · simp [sendings, Occurrence.sending?, hnumber, haborted]

/-- **After a stop, the call that is due is still made**, and no other. -/
theorem Orderly.sendings_run (horderly : c.Orderly fun _ _ => True) (hwarned : c.Forewarned)
    (hstopped : c.stopped = true) (w : Surroundings α) (events : List (Event α)) :
    (.make ∉ events → (c.run w events).sendings = c.sendings) ∧
      (.make ∈ events → (c.run w events).sendings = c.sendings ++ c.due?.toList.map fun n =>
        (n, true)) := by
  induction events generalizing c with
  | nil => exact ⟨fun _ => rfl, nofun⟩
  | cons event rest ih =>
    have hrun : c.run w (event :: rest) = (c.step w event).run w rest := rfl
    have ih := ih (horderly.event w event)
      (InFlight.step lasting_forewarned hwarned horderly w event)
    rw [hrun]
    by_cases hmake : event = .make
    · subst hmake
      obtain ⟨hstopped', hnone, hsent⟩ := horderly.sendings_make hwarned hstopped w
      have hlater : ((c.make w).run w rest).sendings = (c.make w).sendings := by
        obtain ⟨hunmade, hmade⟩ := ih hstopped'
        by_cases hrest : .make ∈ rest
        · rw [Controller.step, hnone] at hmade
          exact (hmade hrest).trans (List.append_nil _)
        · exact hunmade hrest
      exact ⟨fun hnot => absurd List.mem_cons_self hnot, fun _ => hlater.trans hsent⟩
    · have hkept := horderly.withholds hstopped w hmake
      obtain ⟨hunmade, hmade⟩ := ih hkept.stopped
      rw [hkept.sendings] at hunmade
      rw [hkept.sendings, hkept.due] at hmade
      have hmem : .make ∈ event :: rest ↔ .make ∈ rest := by simp [Ne.symm hmake]
      rw [hmem]
      exact ⟨hunmade, hmade⟩

/-! ### The whole of it -/

/-- **A cancelled request is sent all the same.** A request whose caller has cancelled makes its
call when it gets to it, unless the caller had cancelled before the request began, or the call was
made before. Its signal is aborted then, and the outcome is what it was. So a controller that is
stopped while the call of its cycle is due still calls the source of bars, with a signal that is
aborted already, as soon as that call gets its turn; and it makes no other. -/
theorem cancelled_unsent_iff {config : Config α} {c₀ : Controller α}
    (hcreate : create config = .ok c₀) (w : Surroundings α) :
    (∀ (milliseconds : α) (cancelled : Bool) (before : List (Request.Event α β)),
      cancelled = true ∨ .cancel ∈ before →
        let r : Request α β := (Request.start milliseconds cancelled).run milliseconds before
        (r.make = r ↔ cancelled = true ∨ .make ∈ before) ∧
          (r.make ≠ r → r.make.aborted = true ∧
            ∀ later, (r.make.run milliseconds later).outcome = r.outcome)) ∧
    ∀ before after y,
      let s := c₀.run w before
      let d := s.run w after
      s.stopped = true → s.cycle = some y → y.call = none →
        (d.sendings = s.sendings ↔ .make ∉ after) ∧
          (.make ∈ after → d.sendings = s.sendings ++ [(y.number, true)]) ∧
          (d.drain w).sendings = s.sendings ++ [(y.number, true)] := by
  refine ⟨fun milliseconds cancelled before =>
    Request.make_of_cancelled (Numeric.hasText milliseconds), ?_⟩
  intro before after y s d hstopped hy hunmade
  have hs : s.Orderly fun _ _ => True :=
    orderly_run hcreate (fun _ _ _ => trivial) (fun _ _ _ => trivial)
  have hdue : y.request.call = .due := Classical.not_not.mp fun hcalled => by
    cases ((hs.inFlight y hy).called hcalled).1.symm.trans hunmade
  have hnumber : s.due? = some y.number := due?_eq_some_iff.mpr ⟨y, hy, rfl, hdue⟩
  have hsendings (events : List (Event α)) :
      (.make ∉ events → (s.run w events).sendings = s.sendings) ∧
        (.make ∈ events → (s.run w events).sendings = s.sendings ++ [(y.number, true)]) := by
    have hrun := hs.sendings_run (forewarned_run hcreate w before) hstopped w events
    rwa [hnumber] at hrun
  refine ⟨⟨fun hsame hmake => ?_, (hsendings after).1⟩, (hsendings after).2, ?_⟩
  · have hmore := hsame.symm.trans ((hsendings after).2 hmake)
    simp at hmore
  · have hdrain : s.run w (after ++ [.make, .deliver, .resume, .clear, .release]) = d.drain w :=
      List.foldl_append
    rw [← hdrain]
    exact (hsendings _).2 (by simp)

/-- The controller is stopped right after a refresh has started a cycle. -/
theorem cancelled_unsent_iff_sameTurn :
    let w := answering .later
    let s := sample.run w [.refresh 1, .stop]
    let r : Request Float Nat := (Request.start 1000 false).run 1000 [.cancel]
    create sampleConfig = .ok sample ∧ s.stopped = true ∧ (∃ y, s.cycle = some y ∧ y.call = none) ∧
      (s.drain w).sendings = [(0, true)] ∧ r.make ≠ r ∧ r.make.aborted = true := by
  obtain ⟨hrequest, hcontroller⟩ :=
    cancelled_unsent_iff (β := Nat) create_sampleConfig (answering .later)
  obtain ⟨-, -, hdrained⟩ := hcontroller [.refresh 1, .stop] [] _ rfl rfl rfl
  obtain ⟨hunmade, hmade⟩ := hrequest 1000 false [.cancel] (.inr List.mem_cons_self)
  have hsent := mt hunmade.mp (by simp)
  exact ⟨create_sampleConfig, rfl, ⟨_, rfl, rfl⟩, hdrained, hsent, (hmade hsent).1⟩

/-- A request that is cancelled between its beginning and its call makes the call, and so does a
controller that is stopped right after a refresh or a tick has started a cycle. -/
theorem cancelled_sent_sameTurn :
    let w := answering .later
    let r : Request Float Nat := (Request.start 1000 false).run 1000 [.cancel]
    r.outcome = some (.error (.cancelled {})) ∧ r.call = .due ∧ r.make.call = .waiting ∧
      (sample.run w [.refresh 1, .stop]).sendings = [] ∧
      (sample.run w [.refresh 1, .stop, .make]).sendings = [(0, true)] ∧
      (sample.run w [.tick 1, .stop]).sendings = [] ∧
      (sample.run w [.tick 1, .stop, .make]).sendings = [(0, true)] :=
  ⟨rfl, rfl, rfl, rfl, rfl, rfl, rfl⟩

end Controller

end MarketMaker.Refresh
