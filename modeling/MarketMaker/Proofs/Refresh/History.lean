import MarketMaker.Proofs.Refresh.Words

/-!
# What a schedule remembers

The **history** of a run is how its cycles ended, the latest first. The schedule is what the law of
`Schedule.after` makes of the history (`schedule_run`), so it remembers two endings at most: the
latest one that advanced it, and the latest one that set back the next attempt, unless one that only
advanced came later.

One would expect two others: the latest success, and the latest failure since. A history is
**plain** when those are the ones remembered (`remembered_iff_isPlain`). Among articulate
surroundings every history is.
-/

namespace MarketMaker.Refresh

open Scalar

variable {α : Type}

/-- The latest cycle that advanced the schedule. -/
def lastAdvance? (history : List (Ending α)) : Option (Ending α) := history.find? Ending.advances

/-- The latest cycle that set back the next attempt, unless a later one did no more than advance. -/
def lastSetback? (history : List (Ending α)) : Option (Ending α) :=
  (history.find? fun e => e.advances || e.setsBack).filter Ending.setsBack

/-- The latest cycle that succeeded. -/
def lastSuccess? (history : List (Ending α)) : Option (Ending α) :=
  history.find? fun e => e.outcome.isSuccess

/-- The cycles that have ended since the latest success. -/
def sinceSuccess (history : List (Ending α)) : List (Ending α) :=
  history.takeWhile fun e => !e.outcome.isSuccess

/-- The latest cycle that failed, of those since the latest success. -/
def lastFailure? (history : List (Ending α)) : Option (Ending α) :=
  (sinceSuccess history).find? fun e => e.outcome.isFailure

/-- A history whose latest advance was a success and whose latest setback was a failure. -/
structure IsPlain (history : List (Ending α)) : Prop where
  /-- The latest cycle that moved the schedule on was a success. -/
  advance : ∀ e, lastAdvance? history = some e → e.outcome.isSuccess = true
  /-- The latest cycle that put it off was a failure. -/
  setback : ∀ e, lastSetback? history = some e → e.outcome.isFailure = true

/-- A schedule that has seen nothing is after a history what the history has it remember. -/
theorem foldr_after [Scalar α] (backoff interval : α) (history : List (Ending α)) :
    history.foldr (Schedule.after backoff) ⟨interval, none, none⟩ =
      ⟨interval, (lastAdvance? history).map (·.startedAt),
        (lastSetback? history).map fun e => e.startedAt + backoff * 1000⟩ := by
  -- The latest ending decides; the earlier ones count where it leaves a field alone.
  induction history with
  | nil => rfl
  | cons e rest ih =>
    rw [List.foldr_cons, ih]
    unfold lastAdvance? lastSetback?
    cases hadvances : e.advances <;> cases hsets : e.setsBack <;>
      simp [Schedule.after, Option.filter_some, hadvances, hsets]

/-- Looking for less finds the same when it was there. -/
theorem find?_eq_find?_iff {p q : Ending α → Bool} (hpq : ∀ e, p e = true → q e = true)
    (history : List (Ending α)) :
    history.find? q = history.find? p ↔ ∀ e, history.find? q = some e → p e = true := by
  constructor
  · intro heq e he
    exact List.find?_some (p := p) (heq.symm.trans he)
  · intro hfound
    induction history with
    | nil => rfl
    | cons e rest ih =>
      cases hq : q e with
      | true =>
        have hp : p e = true := hfound e (by rw [List.find?_cons_of_pos hq])
        rw [List.find?_cons_of_pos hq, List.find?_cons_of_pos hp]
      | false =>
        have hq' : ¬ q e = true := by simp [hq]
        have hp' : ¬ p e = true := fun hp => hq' (hpq e hp)
        rw [List.find?_cons_of_neg hq'] at hfound ⊢
        rw [List.find?_cons_of_neg hp']
        exact ih hfound

/-- When the latest advance was a success, the latest setback is one of those since. -/
theorem lastSetback?_eq_find? {history : List (Ending α)}
    (hquiet : ∀ e ∈ history, e.outcome.isSuccess = true → e.setsBack = false)
    (hadvance : ∀ e, lastAdvance? history = some e → e.outcome.isSuccess = true) :
    lastSetback? history = (sinceSuccess history).find? Ending.setsBack := by
  induction history with
  | nil => rfl
  | cons e rest ih =>
    cases hadvances : e.advances with
    | true =>
      -- An advance is a success here, which ends the search on both sides.
      have hsuccess : e.outcome.isSuccess = true := hadvance e (by simp [lastAdvance?, hadvances])
      have hsets : e.setsBack = false := hquiet e List.mem_cons_self hsuccess
      simp [lastSetback?, sinceSuccess, Option.filter_some, hadvances, hsuccess, hsets]
    | false =>
      have hnone : e.outcome.isSuccess = false := (Bool.or_eq_false_iff.mp hadvances).1
      cases hsets : e.setsBack with
      | true => simp [lastSetback?, sinceSuccess, Option.filter_some, hadvances, hnone, hsets]
      | false =>
        have hrest := ih (fun x hx => hquiet x (List.mem_cons_of_mem _ hx)) fun x hx =>
          hadvance x (by simpa [lastAdvance?, hadvances] using hx)
        simpa [lastSetback?, sinceSuccess, Option.filter_some, hadvances, hnone, hsets] using hrest

/-- **A schedule goes by the latest success and the latest failure since, exactly when its history
is plain.** -/
theorem remembered_iff_isPlain {history : List (Ending α)}
    (hquiet : ∀ e ∈ history, e.outcome.isSuccess = true → e.setsBack = false) :
    lastAdvance? history = lastSuccess? history ∧ lastSetback? history = lastFailure? history ↔
      IsPlain history := by
  have hadvance : lastAdvance? history = lastSuccess? history ↔
      ∀ e, lastAdvance? history = some e → e.outcome.isSuccess = true :=
    find?_eq_find?_iff (fun e h => by simp [Ending.advances, h]) history
  have hsetback (hplain : ∀ e, lastAdvance? history = some e → e.outcome.isSuccess = true) :
      lastSetback? history = lastFailure? history ↔
        ∀ e, lastSetback? history = some e → e.outcome.isFailure = true := by
    rw [lastSetback?_eq_find? hquiet hplain]
    exact find?_eq_find?_iff (fun e h => by simp [Ending.setsBack, h]) (sinceSuccess history)
  constructor
  · rintro ⟨hsame, hsame'⟩
    have hplain := hadvance.mp hsame
    exact ⟨hplain, (hsetback hplain).mp hsame'⟩
  · rintro ⟨hplain, hplain'⟩
    exact ⟨hadvance.mpr hplain, (hsetback hplain).mpr hplain'⟩

/-- Cycles that did no more than what they came to make a plain history. -/
theorem IsPlain.of_isFaithful {history : List (Ending α)} (h : ∀ e ∈ history, e.IsFaithful) :
    IsPlain history := by
  constructor
  · intro e he
    have hadvances : e.advances = true := List.find?_some he
    rcases Bool.or_eq_true_iff.mp hadvances with hsuccess | hreplaced
    · exact hsuccess
    · exact (h e (List.mem_of_find?_eq_some he)).replaced hreplaced
  · intro e he
    obtain ⟨hfound, hsets⟩ := Option.filter_eq_some_iff.mp he
    rcases Bool.or_eq_true_iff.mp hsets with hfailure | hreported
    · exact hfailure
    · exact (h e (List.mem_of_find?_eq_some hfound)).reported hreported

namespace Controller

/-- How a cycle ended on the way from one controller to the next: the one in flight had come to
nothing, and has come to something now. -/
def ending? (c d : Controller α) : Option (Ending α) :=
  c.cycle.bind fun y =>
    if y.outcome.isSome then none
    else (d.cycle.bind (·.outcome)).map fun outcome => endingOf y.startedAt outcome c d

/-- What the cycles came to, in their order, also the one that is about to be taken out of
flight. -/
def outcomes (c : Controller α) : List (Outcome α) :=
  c.endings.map Prod.snd ++ (c.cycle.bind (·.outcome)).toList

variable {c d : Controller α}

theorem ending?_eq_none
    (h : ∀ y, c.cycle = some y → y.outcome = none → d.cycle.bind (·.outcome) = none) :
    ending? c d = none := by
  unfold ending?
  cases hy : c.cycle with
  | none => rfl
  | some y =>
    cases hrunning : y.outcome with
    | none => simp [h y hy hrunning]
    | some outcome => simp [hrunning]

variable [Scalar α] [NumberText α]

/-- An ending to which a cycle comes that goes on with the outcome of its request. -/
def Ends (w : Surroundings α) (c : Controller α) (e : Ending α) : Prop :=
  ∃ y fetched, c.cycle = some y ∧ y.request.outcome = some fetched ∧
    e = endingOf y.startedAt (c.conclude w fetched y.startedAt).1 c
      (c.conclude w fetched y.startedAt).2

/-- The endings of a run, the latest first. -/
def history (w : Surroundings α) (c : Controller α) : List (Event α) → List (Ending α)
  | [] => []
  | event :: rest => history w (c.step w event) rest ++ (ending? c (c.step w event)).toList

/-- One controller after another, as far as its schedule and the outcomes of its cycles go. -/
structure Remembers (c d : Controller α) : Prop where
  /-- The configuration has not changed. -/
  config : d.config = c.config
  /-- The schedule follows from the cycle that ended in between, if one did. -/
  schedule : d.schedule =
    (ending? c d).toList.foldr (Schedule.after c.config.retryBackoffSeconds) c.schedule
  /-- Its outcome was told. -/
  outcomes : d.outcomes = c.outcomes ++ (ending? c d).toList.map (·.outcome)

/-- A step in which no cycle ends. -/
structure Stays (c d : Controller α) : Prop where
  /-- No cycle has ended. -/
  ending : ending? c d = none
  /-- The configuration has not changed. -/
  config : d.config = c.config
  /-- The schedule is as it was. -/
  schedule : d.schedule = c.schedule
  /-- No outcome was told. -/
  outcomes : d.outcomes = c.outcomes

omit [NumberText α] in
/-- There is nothing new to remember. -/
theorem Stays.remembers (h : Stays c d) : Remembers c d := by
  refine ⟨h.config, ?_, ?_⟩
  · rw [h.ending, h.schedule]
    rfl
  · rw [h.ending, h.outcomes]
    exact (List.append_nil _).symm

variable {given : Nat → Except (Failure α) (List (Bar α)) → Prop}

omit [Scalar α] in
/-- No cycle ends while the controller waits. -/
theorem Waits.stays (h : Waits given c d) : Stays c d := by
  obtain ⟨said, htrace, hsaid⟩ := h.trace
  have hsame : d.cycle.bind (·.outcome) = c.cycle.bind (·.outcome) := by
    cases hy : c.cycle with
    | none => rw [h.noCycle hy]
    | some y =>
      obtain ⟨r, hr, -⟩ := h.inFlight y hy
      rw [hr]
      rfl
  have hendings : d.endings = c.endings := endings_eq_of_said htrace fun e he => (hsaid e he).2
  refine ⟨?_, (congrArg Controller.config h.skeleton :),
    (congrArg Controller.schedule h.skeleton :), ?_⟩
  · apply ending?_eq_none
    intro y hy hrunning
    rw [hsame, hy]
    exact hrunning
  · rw [outcomes, outcomes, hsame, hendings]

omit [Scalar α] in
theorem stays_start (ticked : Bool) (now : α) (hcycle : c.cycle = none) :
    Stays c (c.start ticked now) := by
  refine ⟨ending?_eq_none fun _ _ _ => rfl, rfl, rfl, ?_⟩
  rw [outcomes, outcomes, hcycle]
  rfl

omit [Scalar α] [NumberText α] in
theorem stays_make (w : Surroundings α) {y : Cycle α} (hy : c.cycle = some y)
    (hdue : y.request.call = .due) : Stays c (c.make w) := by
  obtain ⟨r, heq, -⟩ := make_spec w hy hdue
  refine ⟨?_, ?_, ?_, ?_⟩
  · apply ending?_eq_none
    intro x hx hrunning
    obtain rfl := Option.some.inj (hx.symm.trans hy)
    rw [heq]
    exact hrunning
  all_goals simp [heq, outcomes, endings, Occurrence.ending?, hy]

/-- A cycle that is taken out of flight came to its end before. -/
theorem stays_clear {y : Cycle α} {outcome : Outcome α} (hy : c.cycle = some y)
    (hended : y.outcome = some outcome) : Stays c c.clear := by
  obtain ⟨hskeleton, hcycle, -⟩ := clear_spec hy hended
  refine ⟨?_, (congrArg Controller.config hskeleton :),
    (congrArg Controller.schedule hskeleton :), ?_⟩
  · apply ending?_eq_none
    intro _ _ _
    rw [hcycle]
    rfl
  · simp [outcomes, endings_clear hy hended, hcycle, hy, hended]

variable [Numeric α]

/-- A cycle that goes on ends, and the schedule is the one after that ending. -/
theorem Orderly.remembers_resume (horderly : c.Orderly given) (w : Surroundings α) {y : Cycle α}
    {fetched : Except (Failure α) (List (Bar α))} (hy : c.cycle = some y)
    (hrunning : y.outcome = none) (hcalled : y.request.call ≠ .due)
    (hfetched : y.request.outcome = some fetched) :
    Remembers c (c.resume w) ∧ ∀ e, ending? c (c.resume w) = some e → Ends w c e := by
  obtain ⟨outcome, after, hconclude, hconcludes, heq⟩ :=
    horderly.resume_spec w hy hrunning hcalled hfetched
  obtain ⟨said, htrace, hsaid⟩ := hconcludes.keeps.trace
  have hendings : after.endings = c.endings := endings_eq_of_said htrace hsaid
  have hending : ending? c (c.resume w) = some (endingOf y.startedAt outcome c after) := by
    rw [heq]
    simp [ending?, hy, hrunning, endingOf]
  have houtcomes : (c.resume w).outcomes = after.endings.map Prod.snd ++ [outcome] := by
    rw [heq]
    rfl
  refine ⟨⟨?_, ?_, ?_⟩, fun e he => ⟨y, fetched, hy, hfetched, ?_⟩⟩
  · rw [heq]
    exact hconcludes.keeps.config
  · rw [hending, heq]
    exact hconcludes.schedule
  · rw [hending, houtcomes, hendings]
    simp [outcomes, hy, hrunning, endingOf]
  · rw [hconclude]
    exact (Option.some.inj (hending.symm.trans he)).symm

/-- The only way for a cycle to end is to go on with the outcome of its request. -/
theorem Move.ending {w : Surroundings α} (horderly : c.Orderly given) (hmove : Move w given c d) :
    Remembers c d ∧ ∀ e, ending? c d = some e → Ends w c e := by
  have hquiet (hstays : Stays c d) : Remembers c d ∧ ∀ e, ending? c d = some e → Ends w c e := by
    refine ⟨hstays.remembers, fun e he => ?_⟩
    cases hstays.ending.symm.trans he
  cases hmove with
  | wait hwait => exact hquiet hwait.stays
  | start ticked now hcycle _ => exact hquiet (stays_start ticked now hcycle)
  | make hy hdue => exact hquiet (stays_make w hy hdue)
  | resume hy hrunning hcalled hfetched =>
    exact horderly.remembers_resume w hy hrunning hcalled hfetched
  | clear hy hended => exact hquiet (stays_clear hy hended)

/-- What is kept by every event, for an orderly controller and what it remembers. -/
theorem Orderly.remembers (horderly : c.Orderly fun _ _ => True) (w : Surroundings α)
    (event : Event α) :
    Remembers c (c.step w event) ∧ (c.step w event).Orderly (fun _ _ => True) ∧
      ∀ e, ending? c (c.step w event) = some e → Ends w c e := by
  have hmove : Move w (fun _ _ => True) c (c.step w event) := .of_step w fun _ _ _ => trivial
  obtain ⟨hremembers, hending⟩ := hmove.ending horderly
  exact ⟨hremembers, horderly.move (fun _ _ _ => trivial) hmove, hending⟩

/-- **The schedule at the end of a run is the one after its history**, and the outcomes that were
told are those of its history. -/
theorem schedule_run (horderly : c.Orderly fun _ _ => True) (w : Surroundings α)
    (events : List (Event α)) :
    (c.run w events).config = c.config ∧
      (c.run w events).schedule =
        (history w c events).foldr (Schedule.after c.config.retryBackoffSeconds) c.schedule ∧
      (c.run w events).outcomes = c.outcomes ++ (history w c events).reverse.map (·.outcome) := by
  induction events generalizing c with
  | nil => exact ⟨rfl, rfl, (List.append_nil _).symm⟩
  | cons event rest ih =>
    obtain ⟨hremembers, hstep, -⟩ := horderly.remembers w event
    obtain ⟨hconfig, hschedule, houtcomes⟩ := ih hstep
    have hrun : c.run w (event :: rest) = (c.step w event).run w rest := rfl
    rw [hrun]
    refine ⟨hconfig.trans hremembers.config, ?_, ?_⟩
    · rw [hschedule, hremembers.config, hremembers.schedule, history, List.foldr_append]
    · rw [houtcomes, hremembers.outcomes, history, List.reverse_append, List.map_append,
        List.append_assoc]
      cases ending? c (c.step w event) <;> rfl

/-- What holds of the ending of every cycle that goes on holds of all endings in the history of a
run. -/
theorem forall_history {holds : Ending α → Prop} (w : Surroundings α)
    (hends : ∀ d : Controller α, d.Orderly (fun _ _ => True) → ∀ e, Ends w d e → holds e)
    (horderly : c.Orderly fun _ _ => True) (events : List (Event α)) :
    ∀ e ∈ history w c events, holds e := by
  induction events generalizing c with
  | nil =>
    intro e he
    cases he
  | cons event rest ih =>
    obtain ⟨-, hstep, hending⟩ := horderly.remembers w event
    intro e he
    rcases List.mem_append.mp he with he | he
    · exact ih hstep e he
    · exact hends c horderly e (hending e (Option.mem_toList.mp he))

/-- A cycle that succeeded has set nothing back. -/
theorem setsBack_of_isSuccess (horderly : c.Orderly fun _ _ => True) (w : Surroundings α)
    (events : List (Event α)) :
    ∀ e ∈ history w c events, e.outcome.isSuccess = true → e.setsBack = false := by
  refine forall_history w (fun d hd e hends hsuccess => ?_) horderly events
  obtain ⟨y, fetched, hy, hfetched, rfl⟩ := hends
  have hconcludes := Concludes.conclude w fetched y.startedAt (hd.busy hy hfetched).2
  have hquiet := hconcludes.quiet hsuccess
  have hfailure := Outcome.isFailure_of_isSuccess hsuccess
  simp [Ending.setsBack, endingOf, hquiet]
  exact hfailure

/-- **Among articulate surroundings every history is plain.** -/
theorem isPlain_history {w : Surroundings α} (hw : w.Articulate)
    (horderly : c.Orderly fun _ _ => True) (events : List (Event α)) :
    IsPlain (history w c events) := by
  refine .of_isFaithful (forall_history w ?_ horderly events)
  rintro d hd e ⟨y, fetched, hy, hfetched, rfl⟩
  exact conclude_faithful hw (hd.worded hy hfetched) y.startedAt (hd.busy hy hfetched).2

end Controller

end MarketMaker.Refresh
