import MarketMaker.Proofs.Refresh.History
import MarketMaker.Proofs.Refresh.Learning
import MarketMaker.Proofs.Refresh.Stopping

/-!
# From the start of a cycle to its end

A **lull** is a stretch of a run in which no cycle starts and none goes on. `Lull c d` says what it
leaves alone: everything that outlasts a stop, what the cycles came to, what failures were reported,
what was seen of the published set, and the source of risk aversion, unless that is replaced by a
fresh one. The cycle in flight stays what it is, or is taken out of flight if it has come to its
end.

So all that a cycle does it does in one moment, when it goes on with the outcome of its request. A
stretch of a run in which no further cycle starts is a lull, or it is a lull up to that moment and a
lull again from then on (`lull_or_goesOn`).
-/

namespace MarketMaker.Refresh

variable {α : Type}

/-- The failure that a listener is told of. -/
def Occurrence.report? : Occurrence α → Option (Failure α)
  | .failed f => some f
  | _ => none

theorem Occurrence.report?_of_isAside {o : Occurrence α} (h : o.isAside = true) :
    o.report? = none := by
  cases o <;> first | rfl | cases h

namespace Controller

/-- The failures that were reported. -/
def reports (c : Controller α) : List (Failure α) := c.trace.filterMap fun e => e.2.report?

/-- What a lull leaves alone beside the skeleton. -/
def stance (c : Controller α) :
    Option (Gamma.Source α) × Nat × List (Failure α) × List (Sight α) × Choice Mode α :=
  (c.source, c.switches, c.reports, c.sights, c.mode)

variable {c d e : Controller α}

@[simp] theorem reports_note (o : Occurrence α) (c : Controller α) :
    (c.note o).reports = c.reports ++ o.report?.toList := by
  cases h : o.report? <;> simp [reports, note, h]

@[simp] theorem reports_log (level : Log.Level) (message : String)
    (context : List (String × Value α)) (c : Controller α) :
    (c.log level message context).reports = c.reports := by
  rw [log, reports_note]
  exact List.append_nil _

/-- Nothing is reported in passing. -/
theorem Aside.reports (h : Aside c d) : d.reports = c.reports := by
  obtain ⟨said, htrace, hsaid⟩ := h.trace
  have hnone : said.filterMap (fun e => e.2.report?) = [] := by
    rw [List.filterMap_eq_nil_iff]
    exact fun e he => Occurrence.report?_of_isAside (hsaid e he).2
  rw [Controller.reports, htrace, List.filterMap_append, hnone, List.append_nil, Controller.reports]

/-! ## Events that report nothing and leave the source in place -/

theorem stance_note {o : Occurrence α} (hreport : o.report? = none) (hsight : o.sight? = none)
    (c : Controller α) : (c.note o).stance = c.stance := by
  have hreports : (c.note o).reports = c.reports := by simp [hreport]
  have hsights : (c.note o).sights = c.sights := by simp [hsight]
  rw [stance, hreports, hsights]
  rfl

@[simp] theorem stance_onRequest (f : Request α (List (Bar α)) → Request α (List (Bar α)))
    (c : Controller α) : (c.onRequest f).stance = c.stance := by
  unfold onRequest
  cases c.cycle with
  | none => rfl
  | some y =>
    dsimp only
    split
    · split
      · exact stance_note rfl rfl _
      · rfl
    · rfl

@[simp] theorem stance_halt (c : Controller α) : c.halt.stance = c.stance := stance_onRequest _ _

@[simp] theorem stance_settling (w : Surroundings α)
    (f : Request α (List (Bar α)) → Request α (List (Bar α))) (c : Controller α) :
    (c.settling w f).stance = c.stance := by
  rcases settling_cases w f c with heq | heq
  · rw [heq, stance_onRequest]
  · rw [heq, stance_halt, stance_onRequest]

theorem stance_stop (w : Surroundings α) (c : Controller α) : (c.stop w).stance = c.stance :=
  stance_settling w .cancel _

theorem stance_answer (call : Nat) (a : Except (Failure α) (List (Bar α))) (c : Controller α) :
    (c.answer call a).stance = c.stance := by
  unfold answer
  split
  · split
    · exact stance_onRequest _ c
    · rfl
  · rfl

theorem stance_make (w : Surroundings α) (c : Controller α) : (c.make w).stance = c.stance := by
  rcases make_cases w c with heq | ⟨y, hy, hdue⟩
  · rw [heq]
  · simp only [make, hy, hdue]
    exact stance_note rfl rfl _

theorem stance_release (c : Controller α) : c.release.stance = c.stance := by
  have hsaid (entries : List (Log.Entry α)) (c : Controller α) :
      (entries.foldl (fun c e => c.note (.logged e)) c).stance = c.stance := by
    induction entries generalizing c with
    | nil => rfl
    | cons e rest ih => exact (ih _).trans (stance_note rfl rfl c)
  unfold release
  split
  · rfl
  · exact hsaid _ _

variable [NumberText α]

theorem stance_expire (w : Surroundings α) (c : Controller α) : (c.expire w).stance = c.stance := by
  rw [expire, stance_onRequest, stance_settling]

theorem stance_deliver (w : Surroundings α) (c : Controller α) :
    (c.deliver w).stance = c.stance := by
  have hclosed :
      ((c.settling w .receive).onRequest fun r => if r.isOpen then r else r.detach).stance =
        c.stance := by
    rw [stance_onRequest, stance_settling]
  unfold deliver
  dsimp only
  split
  · exact (stance_note rfl rfl _).trans hclosed
  · exact hclosed

theorem stance_clear [Scalar α] (c : Controller α) : c.clear.stance = c.stance := by
  rcases clear_cases c with heq | ⟨y, outcome, hy, hended⟩
  · rw [heq]
  · have hnoted (o : Outcome α) :
        (({ c with cycle := none } : Controller α).note (.ended y.number o)).stance = c.stance :=
      stance_note rfl rfl _
    simp only [clear, hy, hended]
    cases outcome with
    | broken f =>
      unfold abandon
      dsimp only
      split
      · exact (stance_note rfl rfl _).trans (hnoted _)
      · exact hnoted _
    | _ => exact hnoted _

/-! ## Lulls -/

variable [Scalar α]

/-- What is left of a controller after a stretch of a run in which no cycle starts and none goes
on. -/
structure Lull (c d : Controller α) : Prop where
  /-- What no event changes after a stop is as it was. -/
  lasting : d.lasting = c.lasting
  /-- A stop is not taken back. -/
  stopped : c.stopped = true → d.stopped = true
  /-- No outcome was told. -/
  outcomes : d.outcomes = c.outcomes
  /-- No failure was reported. -/
  reports : d.reports = c.reports
  /-- No set was seen by anyone. -/
  sights : d.sights = c.sights
  /-- No source was asked. -/
  learns : Learns 0 c d
  /-- Where no cycle was in flight, none is. -/
  noCycle : c.cycle = none → d.cycle = none
  /-- The cycle in flight is the same still, or was over and is put away. -/
  inFlight : ∀ y, c.cycle = some y →
    (∃ z, d.cycle = some z ∧ z.number = y.number ∧ z.startedAt = y.startedAt ∧
      z.outcome = y.outcome) ∨
    d.cycle = none ∧ y.outcome ≠ none

omit [NumberText α] in
theorem Lull.refl (c : Controller α) : Lull c c :=
  ⟨rfl, id, rfl, rfl, rfl, .refl c, id, fun y hy => .inl ⟨y, hy, rfl, rfl, rfl⟩⟩

omit [NumberText α] in
theorem Lull.trans (h₁ : Lull c d) (h₂ : Lull d e) : Lull c e := by
  refine ⟨h₂.lasting.trans h₁.lasting, h₂.stopped ∘ h₁.stopped, h₂.outcomes.trans h₁.outcomes,
    h₂.reports.trans h₁.reports, h₂.sights.trans h₁.sights, h₁.learns.before h₂.learns,
    h₂.noCycle ∘ h₁.noCycle, fun y hy => ?_⟩
  rcases h₁.inFlight y hy with ⟨z, hz, hnumber, hstarted, hended⟩ | ⟨hnone, hended⟩
  · rcases h₂.inFlight z hz with ⟨x, hx, hnumber', hstarted', hended'⟩ | ⟨hnone, hended'⟩
    · exact .inl ⟨x, hx, hnumber'.trans hnumber, hstarted'.trans hstarted, hended'.trans hended⟩
    · exact .inr ⟨hnone, hended ▸ hended'⟩
  · exact .inr ⟨h₂.noCycle hnone, hended⟩

omit [NumberText α] in
theorem Lull.cycles (h : Lull c d) : d.cycles = c.cycles := (congrArg Controller.cycles h.lasting :)

omit [NumberText α] in
/-- A cycle that has come to its end does not go on in a lull. -/
theorem Lull.ended (h : Lull c d) (hended : ∀ y, c.cycle = some y → y.outcome ≠ none) :
    ∀ y, d.cycle = some y → y.outcome ≠ none := by
  intro z hz
  cases hcycle : c.cycle with
  | none =>
    rw [h.noCycle hcycle] at hz
    cases hz
  | some y =>
    rcases h.inFlight y hcycle with ⟨x, hx, -, -, hsame⟩ | ⟨hnone, -⟩
    · obtain rfl := Option.some.inj (hz.symm.trans hx)
      rw [hsame]
      exact hended y hcycle
    · rw [hnone] at hz
      cases hz

variable {given : Nat → Except (Failure α) (List (Bar α)) → Prop}

theorem Waits.lull (h : Waits given c d) (hreports : d.reports = c.reports)
    (hsights : d.sights = c.sights) (hlearns : Learns 0 c d) : Lull c d := by
  refine ⟨lasting_eq_of_skeleton h.skeleton, h.stopped, h.stays.outcomes, hreports,
    hsights, hlearns, h.noCycle, fun y hy => ?_⟩
  obtain ⟨r, hr, -⟩ := h.inFlight y hy
  exact .inl ⟨_, hr, rfl, rfl, rfl⟩

/-- An event that leaves the source in place. -/
theorem Waits.lull_of_stance (h : Waits (fun _ _ => True) c d) (hstance : d.stance = c.stance) :
    Lull c d :=
  h.lull (congrArg (·.2.2.1) hstance :) (congrArg (·.2.2.2.1) hstance :)
    (.of_same (congrArg Controller.config h.skeleton :) (congrArg (·.2.1) hstance :)
      (congrArg (·.1) hstance :))

theorem sights_switched (mode : Choice Mode α) (c : Controller α) :
    (c.switched mode).2.sights = c.sights := by
  unfold switched
  cases hset : c.setMode mode with
  | error e => rfl
  | ok after =>
    obtain ⟨source, -, rfl⟩ := setMode_eq_ok hset
    exact sights_log _ _ _ _

theorem Lull.switched (mode : Choice Mode α) (c : Controller α) : Lull c (c.switched mode).2 := by
  have hwaits : Waits (fun _ _ => True) c (c.switched mode).2 := .switched mode c
  exact hwaits.lull (Aside.switched mode c).reports (sights_switched mode c) (.switched mode c)

omit [NumberText α] in
theorem Lull.make (w : Surroundings α) {y : Cycle α} (hy : c.cycle = some y)
    (hdue : y.request.call = .due) : Lull c (c.make w) := by
  have hstance := stance_make w c
  have hstays := stays_make w hy hdue
  obtain ⟨r, heq, -⟩ := make_spec w hy hdue
  rw [heq] at hstance hstays ⊢
  refine ⟨rfl, id, hstays.outcomes, (congrArg (·.2.2.1) hstance :),
    (congrArg (·.2.2.2.1) hstance :), .of_same rfl rfl rfl, fun hnone => ?_, fun z hz => ?_⟩
  · rw [hnone] at hy
    cases hy
  · obtain rfl := Option.some.inj (hy.symm.trans hz)
    exact .inl ⟨_, rfl, rfl, rfl, rfl⟩

theorem Lull.clear {y : Cycle α} {outcome : Outcome α} (hy : c.cycle = some y)
    (hended : y.outcome = some outcome) : Lull c c.clear := by
  have hstance := stance_clear c
  obtain ⟨hskeleton, hnone, hstopped, -⟩ := clear_spec hy hended
  refine ⟨lasting_eq_of_skeleton hskeleton, fun h => hstopped.trans h,
    (stays_clear hy hended).outcomes, (congrArg (·.2.2.1) hstance :),
    (congrArg (·.2.2.2.1) hstance :), .of_same (congrArg Controller.config hskeleton :)
    (congrArg (·.2.1) hstance :) (congrArg (·.1) hstance :), fun _ => hnone, fun z hz => ?_⟩
  obtain rfl := Option.some.inj (hy.symm.trans hz)
  exact .inr ⟨hnone, by rw [hended]; exact Option.some_ne_none outcome⟩

/-! ## The moment when a cycle goes on -/

/-- The cycle in flight is ready to go on with the outcome of its request. -/
structure GoesOn (c : Controller α) (y : Cycle α)
    (fetched : Except (Failure α) (List (Bar α))) : Prop where
  /-- It is in flight. -/
  cycle : c.cycle = some y
  /-- It has not run to its end. -/
  running : y.outcome = none
  /-- Its call was made. -/
  called : y.request.call ≠ .due
  /-- Its request has come to this. -/
  fetched : y.request.outcome = some fetched

/-- An event starts a cycle, or lets the one in flight go on, or belongs to a lull. -/
theorem step_cases (w : Surroundings α) (c : Controller α) (event : Event α) :
    Lull c (c.step w event) ∨
      c.stopped = false ∧ (∃ ticked now, c.step w event = c.start ticked now) ∨
      event = .resume ∧ ∃ y fetched, GoesOn c y fetched := by
  cases event with
  | tick now =>
    simp only [step, ticked]
    cases ht : c.tick now with
    | error f => exact .inl (.refl c)
    | ok after =>
      rcases tick_cases ht with rfl | ⟨rfl, -, hstopped⟩
      · exact .inl (.refl _)
      · exact .inr (.inl ⟨hstopped, true, now, rfl⟩)
  | refresh now =>
    simp only [step, refresh]
    cases hcycle : c.cycle with
    | some y => exact .inl (.refl c)
    | none =>
      cases hstopped : c.stopped with
      | true => exact .inl (.refl c)
      | false => exact .inr (.inl ⟨rfl, false, now, rfl⟩)
  | stop => exact .inl (Waits.lull_of_stance (.stop w c) (stance_stop w c))
  | setMode mode => exact .inl (.switched mode c)
  | answer call a =>
    exact .inl (Waits.lull_of_stance (.answer trivial c) (stance_answer call a c))
  | expire => exact .inl (Waits.lull_of_stance (.expire w c) (stance_expire w c))
  | make =>
    simp only [step]
    rcases make_cases w c with heq | ⟨y, hy, hdue⟩
    · rw [heq]
      exact .inl (.refl c)
    · exact .inl (.make w hy hdue)
  | deliver => exact .inl (Waits.lull_of_stance (.deliver w c) (stance_deliver w c))
  | resume =>
    simp only [step]
    rcases resume_cases w c with heq | ⟨y, fetched, hy, hrunning, hcalled, hfetched⟩
    · rw [heq]
      exact .inl (.refl c)
    · exact .inr (.inr ⟨trivial, y, fetched, hy, hrunning, hcalled, hfetched⟩)
  | clear =>
    simp only [step]
    rcases clear_cases c with heq | ⟨y, outcome, hy, hended⟩
    · rw [heq]
      exact .inl (.refl c)
    · exact .inl (.clear hy hended)
  | release => exact .inl (Waits.lull_of_stance (.release c) (stance_release c))

variable [Numeric α]

/-- The cycle that goes on comes to its end, and stays in flight. -/
theorem GoesOn.resume {y : Cycle α} {fetched : Except (Failure α) (List (Bar α))}
    (h : GoesOn c y fetched) (horderly : c.Orderly given) (w : Surroundings α) :
    Concludes y.startedAt c (c.conclude w fetched y.startedAt).1
      (c.conclude w fetched y.startedAt).2 ∧
      c.resume w = { (c.conclude w fetched y.startedAt).2 with
        phase := .idle
        cycle := some { y with outcome := some (c.conclude w fetched y.startedAt).1 } } := by
  obtain ⟨outcome, after, hconclude, hconcludes, heq⟩ :=
    horderly.resume_spec w h.cycle h.running h.called h.fetched
  rw [hconclude]
  exact ⟨hconcludes, heq⟩

theorem GoesOn.outcomes_resume {y : Cycle α} {fetched : Except (Failure α) (List (Bar α))}
    (h : GoesOn c y fetched) (horderly : c.Orderly given) (w : Surroundings α) :
    (c.resume w).outcomes = c.outcomes ++ [(c.conclude w fetched y.startedAt).1] := by
  obtain ⟨hconcludes, heq⟩ := h.resume horderly w
  obtain ⟨said, htrace, hsaid⟩ := hconcludes.keeps.trace
  have hendings := endings_eq_of_said htrace hsaid
  rw [heq, outcomes, outcomes, h.cycle]
  simp only [Option.bind_some, h.running, Option.toList_none, List.append_nil]
  rw [← hendings]
  rfl

/-- How many cycles were started never decreases. -/
theorem cycles_le_run (horderly : c.Orderly fun _ _ => True) (w : Surroundings α)
    (events : List (Event α)) : c.cycles ≤ (c.run w events).cycles := by
  have hholds := run_invariant (fun d => d.Orderly (fun _ _ => True) ∧ c.cycles ≤ d.cycles) w events
    (fun d hd event _ => ?_) ⟨horderly, Nat.le_refl _⟩
  · exact hholds.2
  · obtain ⟨hd, hle⟩ := hd
    refine ⟨hd.event w event, ?_⟩
    rcases step_cases w d event with hlull | ⟨-, ticked, now, heq⟩ | ⟨rfl, y, fetched, hgoes⟩
    · rwa [hlull.cycles]
    · rw [heq]
      exact Nat.le_succ_of_le hle
    · obtain ⟨hconcludes, heq⟩ := hgoes.resume hd w
      have hcycles : (d.resume w).cycles = d.cycles := by
        rw [heq]
        exact (congrArg Controller.cycles hconcludes.keeps.frame :)
      simpa only [step, hcycles] using hle

/-- Once the cycle in flight has come to its end, all is a lull until the next cycle starts. None
starts after a stop. -/
theorem Lull.of_ended (horderly : c.Orderly fun _ _ => True) (w : Surroundings α)
    (events : List (Event α)) (hended : ∀ y, c.cycle = some y → y.outcome ≠ none)
    (hlast : c.stopped = true ∨ (c.run w events).cycles = c.cycles) : Lull c (c.run w events) := by
  induction events generalizing c with
  | nil => exact .refl c
  | cons event rest ih =>
    have hstep := horderly.event w event
    rcases step_cases w c event with hlull | ⟨hstopped, ticked, now, heq⟩ | ⟨-, y, fetched, hgoes⟩
    · refine hlull.trans (ih hstep (hlull.ended hended) ?_)
      exact hlast.imp hlull.stopped fun hsame => hsame.trans hlull.cycles.symm
    · have hle := cycles_le_run hstep w rest
      rcases hlast with hstopped' | hsame
      · exact absurd (hstopped.symm.trans hstopped') (by simp)
      · have hrun : c.run w (event :: rest) = (c.step w event).run w rest := rfl
        have hstarted : (c.start ticked now).cycles = c.cycles + 1 := rfl
        rw [hrun] at hsame
        rw [heq] at hle hsame
        omega
    · exact absurd hgoes.running (hended y hgoes.cycle)

/-- **All that a cycle does it does in one moment.** As long as no further cycle starts, a run is a
lull, but for the moment when the cycle in flight goes on. -/
theorem lull_or_goesOn (horderly : c.Orderly fun _ _ => True) (w : Surroundings α)
    (events : List (Event α)) (hsame : (c.run w events).cycles = c.cycles) :
    Lull c (c.run w events) ∨ ∃ waits rest y fetched, events = waits ++ .resume :: rest ∧
      Lull c (c.run w waits) ∧ GoesOn (c.run w waits) y fetched ∧
      Lull ((c.run w waits).resume w) (c.run w events) := by
  induction events generalizing c with
  | nil => exact .inl (.refl c)
  | cons event rest ih =>
    have hstep := horderly.event w event
    have hrun : c.run w (event :: rest) = (c.step w event).run w rest := rfl
    rw [hrun] at hsame ⊢
    rcases step_cases w c event with hlull | ⟨-, ticked, now, heq⟩ | ⟨rfl, y, fetched, hgoes⟩
    · rcases ih hstep (hsame.trans hlull.cycles.symm) with hrest | hrest
      · exact .inl (hlull.trans hrest)
      · obtain ⟨waits, later, y, fetched, rfl, hwaits, hgoes, hlater⟩ := hrest
        exact .inr ⟨event :: waits, later, y, fetched, rfl, hlull.trans hwaits, hgoes, hlater⟩
    · have hle := cycles_le_run hstep w rest
      have hstarted : (c.start ticked now).cycles = c.cycles + 1 := rfl
      rw [heq] at hle hsame
      omega
    · obtain ⟨hconcludes, heq⟩ := hgoes.resume horderly w
      have hcycles : (c.resume w).cycles = c.cycles := by
        rw [heq]
        exact (congrArg Controller.cycles hconcludes.keeps.frame :)
      refine .inr ⟨[], rest, y, fetched, rfl, .refl c, hgoes, .of_ended hstep w rest ?_ (.inr ?_)⟩
      · intro z hz hnone
        simp only [step, heq] at hz
        obtain rfl := Option.some.inj hz
        cases hnone
      · exact hsame.trans hcycles.symm

omit [Scalar α] [Numeric α] in
/-- The outcome of a cycle in flight is the next one. -/
theorem Orderly.length_outcomes (h : c.Orderly given) {y : Cycle α} (hy : c.cycle = some y)
    (hrunning : y.outcome = none) : c.outcomes.length = y.number := by
  rw [h.endings.2.2 y hy]
  simp [outcomes, hy, hrunning, ended]

/-- A cycle in flight that has come to an outcome, with no further cycle started, went on at one
moment in between. -/
theorem exists_goesOn (horderly : c.Orderly fun _ _ => True) (w : Surroundings α)
    {events : List (Event α)} {y : Cycle α} {outcome : Outcome α} (hy : c.cycle = some y)
    (hrunning : y.outcome = none) (hsame : (c.run w events).cycles = c.cycles)
    (houtcome : (c.run w events).outcomes[y.number]? = some outcome) :
    ∃ waits rest z fetched, events = waits ++ .resume :: rest ∧ Lull c (c.run w waits) ∧
      GoesOn (c.run w waits) z fetched ∧ z.number = y.number ∧ z.startedAt = y.startedAt ∧
      ((c.run w waits).conclude w fetched z.startedAt).1 = outcome ∧
      Lull ((c.run w waits).resume w) (c.run w events) := by
  -- So there is no outcome for its number yet.
  have hcount := horderly.length_outcomes hy hrunning
  rcases lull_or_goesOn horderly w events hsame with
    hlull | ⟨waits, rest, z, fetched, heq, hwaits, hgoes, hlater⟩
  · rw [hlull.outcomes, List.getElem?_eq_none (by omega)] at houtcome
    cases houtcome
  · have hr := horderly.run w waits
    refine ⟨waits, rest, z, fetched, heq, hwaits, hgoes, ?_⟩
    rcases hwaits.inFlight y hy with ⟨x, hx, hnumber, hstarted, -⟩ | ⟨-, hended⟩
    · obtain rfl := Option.some.inj (hx.symm.trans hgoes.cycle)
      rw [hlater.outcomes, hgoes.outcomes_resume hr w, hwaits.outcomes, ← hcount,
        List.getElem?_concat_length] at houtcome
      exact ⟨hnumber, hstarted, Option.some.inj houtcome, hlater⟩
    · exact absurd hrunning hended

end Controller

end MarketMaker.Refresh
