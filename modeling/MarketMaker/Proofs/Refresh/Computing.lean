import MarketMaker.Proofs.Refresh.Lulls

/-!
# What a cycle comes to when it goes on

A cycle that goes on with bars, and is not stopped, computes. `Computes c y bars b` is the moment
when it begins to, `ComesTo` what parameters it comes to, and `Consults` which source of risk
aversion it asks.

Only a cycle that comes to parameters touches what is published and when the last success was. Every
other one leaves the controller `Untouched`, whatever it ends as.
-/

namespace MarketMaker.Refresh.Controller

variable {α : Type} {c d e : Controller α}

/-- What is published, and when the last success was, is as it was, and no listener was told of a
new set. -/
structure Untouched (c d : Controller α) : Prop where
  /-- The published set is the same. -/
  published : d.published = c.published
  /-- It was not replaced by an equal one either. -/
  publications : d.publications = c.publications
  /-- The time of the last success is the same. -/
  lastUpdate : d.schedule.lastUpdate = c.schedule.lastUpdate
  /-- No listener was told of a set. -/
  told : d.calls.publish = c.calls.publish

theorem Untouched.refl (c : Controller α) : Untouched c c := ⟨rfl, rfl, rfl, rfl⟩

theorem Untouched.trans (h₁ : Untouched c d) (h₂ : Untouched d e) : Untouched c e :=
  ⟨h₂.published.trans h₁.published, h₂.publications.trans h₁.publications,
    h₂.lastUpdate.trans h₁.lastUpdate, h₂.told.trans h₁.told⟩

theorem Untouched.symm (h : Untouched c d) : Untouched d c :=
  ⟨h.published.symm, h.publications.symm, h.lastUpdate.symm, h.told.symm⟩

theorem Aside.untouched (h : Aside c d) : Untouched c d :=
  ⟨h.published, h.publications, congrArg (·.lastUpdate) h.schedule,
    (congrArg (fun x => x.calls.publish) h.core :)⟩

theorem Lull.untouched [Scalar α] (h : Lull c d) : Untouched c d :=
  ⟨(congrArg Controller.published h.lasting :), (congrArg Controller.publications h.lasting :),
    (congrArg (fun x => x.schedule.lastUpdate) h.lasting :),
    (congrArg (fun x => x.calls.publish) h.lasting :)⟩

variable [Scalar α] [NumberText α]

/-- The cycle in flight goes on with bars, and computes from them as a controller. -/
structure Computes (c : Controller α) (y : Cycle α) (bars : List (Bar α)) (b : Controller α) : Prop
    extends GoesOn c y (.ok bars) where
  /-- The controller is not stopped. -/
  stopped : c.stopped = false
  /-- It has warned of a short series, if it is short, and computes. -/
  begun : ∃ warned, c.warnShort bars = .ok warned ∧ b = { warned with phase := .computing }

/-- The cycle in flight computes a set of parameters when it goes on. -/
def ComesTo (w : Surroundings α) (c : Controller α) (next : Parameters α) : Prop :=
  ∃ y bars b, Computes c y bars b ∧ (b.compute w bars y.startedAt).1 = .ok next

/-- The cycle in flight asks a source of risk aversion when it goes on, and tells it something. -/
def Consults (w : Surroundings α) (c : Controller α) (source : Gamma.Source α)
    (context : Gamma.Context α) : Prop :=
  ∃ y bars b, Computes c y bars b ∧ b.consultation? w bars y.startedAt = some (source, context)

variable {w : Surroundings α} {y : Cycle α} {bars : List (Bar α)} {b : Controller α}

/-- A cycle that computes comes to what it computed, or to what was thrown. -/
theorem Computes.conclude_eq (h : Computes c y bars b) (w : Surroundings α) :
    c.conclude w (.ok bars) y.startedAt =
      match b.compute w bars y.startedAt with
      | (.error f, after) => after.caught w f y.startedAt
      | (.ok next, after) =>
        match { after with phase := .publishing }.publish w next y.startedAt with
        | (.ok outcome, after) => (outcome, after)
        | (.error f, after) => after.caught w f y.startedAt := by
  obtain ⟨warned, hwarned, rfl⟩ := h.begun
  dsimp only [conclude]
  rw [h.stopped, hwarned]
  rfl

/-- There is one moment when a cycle begins to compute. -/
theorem Computes.eq {y' : Cycle α} {bars' : List (Bar α)} {b' : Controller α}
    (h : Computes c y bars b) (h' : Computes c y' bars' b') : y' = y ∧ bars' = bars ∧ b' = b := by
  obtain rfl := Option.some.inj (h.cycle.symm.trans h'.cycle)
  obtain rfl := Except.ok.inj (Option.some.inj (h.fetched.symm.trans h'.fetched))
  obtain ⟨warned, hwarned, rfl⟩ := h.begun
  obtain ⟨warned', hwarned', rfl⟩ := h'.begun
  obtain rfl := Except.ok.inj (hwarned.symm.trans hwarned')
  exact ⟨rfl, rfl, rfl⟩

/-- What the stages before publishing leave of a controller, with how often they asked the source in
place. -/
structure Prepares (asked : Nat) (c d : Controller α) : Prop extends Steady c d where
  /-- Nothing is published. -/
  untouched : Untouched c d
  /-- No failure is reported. -/
  reports : d.reports = c.reports
  /-- The source was asked so often. -/
  learns : Learns asked c d

omit [NumberText α] in
theorem Prepares.trans {asked asked' : Nat} (h₁ : Prepares asked c d) (h₂ : Prepares asked' d e) :
    Prepares (asked + asked') c e :=
  ⟨h₁.toSteady.trans h₂.toSteady, h₁.untouched.trans h₂.untouched, h₂.reports.trans h₁.reports,
    h₁.learns.trans h₂.learns⟩

omit [NumberText α] in
theorem Aside.prepares {asked : Nat} (h : Aside c d) (hlearns : Learns asked c d) :
    Prepares asked c d :=
  ⟨h.steady, h.untouched, h.reports, hlearns⟩

omit [NumberText α] in
/-- Going on to another phase. -/
theorem Prepares.enter (phase : Phase) (c : Controller α) : Prepares 0 c { c with phase } :=
  ⟨.enter phase c, ⟨rfl, rfl, rfl, rfl⟩, rfl, .of_same rfl rfl rfl⟩

variable [Numeric α]

/-- A cycle that goes on with bars computes, unless it is stopped. -/
theorem GoesOn.computes (h : GoesOn c y (.ok bars)) (hstopped : c.stopped = false) :
    ∃ b, Computes c y bars b := by
  obtain ⟨warned, hwarned, -⟩ := warnShort_spec bars c
  exact ⟨_, h, hstopped, warned, hwarned, rfl⟩

omit [NumberText α] [Numeric α] in
/-- A controller that has warned of a short series and begins to compute. -/
def beginShort (bars : List (Bar α)) (c : Controller α) : Controller α :=
  { c.log .warn "Market data provider returned fewer bars than requested"
      [("symbol", c.config.symbol), ("requested", .number c.config.lookback),
        ("received", .number (bars.length : α))] with phase := .computing }

/-- A cycle that goes on with fewer bars than it asked for warns of that, and computes from them. -/
theorem GoesOn.computes_short (h : GoesOn c y (.ok bars)) (hstopped : c.stopped = false)
    (hshort : (bars.length : α) < c.config.lookback) : Computes c y bars (c.beginShort bars) := by
  refine ⟨h, hstopped, _, ?_, rfl⟩
  simp only [warnShort, checkUsable_eq_ok, bind, Except.bind, pure, Except.pure, if_pos hshort]

/-- A cycle that begins to compute has at most warned of a short series. -/
theorem Computes.begins (h : Computes c y bars b) :
    ∃ warned, Aside c warned ∧ Learns 0 c warned ∧ b = { warned with phase := .computing } := by
  obtain ⟨warned, hwarned, rfl⟩ := h.begun
  refine ⟨warned, ?_⟩
  simp only [warnShort, checkUsable_eq_ok, bind, Except.bind, pure, Except.pure] at hwarned
  obtain rfl := Except.ok.inj hwarned
  split
  · exact ⟨.log _ _ _ c, .of_same rfl rfl rfl, rfl⟩
  · exact ⟨.refl c, .refl c, rfl⟩

theorem Computes.prepares (h : Computes c y bars b) : Prepares 0 c b := by
  obtain ⟨warned, haside, hlearns, rfl⟩ := h.begins
  exact (haside.prepares hlearns).trans (.enter .computing warned)

/-- A computation leaves alone what is published, and consults the source once at most. -/
theorem Computes.prepares_compute (h : Computes c y bars b) (hbusy : c.Busy) (w : Surroundings α) :
    ∃ asked ≤ 1, Prepares asked c (b.compute w bars y.startedAt).2 ∧
      ((∀ source context, ¬ Consults w c source context) → asked = 0) := by
  have hbegun := h.prepares
  have hb := hbegun.keeps.busy hbusy
  obtain ⟨asked, hasked, hlearns, hnone⟩ := Learns.compute w bars y.startedAt hb
  have hcomputed := hbegun.trans ((Aside.compute w bars y.startedAt hb).prepares hlearns)
  refine ⟨asked, hasked, by simpa using hcomputed, fun hquiet => hnone ?_⟩
  cases hconsults : b.consultation? w bars y.startedAt with
  | none => rfl
  | some consultation =>
    exact absurd ⟨y, bars, b, h, hconsults⟩ (hquiet consultation.1 consultation.2)

/-- **A cycle stage by stage.** What each stage of a cycle brings about, one after the other, holds
of the whole of it: from its beginning to the controller that it leaves behind. -/
theorem GoesOn.conclude_stages {fetched : Except (Failure α) (List (Bar α))}
    (h : GoesOn c y fetched) (hbusy : c.Busy) (w : Surroundings α)
    {holds : Controller α → Controller α → Prop} (hrefl : ∀ d, holds d d)
    (htrans : ∀ {d e f}, holds d e → holds e f → holds d f)
    (hbegins : ∀ {bars b}, fetched = .ok bars → Computes c y bars b → holds c b)
    (hcomputes : ∀ {bars b}, fetched = .ok bars → Computes c y bars b → b.Busy →
      holds b (b.compute w bars y.startedAt).2)
    (henters : ∀ d : Controller α, holds d { d with phase := .publishing })
    (hpublishes : ∀ (d : Controller α) next, d.Busy → holds d (d.publish w next y.startedAt).2)
    (hcatches : ∀ (d : Controller α) f, d.Busy → holds d (d.caught w f y.startedAt).2) :
    holds c (c.conclude w fetched y.startedAt).2 := by
  cases fetched with
  | error f => exact hcatches c f hbusy
  | ok bars =>
    cases hstopped : c.stopped with
    | true =>
      rw [conclude_of_stopped w _ _ hstopped]
      exact hrefl c
    | false =>
      obtain ⟨b, hb⟩ := h.computes hstopped
      have hbegun := hb.prepares.keeps.busy hbusy
      have hcomputed := htrans (hbegins rfl hb) (hcomputes rfl hb hbegun)
      have haside := Aside.compute w bars y.startedAt hbegun
      rw [hb.conclude_eq w]
      rcases hcompute : b.compute w bars y.startedAt with ⟨result, computed⟩
      rw [hcompute] at hcomputed haside
      cases result with
      | error f => exact htrans hcomputed (hcatches computed f (haside.busy hbegun))
      | ok next =>
        have hpublishing : ({ computed with phase := .publishing } : Controller α).Busy :=
          haside.busy hbegun
        have hkeeps := (publish_spec w next y.startedAt hpublishing).1
        have hpublished :=
          htrans hcomputed (htrans (henters computed) (hpublishes _ next hpublishing))
        rcases hp : { computed with phase := .publishing }.publish w next y.startedAt
          with ⟨published, after⟩
        rw [hp] at hpublished hkeeps
        simp only [hp]
        cases published with
        | ok outcome => exact hpublished
        | error f => exact htrans hpublished (hcatches after f (hkeeps.busy hpublishing))

/-! ## Failing -/

omit [Numeric α] in
/-- Whatever was thrown in a cycle, what is published stays. -/
theorem Untouched.caught (w : Surroundings α) (f : Failure α) (now : α) (h : c.Busy) :
    Untouched c (c.caught w f now).2 :=
  caught_stages w f now h .refl .trans (fun _ _ _ _ _ => ⟨rfl, rfl, rfl, rfl⟩) (fun _ _ => ⟨rfl,
    rfl, rfl, rfl⟩) fun _ reaction hd => (Aside.tell w reaction hd).untouched

omit [Numeric α] in
/-- A cycle comes to no failure but the one that the listener, if there is one, was told of. -/
theorem tellFailure_reports {f g : Failure α} (h : c.Busy)
    (hfailed : (c.tellFailure w g).1 = .failed f) :
    g = f ∧ (c.tellFailure w g).2.reports = c.reports ++ w.listeners.toList.map fun _ => f := by
  cases hlisteners : w.listeners with
  | none =>
    simp only [tellFailure, hlisteners] at hfailed ⊢
    exact ⟨Outcome.failed.inj hfailed, (List.append_nil _).symm⟩
  | some l =>
    obtain ⟨noted, hnoted⟩ : ∃ noted, noted =
        ({ c with calls := { c.calls with failure := c.calls.failure + 1 } } : Controller α).note
          (.failed g) :=
      ⟨_, rfl⟩
    have hbusy : noted.Busy := by
      rw [hnoted]
      exact h
    have hreports : noted.reports = c.reports ++ [g] := by
      rw [hnoted, reports_note]
      rfl
    have htold := Aside.tell w (l.onFailure c.calls.failure g) hbusy
    simp only [tellFailure, hlisteners, ← hnoted] at hfailed ⊢
    rcases ht : noted.tell w (l.onFailure c.calls.failure g) with ⟨result, after⟩
    rw [ht] at htold hfailed
    cases result with
    | error e => cases hfailed
    | ok _ =>
      obtain rfl := Outcome.failed.inj hfailed
      exact ⟨rfl, htold.reports.trans hreports⟩

/-- A cycle that fails because something was thrown reports its failure once. -/
theorem caught_reports {f g : Failure α} {now : α} (h : c.Busy)
    (hfailed : (c.caught w g now).1 = .failed f) :
    (c.caught w g now).2.reports = c.reports ++ w.listeners.toList.map fun _ => f := by
  unfold Controller.caught at hfailed ⊢
  split at hfailed
  · cases hfailed
  · next hheeded =>
    rw [if_neg hheeded]
    cases he : g.toError with
    | error e =>
      simp only [he] at hfailed
      cases hfailed
    | ok e =>
      simp only [he, fail, checkUsable_eq_ok] at hfailed ⊢
      generalize hdated : log .warn _ _ _ = dated at hfailed ⊢
      have hbusy : dated.Busy := by
        rw [← hdated]
        exact h
      have hbefore : dated.reports = c.reports := by
        rw [← hdated]
        exact reports_log _ _ _ _
      rw [(tellFailure_reports hbusy hfailed).2, hbefore]

/-! ## Publishing -/

omit [Numeric α] in
theorem publish_reports (w : Surroundings α) (next : Parameters α) (now : α) (h : c.Busy) :
    (c.publish w next now).2.reports = c.reports := by
  unfold publish
  dsimp only
  split
  · rfl
  · unfold replace
    cases w.listeners with
    | none => exact reports_log _ _ _ _
    | some l =>
      dsimp only
      generalize hnoted : note _ _ = noted
      have hbusy : noted.Busy := by
        rw [← hnoted]
        exact h
      rw [(Aside.tell w _ hbusy).reports, ← hnoted, reports_note]
      exact (List.append_nil _).trans (reports_log _ _ _ _)
  · exact reports_log _ _ _ _

omit [Numeric α] in
/-- A set that replaces the published one is out, whatever the listener makes of it. -/
theorem replace_published (w : Surroundings α) (next : Parameters α) (h : c.Busy) :
    (c.replace w next).2.published = some next := by
  unfold replace
  cases w.listeners with
  | none => rfl
  | some l =>
    dsimp only
    generalize hnoted : note _ _ = noted
    have hbusy : noted.Busy := by
      rw [← hnoted]
      exact h
    rw [(Aside.tell w _ hbusy).published, ← hnoted]
    rfl

/-! ## Afterwards -/

/-- All that a cycle has done is still there later. -/
structure Lasts (c d : Controller α) : Prop where
  /-- What is published is as it was. -/
  untouched : Untouched c d
  /-- The schedule is as it was. -/
  schedule : d.schedule = c.schedule
  /-- No more failures were reported. -/
  reports : d.reports = c.reports
  /-- The source was not asked again. -/
  learns : Learns 0 c d

omit [NumberText α] in
theorem Lasts.trans (h₁ : Lasts c d) (h₂ : Lasts d e) : Lasts c e :=
  ⟨h₁.untouched.trans h₂.untouched, h₂.schedule.trans h₁.schedule, h₂.reports.trans h₁.reports,
    h₁.learns.before h₂.learns⟩

omit [NumberText α] in
theorem Lull.lasts (h : Lull c d) : Lasts c d :=
  ⟨h.untouched, (congrArg Controller.schedule h.lasting :), h.reports, h.learns⟩

variable {given : Nat → Except (Failure α) (List (Bar α)) → Prop}
  {fetched : Except (Failure α) (List (Bar α))}

/-- A cycle that has come to its end does nothing more. -/
theorem GoesOn.lasts (h : GoesOn c y fetched) (horderly : c.Orderly given)
    (hlater : Lull (c.resume w) d) :
    Lasts (c.conclude w fetched y.startedAt).2 d ∧ ∀ z, d.cycle = some z → z.outcome ≠ none := by
  obtain ⟨-, heq⟩ := h.resume horderly w
  have hresumed : Lasts (c.conclude w fetched y.startedAt).2 (c.resume w) := by
    rw [heq]
    exact ⟨⟨rfl, rfl, rfl, rfl⟩, rfl, rfl, .of_same rfl rfl rfl⟩
  refine ⟨hresumed.trans hlater.lasts, hlater.ended ?_⟩
  intro z hz
  rw [heq] at hz
  obtain rfl := Option.some.inj hz
  exact Option.some_ne_none _

end MarketMaker.Refresh.Controller
