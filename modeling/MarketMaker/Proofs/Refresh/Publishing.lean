import MarketMaker.Proofs.Refresh.Computing

/-!
# What a cycle publishes

A cycle that goes on leaves what is published alone, or it comes to a set of parameters. The time of
the last success is then that of the cycle, and the set **settles** in one of two ways.

* It is kept back, and what is published is **retained**.
* It has **replaced** the published set, and the listener, if there is one, was called once. The
  cycle succeeds, unless the listener throws something that cannot be put in words.

Which of the two it is depends on the published set of that moment and on nothing else
(`isWorthPublishing_eq`).
-/

namespace MarketMaker.Refresh.Controller

open Scalar

variable {α : Type} {c d e : Controller α}

/-- What is published is as it was, and no listener was told of a new set. -/
structure Retained (c d : Controller α) : Prop where
  /-- The published set is the same. -/
  published : d.published = c.published
  /-- It was not replaced by an equal one either. -/
  publications : d.publications = c.publications
  /-- No listener was told of a set. -/
  told : d.calls.publish = c.calls.publish

/-- A set has replaced the published one, and the listener, if there is one, was called once. -/
structure Replaced (w : Surroundings α) (next : Parameters α) (c d : Controller α) : Prop where
  /-- The set is the published one. -/
  published : d.published = some next
  /-- It was replaced once. -/
  publications : d.publications = c.publications + 1
  /-- The listener was called once, if there is one. -/
  told : d.calls.publish = c.calls.publish + w.listeners.toList.length

theorem Untouched.retained (h : Untouched c d) : Retained c d :=
  ⟨h.published, h.publications, h.told⟩

theorem Retained.trans (h₁ : Retained c d) (h₂ : Retained d e) : Retained c e :=
  ⟨h₂.published.trans h₁.published, h₂.publications.trans h₁.publications, h₂.told.trans h₁.told⟩

variable {w : Surroundings α} {next : Parameters α}

theorem Replaced.before (h : Replaced w next d e) (hcd : Retained c d) : Replaced w next c e :=
  ⟨h.published, by rw [h.publications, hcd.publications], by rw [h.told, hcd.told]⟩

theorem Replaced.after (h : Replaced w next c d) (hde : Retained d e) : Replaced w next c e :=
  ⟨hde.published.trans h.published, hde.publications.trans h.publications, hde.told.trans h.told⟩

variable [Scalar α] [NumberText α]

/-- What becomes of a set that a cycle has come to, and of the cycle. -/
inductive Settles (w : Surroundings α) (next : Parameters α) (c : Controller α) (o : Outcome α)
    (d : Controller α) : Prop where
  /-- It is too close to the published one. -/
  | kept (hworth : c.isWorthPublishing next = .ok false) (h : Retained c d) (ho : o = .unchanged)
  /-- It is published, and the listener may spoil the success. -/
  | replaced (hworth : c.isWorthPublishing next = .ok true) (h : Replaced w next c d)
    (ho : o = .published ∨ o.isSuccess = false)

theorem Settles.before {o : Outcome α} (h : Settles w next d o e) (hcd : Retained c d)
    (hworth : d.isWorthPublishing next = c.isWorthPublishing next) : Settles w next c o e := by
  cases h with
  | kept hkept h ho => exact .kept (hworth.symm.trans hkept) (hcd.trans h) ho
  | replaced hout h ho => exact .replaced (hworth.symm.trans hout) (h.before hcd) ho

theorem isWorthPublishing_congr (hpublished : d.published = c.published)
    (hconfig : d.config = c.config) (next : Parameters α) :
    d.isWorthPublishing next = c.isWorthPublishing next := by
  rw [isWorthPublishing, isWorthPublishing, hpublished, hconfig]

/-- A set that replaces the published one is told once. -/
theorem Replaced.replace (w : Surroundings α) (next : Parameters α) (h : c.Busy) :
    Replaced w next c (c.replace w next).2 := by
  refine ⟨replace_published w next h, (replace_spec w next h).2.2.1, ?_⟩
  unfold Controller.replace
  cases w.listeners with
  | none => rfl
  | some l =>
    dsimp only
    generalize hnoted : note _ _ = noted
    have hbusy : noted.Busy := by
      rw [← hnoted]
      exact h
    have htold :=
      Aside.tell w (l.onPublish c.calls.publish (ChangeRecord.between c.published next) next) hbusy
    rw [htold.untouched.told, ← hnoted]
    rfl

variable [Numeric α]

/-- A set is worth publishing when it is the first one or differs enough from the published one. -/
theorem isWorthPublishing_eq (next : Parameters α) (c : Controller α) : c.isWorthPublishing next =
    .ok (c.published.all fun p => p.isSignificant next c.config.significantChangeThreshold) := by
  unfold isWorthPublishing
  cases c.published with
  | none => rfl
  | some p =>
    have hcomparable : p.isComparable next c.config.significantChangeThreshold = true := by
      simp [Parameters.isComparable, Numeric.hasText]
    simp only [Parameters.significance, Parameters.movement, hcomparable, if_true, Option.all_some,
      Parameters.isSignificant]
    cases p.isOfOtherOrigin next <;> rfl

/-- There is something to keep when a set is kept back. -/
theorem exists_published_of_kept (h : c.isWorthPublishing next = .ok false) :
    ∃ p, c.published = some p := by
  cases hp : c.published with
  | some p => exact ⟨p, rfl⟩
  | none =>
    rw [isWorthPublishing_eq, hp] at h
    cases h

/-- Publishing keeps the set back or has it replace the published one. -/
theorem publish_settles (w : Surroundings α) (next : Parameters α) (now : α) (h : c.Busy) :
    match (c.publish w next now).1 with
    | .ok outcome => Settles w next c outcome (c.publish w next now).2
    | .error _ =>
      c.isWorthPublishing next = .ok true ∧ Replaced w next c (c.publish w next now).2 := by
  have hretained : Retained c (c.dated now) := ⟨rfl, rfl, rfl⟩
  have hbusy : (c.dated now).Busy := h
  rcases publish_cases w next now c with ⟨hworth, heq⟩ | ⟨hworth, heq⟩
  · have hreplaced := (Replaced.replace w next hbusy).before hretained
    rw [heq]
    cases ((c.dated now).replace w next).1 with
    | ok _ => exact .replaced hworth hreplaced (.inl rfl)
    | error f => exact ⟨hworth, hreplaced⟩
  · rw [heq]
    exact .kept hworth (hretained.trans ⟨rfl, rfl, rfl⟩) rfl

variable {y : Cycle α} {bars : List (Bar α)} {b : Controller α}
  {fetched : Except (Failure α) (List (Bar α))}

/-- A set that a cycle has come to settles. -/
theorem Computes.settles (h : Computes c y bars b) (hbusy : c.Busy)
    (hok : (b.compute w bars y.startedAt).1 = .ok next) :
    (c.conclude w (.ok bars) y.startedAt).2.schedule.lastUpdate = some y.startedAt ∧
      Settles w next c (c.conclude w (.ok bars) y.startedAt).1
        (c.conclude w (.ok bars) y.startedAt).2 := by
  obtain ⟨asked, -, hprepares, -⟩ := h.prepares_compute hbusy w
  rw [h.conclude_eq w]
  rcases hcompute : b.compute w bars y.startedAt with ⟨result, computed⟩
  rw [hcompute] at hprepares hok
  obtain rfl : result = .ok next := hok
  have hpublishing : ({ computed with phase := .publishing } : Controller α).Busy :=
    hprepares.keeps.busy hbusy
  have hretained : Retained c { computed with phase := .publishing } :=
    hprepares.untouched.retained.trans ⟨rfl, rfl, rfl⟩
  have hworth : ({ computed with phase := .publishing } : Controller α).isWorthPublishing next =
      c.isWorthPublishing next :=
    isWorthPublishing_congr hprepares.untouched.published hprepares.keeps.config next
  have hkeeps := (publish_spec w next y.startedAt hpublishing).1
  have hdated := (publish_spec w next y.startedAt hpublishing).2.1
  have hsettles := publish_settles w next y.startedAt hpublishing
  rw [hworth] at hsettles
  rcases hp : { computed with phase := .publishing }.publish w next y.startedAt
    with ⟨published, after⟩
  rw [hp] at hkeeps hdated hsettles
  simp only [hp]
  cases published with
  | ok outcome => exact ⟨congrArg (·.lastUpdate) hdated, hsettles.before hretained hworth⟩
  | error f =>
    -- The set is out already, whatever becomes of the failure.
    obtain ⟨hout, hreplaced⟩ := hsettles
    have huntouched := Untouched.caught w f y.startedAt (hkeeps.busy hpublishing)
    have hfails := Fails.caught w f y.startedAt (hkeeps.busy hpublishing)
    exact ⟨huntouched.lastUpdate.trans (congrArg (·.lastUpdate) hdated),
      .replaced hout ((hreplaced.before hretained).after huntouched.retained) (.inr hfails.outcome)⟩

/-- **What a cycle publishes.** A cycle that goes on leaves what is published untouched, and is no
success, or it comes to a set that settles. -/
theorem GoesOn.settles (h : GoesOn c y fetched) (hbusy : c.Busy) (w : Surroundings α) :
    Untouched c (c.conclude w fetched y.startedAt).2 ∧
    (c.conclude w fetched y.startedAt).1.isSuccess = false ∨
      ∃ next, ComesTo w c next ∧ (c.conclude w fetched y.startedAt).2.schedule.lastUpdate =
        some y.startedAt ∧
        Settles w next c (c.conclude w fetched y.startedAt).1
          (c.conclude w fetched y.startedAt).2 := by
  have hcaught {d : Controller α} (huntouched : Untouched c d) (hd : d.Busy) (f : Failure α) :
      Untouched c (d.caught w f y.startedAt).2 ∧ (d.caught w f y.startedAt).1.isSuccess = false :=
    ⟨huntouched.trans (.caught w f y.startedAt hd), (Fails.caught w f y.startedAt hd).outcome⟩
  cases fetched with
  | error f => exact .inl (hcaught (.refl c) hbusy f)
  | ok bars =>
    cases hstopped : c.stopped with
    | true =>
      rw [conclude_of_stopped w _ _ hstopped]
      exact .inl ⟨.refl c, rfl⟩
    | false =>
      obtain ⟨b, hb⟩ := h.computes hstopped
      cases hok : (b.compute w bars y.startedAt).1 with
      | ok next => exact .inr ⟨next, ⟨y, bars, b, hb, hok⟩, hb.settles hbusy hok⟩
      | error f =>
        obtain ⟨asked, -, hprepares, -⟩ := hb.prepares_compute hbusy w
        rw [hb.conclude_eq w]
        rcases hcompute : b.compute w bars y.startedAt with ⟨result, computed⟩
        rw [hcompute] at hprepares hok
        obtain rfl : result = .error f := hok
        exact .inl (hcaught hprepares.untouched (hprepares.keeps.busy hbusy) f)

/-! ## Runs -/

/-- An event retains what is published, or has one set replace it. -/
theorem retained_or_replaced_step (horderly : c.Orderly fun _ _ => True) (w : Surroundings α)
    (event : Event α) :
    Retained c (c.step w event) ∨ ∃ next, Replaced w next c (c.step w event) := by
  rcases step_cases w c event with hlull | ⟨-, ticked, now, heq⟩ | ⟨rfl, y, fetched, hgoes⟩
  · exact .inl hlull.untouched.retained
  · rw [heq]
    exact .inl ⟨rfl, rfl, rfl⟩
  · obtain ⟨-, heq⟩ := hgoes.resume horderly w
    have hresumed : Retained (c.conclude w fetched y.startedAt).2 (c.resume w) := by
      rw [heq]
      exact ⟨rfl, rfl, rfl⟩
    rcases hgoes.settles (horderly.busy hgoes.cycle hgoes.fetched).2 w with
      ⟨huntouched, -⟩ | ⟨next, -, -, ⟨-, hretained, -⟩ | ⟨-, hreplaced, -⟩⟩
    · exact .inl (huntouched.retained.trans hresumed)
    · exact .inl (hretained.trans hresumed)
    · exact .inr ⟨next, hreplaced.after hresumed⟩

/-- How often the published set was replaced never decreases, and as long as it does not increase,
what is published is retained. -/
theorem retained_run (horderly : c.Orderly fun _ _ => True) (w : Surroundings α)
    (events : List (Event α)) :
    c.publications ≤ (c.run w events).publications ∧
      ((c.run w events).publications = c.publications → Retained c (c.run w events)) := by
  let holds (c d : Controller α) : Prop :=
    c.publications ≤ d.publications ∧ (d.publications = c.publications → Retained c d)
  change holds c _
  refine horderly.relates_run w (fun d => ⟨Nat.le_refl _, fun _ => ⟨rfl, rfl, rfl⟩⟩) ?_
    (fun d event hd => ?_) events
  · rintro d e f ⟨hle, hquiet⟩ ⟨hle', hquiet'⟩
    exact ⟨hle.trans hle', fun hsame => (hquiet (by omega)).trans (hquiet' (by omega))⟩
  · rcases retained_or_replaced_step hd w event with hretained | ⟨next, hreplaced⟩
    · exact ⟨hretained.publications.ge, fun _ => hretained⟩
    · have hcount := hreplaced.publications
      exact ⟨by omega, fun hsame => by omega⟩

omit [Numeric α] in
/-- A run up to an event, that event, and the rest of the run. -/
theorem run_append_cons (w : Surroundings α) (c : Controller α) (first : List (Event α))
    (event : Event α) (rest : List (Event α)) :
    c.run w (first ++ event :: rest) = ((c.run w first).step w event).run w rest := by
  rw [run, List.foldl_append]
  rfl

/-- A cycle of a stretch in which no set is published has the set that it comes to kept back. -/
theorem ComesTo.kept_of_quiet {first rest : List (Event α)} (h : ComesTo w (c.run w first) next)
    (horderly : c.Orderly fun _ _ => True)
    (hquiet : (c.run w (first ++ .resume :: rest)).publications = c.publications) :
    Retained c (c.run w first) ∧ (c.run w first).isWorthPublishing next = .ok false := by
  obtain ⟨y, bars, b, hb, hok⟩ := h
  have hr := horderly.run w first
  obtain ⟨-, heq⟩ := hb.toGoesOn.resume hr w
  obtain ⟨hbefore, hretained⟩ := retained_run horderly w first
  have hafter := (retained_run (hr.event w .resume) w rest).1
  have hresumed : ((c.run w first).step w .resume).publications =
      ((c.run w first).conclude w (.ok bars) y.startedAt).2.publications := by rw [step, heq]
  rw [run_append_cons] at hquiet
  rcases (hb.settles (hr.busy hb.cycle hb.fetched).2 hok).2 with ⟨hkept, hsame, -⟩ |
    ⟨-, hreplaced, -⟩
  · have hcount := hsame.publications
    exact ⟨hretained (by omega), hkept⟩
  · have hcount := hreplaced.publications
    omega

/-! ## A controller at hand -/

/-- The configuration of the sample, at a risk of a loss whose quantile takes no logarithm. -/
def calmConfig : Config Float := { sampleConfig with stopLossRiskProbability := 0.25 }

/-- The controller for that configuration. -/
def calmSample : Controller Float := { sample with config := calmConfig }

theorem create_calmConfig : create calmConfig = .ok calmSample := rfl

/-- A refresh, and all that its cycle does up to its end when the bars are there at once. -/
def wholeCycle (now : Float) : List (Event Float) :=
  [.refresh now, .make, .deliver, .resume, .clear]

end MarketMaker.Refresh.Controller
