import MarketMaker.Proofs.Refresh.Publishing

/-!
# The listener keeps a log without gaps

A listener is told of every set that is published, with the record of what changed. What is seen of
the published set, by the listener and by callbacks that tick, is a **chronicle**: it leads from
what was published before to what is published after, and leaves nothing out. Every stretch of a run
has one (`Tells`).

So the log of the listener is **gapless**. Its first record has no previous values, each later
record takes up where the one before has left off, and what is published is always the set that the
listener was told of last.
-/

namespace MarketMaker

variable {α : Type}

/-- One value of each change of a record, in the order of its fields. -/
def ChangeRecord.side (r : ChangeRecord α) (pick : {β : Type} → Change β → Option β) :
    Option α × Option α × Option α × Option α × Option α × Option α × Option (Choice Interval α) ×
      Option (Option α) × Option (Choice Mode α) :=
  (pick r.bidSpread, pick r.askSpread, pick r.profitTakingLong, pick r.profitTakingShort,
    pick r.stopLoss, pick r.volatility, pick r.volatilityInterval, pick r.gamma, pick r.source)

/-- A log that begins with the first publication and leaves none out. -/
structure Gapless (log : List (ChangeRecord α × Parameters α)) : Prop where
  /-- The first record has no previous values. -/
  first : ∀ a ∈ log.head?, a.1.side Change.previous = a.1.side fun _ => none
  /-- The previous values of each later record are the current ones of the record before. -/
  next : log.IsChain fun a b => b.1.side Change.previous = a.1.side fun change =>
    some change.current
  /-- Each record is that of replacing something by the set that it is passed along with. -/
  recorded : ∀ a ∈ log, ∃ previous, a.1 = .between previous a.2
  /-- Each record bears the date of its set. -/
  dated : ∀ a ∈ log, a.1.publishedAt = a.2.generatedAt

namespace Refresh

/-- What the listener is told of, if it is told of something. -/
def Sight.announcement? : Sight α → Option (ChangeRecord α × Parameters α)
  | .announced record parameters => some (record, parameters)
  | .answered _ => none

/-- What the listener is told of. -/
def announcementsIn (sights : List (Sight α)) : List (ChangeRecord α × Parameters α) :=
  sights.filterMap Sight.announcement?

theorem announcementsIn_announced (record : ChangeRecord α) (p : Parameters α)
    (rest : List (Sight α)) :
    announcementsIn (.announced record p :: rest) = (record, p) :: announcementsIn rest := rfl

/-- What is seen leads from one published set to another, and leaves nothing out. -/
inductive Chronicle : Option (Parameters α) → List (Sight α) → Option (Parameters α) → Prop where
  /-- Nothing is seen. -/
  | nil (p : Option (Parameters α)) : Chronicle p [] p
  /-- A set is announced as the one after the published set. -/
  | announced {p q : Option (Parameters α)} {next : Parameters α} {rest : List (Sight α)}
    (h : Chronicle (some next) rest q) : Chronicle p (.announced (.between p next) next :: rest) q
  /-- A callback is answered with the published set. -/
  | answered {p q : Option (Parameters α)} {rest : List (Sight α)} (h : Chronicle p rest q) :
    Chronicle p (.answered p :: rest) q

namespace Chronicle

variable {p q r : Option (Parameters α)} {sights later : List (Sight α)}

theorem append (h₁ : Chronicle p sights q) (h₂ : Chronicle q later r) :
    Chronicle p (sights ++ later) r := by
  induction h₁ with
  | nil => exact h₂
  | announced _ ih => exact .announced (ih h₂)
  | answered _ ih => exact .answered (ih h₂)

/-- A chronicle can be taken up at any point. -/
theorem split (h : Chronicle p (sights ++ later) r) :
    ∃ q, Chronicle p sights q ∧ Chronicle q later r := by
  induction sights generalizing p with
  | nil => exact ⟨p, .nil p, h⟩
  | cons sight rest ih =>
    cases h with
    | announced h =>
      obtain ⟨q, hfirst, hlater⟩ := ih h
      exact ⟨q, .announced hfirst, hlater⟩
    | answered h =>
      obtain ⟨q, hfirst, hlater⟩ := ih h
      exact ⟨q, .answered hfirst, hlater⟩

theorem replicate (n : Nat) (p : Option (Parameters α)) :
    Chronicle p (List.replicate n (.answered p)) p := by
  induction n with
  | zero => exact .nil p
  | succ n ih => exact .answered ih

/-- What is published after is what the listener was told of last. -/
theorem last (h : Chronicle p sights q) :
    q = ((announcementsIn sights).getLast?.map Prod.snd).or p := by
  induction h with
  | nil => rfl
  | announced _ ih =>
    rw [ih, announcementsIn_announced, List.getLast?_cons]
    cases (announcementsIn _).getLast? <;> rfl
  | answered _ ih => exact ih

/-- Whoever is answered is answered with what the listener was told of last. -/
theorem answer_eq {answer : Option (Parameters α)}
    (h : Chronicle p (sights ++ .answered answer :: later) q) :
    answer = ((announcementsIn sights).getLast?.map Prod.snd).or p := by
  obtain ⟨published, hfirst, hlater⟩ := h.split
  cases hlater with
  | answered _ => exact hfirst.last

/-- Each record is that of replacing the set before, and the first that of replacing what was
published at first. -/
theorem linked (h : Chronicle p sights q) :
    (∀ a ∈ (announcementsIn sights).head?, a.1 = .between p a.2) ∧
    (announcementsIn sights).IsChain fun a b => b.1 = .between (some a.2) b.2 := by
  induction h with
  | nil => exact ⟨by simp [announcementsIn], .nil⟩
  | announced _ ih =>
    obtain ⟨hfirst, hnext⟩ := ih
    rw [announcementsIn_announced]
    refine ⟨?_, hnext.cons hfirst⟩
    rintro a ⟨⟩
    rfl
  | answered _ ih => exact ih

theorem recorded (h : Chronicle p sights q) :
    ∀ a ∈ announcementsIn sights, ∃ previous, a.1 = .between previous a.2 := by
  induction h with
  | nil => simp [announcementsIn]
  | announced _ ih =>
    rw [announcementsIn_announced, List.forall_mem_cons]
    exact ⟨⟨_, rfl⟩, ih⟩
  | answered _ ih => exact ih

/-- What is told from the beginning leaves no gap. -/
theorem gapless (h : Chronicle none sights q) : Gapless (announcementsIn sights) := by
  obtain ⟨hfirst, hnext⟩ := h.linked
  refine ⟨fun a ha => ?_, hnext.imp_of_mem_imp fun a b ha _ hb => ?_, h.recorded, fun a ha => ?_⟩
  · rw [hfirst a ha]
    rfl
  · obtain ⟨previous, heq⟩ := h.recorded a ha
    rw [hb, heq]
    rfl
  · obtain ⟨previous, heq⟩ := h.recorded a ha
    rw [heq]
    rfl

end Chronicle

namespace Controller

/-- What the listener was told of, with the records. -/
def announcements (c : Controller α) : List (ChangeRecord α × Parameters α) :=
  announcementsIn c.sights

variable {c d e : Controller α}

/-- All that becomes of the published set from one controller to another is told, each time once. -/
structure Tells (c d : Controller α) : Prop where
  /-- What is said leads from the one set to the other, and every replacement is counted. -/
  chronicle : ∃ said, d.sights = c.sights ++ said ∧ Chronicle c.published said d.published ∧
    d.publications = c.publications + (announcementsIn said).length ∧
    d.calls.publish = c.calls.publish + (announcementsIn said).length

theorem Tells.trans (h₁ : Tells c d) (h₂ : Tells d e) : Tells c e := by
  obtain ⟨said₁, hsights₁, hchronicle₁, hpublications₁, htold₁⟩ := h₁.chronicle
  obtain ⟨said₂, hsights₂, hchronicle₂, hpublications₂, htold₂⟩ := h₂.chronicle
  have hlength : (announcementsIn (said₁ ++ said₂)).length =
      (announcementsIn said₁).length + (announcementsIn said₂).length := by
    rw [announcementsIn, List.filterMap_append, List.length_append]
    rfl
  refine ⟨said₁ ++ said₂, ?_, hchronicle₁.append hchronicle₂, ?_, ?_⟩
  · rw [hsights₂, hsights₁, List.append_assoc]
  · rw [hpublications₂, hpublications₁, hlength, Nat.add_assoc]
  · rw [htold₂, htold₁, hlength, Nat.add_assoc]

/-- While what is published is retained, nobody is told of anything, and whoever ticks is answered
with it. -/
theorem Retained.tells (h : Retained c d) {n : Nat}
    (hsights : d.sights = c.sights ++ List.replicate n (.answered c.published)) : Tells c d := by
  have hnothing : announcementsIn (List.replicate n (.answered c.published)) = [] := by
    rw [announcementsIn, List.filterMap_replicate_of_none rfl]
  refine ⟨_, hsights, ?_, ?_, ?_⟩
  · rw [h.published]
    exact .replicate n _
  · rw [hnothing, h.publications]
    rfl
  · rw [hnothing, h.told]
    rfl

/-- While what is published is retained and nothing is seen of it, there is nothing to tell. -/
theorem Retained.tells_of_unseen (h : Retained c d) (hsights : d.sights = c.sights) : Tells c d :=
  h.tells (n := 0) (hsights.trans (List.append_nil _).symm)

theorem Tells.refl (c : Controller α) : Tells c c := Retained.tells_of_unseen ⟨rfl, rfl, rfl⟩ rfl

theorem Aside.tells (h : Aside c d) : Tells c d := by
  obtain ⟨n, hsights⟩ := h.answers
  exact h.untouched.retained.tells hsights

variable [Scalar α]

theorem Lull.tells (h : Lull c d) : Tells c d := h.untouched.retained.tells_of_unseen h.sights

variable [NumberText α] {w : Surroundings α} {l : Listeners α} {y : Cycle α}
  {fetched : Except (Failure α) (List (Bar α))}

/-! ## What a cycle tells -/

/-- A set that replaces the published one is told at once, before anybody else can ask. -/
theorem Tells.replace (hlisteners : w.listeners = some l) (next : Parameters α) (h : c.Busy) :
    Tells c (c.replace w next).2 := by
  simp only [Controller.replace, hlisteners]
  generalize hlogged : log _ _ _ _ = logged
  have hunseen : logged.sights = c.sights := by
    rw [← hlogged]
    exact sights_log _ _ _ _
  generalize hnoted : note _ _ = noted
  have hbusy : noted.Busy := by
    rw [← hnoted, ← hlogged]
    exact h
  refine Tells.trans ?_ (Aside.tell w _ hbusy).tells
  refine ⟨[.announced (.between c.published next) next], ?_, ?_, ?_, ?_⟩
  · rw [← hnoted, sights_note, ← hunseen]
    rfl
  · have hpublished : noted.published = some next := by rw [← hnoted, ← hlogged]; rfl
    rw [hpublished]
    exact .announced (.nil _)
  · rw [← hnoted, ← hlogged]
    rfl
  · rw [← hnoted]
    rfl

variable [Numeric α]

theorem Tells.publish (hlisteners : w.listeners = some l) (next : Parameters α)
    (now : α) (h : c.Busy) : Tells c (c.publish w next now).2 := by
  have hdated : Tells c (c.dated now) := Retained.tells_of_unseen ⟨rfl, rfl, rfl⟩ rfl
  have hbusy : (c.dated now).Busy := h
  rcases publish_cases w next now c with ⟨-, heq⟩ | ⟨-, heq⟩
  · rw [heq]
    exact hdated.trans (.replace hlisteners next hbusy)
  · rw [heq]
    exact hdated.trans (Aside.log _ _ _ _).tells

omit [Numeric α] in
/-- Of a failure the listener for publications is not told. -/
theorem Tells.caught (w : Surroundings α) (f : Failure α) (now : α) (h : c.Busy) :
    Tells c (c.caught w f now).2 := by
  refine caught_stages w f now h .refl .trans (fun d time level message context => ?_)
    (fun d g => ?_) fun d reaction hd => (Aside.tell w reaction hd).tells
  · exact Retained.tells_of_unseen ⟨rfl, rfl, rfl⟩ (sights_log _ _ _ _)
  · refine Retained.tells_of_unseen ⟨rfl, rfl, rfl⟩ ?_
    rw [sights_note]
    exact List.append_nil _

/-- **All that a cycle does to the published set is told.** -/
theorem GoesOn.tells (h : GoesOn c y fetched) (hbusy : c.Busy) (hlisteners : w.listeners = some l) :
    Tells c (c.conclude w fetched y.startedAt).2 := by
  refine h.conclude_stages hbusy w .refl .trans ?_ ?_ ?_ ?_ ?_
  · intro bars b _ hb
    obtain ⟨warned, haside, -, rfl⟩ := hb.begins
    exact haside.tells.trans (Retained.tells_of_unseen ⟨rfl, rfl, rfl⟩ rfl)
  · exact fun _ _ hbegun => (Aside.compute w _ y.startedAt hbegun).tells
  · exact fun d => Retained.tells_of_unseen ⟨rfl, rfl, rfl⟩ rfl
  · exact fun d next hd => .publish hlisteners next y.startedAt hd
  · exact fun d f hd => .caught w f y.startedAt hd

theorem tells_step (horderly : c.Orderly fun _ _ => True) (hlisteners : w.listeners = some l)
    (event : Event α) : Tells c (c.step w event) := by
  rcases step_cases w c event with hlull | ⟨-, ticked, now, heq⟩ | ⟨rfl, y, fetched, hgoes⟩
  · exact hlull.tells
  · rw [heq]
    exact Retained.tells_of_unseen ⟨rfl, rfl, rfl⟩ rfl
  · obtain ⟨-, heq⟩ := hgoes.resume horderly w
    have htells := hgoes.tells (horderly.busy hgoes.cycle hgoes.fetched).2 hlisteners
    simp only [step, heq]
    exact htells.trans (Retained.tells_of_unseen ⟨rfl, rfl, rfl⟩ rfl)

theorem tells_run (horderly : c.Orderly fun _ _ => True) (hlisteners : w.listeners = some l)
    (events : List (Event α)) : Tells c (c.run w events) :=
  horderly.relates_run w .refl .trans (fun _ event hd => tells_step hd hlisteners event) events

/-- There is a time of the last success exactly when something is published. -/
def IsDated (c : Controller α) : Prop := c.schedule.lastUpdate = none ↔ c.published = none

theorem IsDated.step (h : IsDated c) (horderly : c.Orderly fun _ _ => True) (w : Surroundings α)
    (event : Event α) : IsDated (c.step w event) := by
  have huntouched {d : Controller α} (hd : Untouched c d) : IsDated d := by
    rw [IsDated, hd.lastUpdate, hd.published]
    exact h
  rcases step_cases w c event with hlull | ⟨-, ticked, now, heq⟩ | ⟨rfl, y, fetched, hgoes⟩
  · exact huntouched hlull.untouched
  · rw [heq]
    exact huntouched ⟨rfl, rfl, rfl, rfl⟩
  · obtain ⟨-, heq⟩ := hgoes.resume horderly w
    simp only [Controller.step, heq]
    rcases hgoes.settles (horderly.busy hgoes.cycle hgoes.fetched).2 w with
      ⟨hsame, -⟩ | ⟨next, -, hdated, ⟨hkept, hretained, -⟩ | ⟨-, hreplaced, -⟩⟩
    · exact huntouched (hsame.trans ⟨rfl, rfl, rfl, rfl⟩)
    · obtain ⟨p, hp⟩ := exists_published_of_kept hkept
      refine iff_of_false (fun hnone => ?_) (fun hnone => ?_)
      · cases hdated.symm.trans hnone
      · cases (hretained.published.trans hp).symm.trans hnone
    · refine iff_of_false (fun hnone => ?_) (fun hnone => ?_)
      · cases hdated.symm.trans hnone
      · cases hreplaced.published.symm.trans hnone

/-- An event tells of nothing while what is published is retained, and tells once of the set that
replaces it. -/
theorem announcements_step (horderly : c.Orderly fun _ _ => True)
    (hlisteners : w.listeners = some l) (event : Event α) :
    Retained c (c.step w event) ∧ (c.step w event).announcements = c.announcements ∨
      ∃ next, Replaced w next c (c.step w event) ∧
        (c.step w event).announcements = c.announcements ++
          [(.between c.published next, next)] := by
  obtain ⟨said, hsights, hchronicle, hcount, -⟩ := (tells_step horderly hlisteners event).chronicle
  have happend : (c.step w event).announcements = c.announcements ++ announcementsIn said := by
    rw [announcements, hsights, announcementsIn, List.filterMap_append]
    rfl
  rcases retained_or_replaced_step horderly w event with hretained | ⟨next, hreplaced⟩
  · have hnothing : announcementsIn said = [] := by
      rw [hretained.publications] at hcount
      exact List.length_eq_zero_iff.mp (by omega)
    exact .inl ⟨hretained, by rw [happend, hnothing, List.append_nil]⟩
  · obtain ⟨a, ha⟩ : ∃ a, announcementsIn said = [a] := by
      rw [hreplaced.publications] at hcount
      exact List.length_eq_one_iff.mp (by omega)
    have hlast := hchronicle.last
    have hrecord := hchronicle.linked.1 a (by rw [ha]; rfl)
    rw [ha, hreplaced.published] at hlast
    obtain rfl : next = a.2 := Option.some.inj hlast
    exact .inr ⟨a.2, hreplaced, by rw [happend, ha, ← hrecord]⟩

/-- **The log of the listener has no gaps.** At every moment of a run there is a time of the last
success exactly when something is published. Where somebody listens, the listener was called once
for each replacement of the published set and at no other time; its log is gapless, and what is
published is what it was told of last. That is also what every callback that ticked was answered,
whoever called it and when. -/
theorem announcements_gapless {config : Config α} {c₀ : Controller α}
    (hcreate : create config = .ok c₀) (w : Surroundings α) (events : List (Event α)) :
    let d := c₀.run w events
    (d.schedule.lastUpdate = none ↔ d.published = none) ∧
    ∀ l, w.listeners = some l →
      Gapless d.announcements ∧ d.published = d.announcements.getLast?.map Prod.snd ∧
      d.publications = d.announcements.length ∧ d.calls.publish = d.announcements.length ∧
      (∀ before answer rest, d.sights = before ++ .answered answer :: rest →
        answer = (announcementsIn before).getLast?.map Prod.snd) ∧
      ∀ event, let e := d.step w event
        Retained d e ∧ e.announcements = d.announcements ∨
          ∃ next, Replaced w next d e ∧
            e.announcements = d.announcements ++ [(.between d.published next, next)] := by
  have hcreated : c₀.Orderly fun _ _ => True := .create hcreate
  obtain ⟨pricing, source, hc₀⟩ := create_spec hcreate
  have hdated : IsDated c₀ := by
    rw [hc₀]
    exact iff_of_true rfl rfl
  refine ⟨?_, fun l hlisteners => ?_⟩
  · exact (run_invariant (fun d => d.Orderly (fun _ _ => True) ∧ IsDated d) w events
      (fun d hd event _ => ⟨hd.1.event w event, hd.2.step hd.1 w event⟩) ⟨hcreated, hdated⟩).2
  · obtain ⟨said, hsights, hchronicle, hpublications, htold⟩ :=
      (tells_run hcreated hlisteners events).chronicle
    -- Nothing was seen before the run.
    obtain ⟨hunseen, hnone, hzero, hzero'⟩ :
        c₀.sights = [] ∧ c₀.published = none ∧ c₀.publications = 0 ∧ c₀.calls.publish = 0 := by
      rw [hc₀]
      exact ⟨rfl, rfl, rfl, rfl⟩
    rw [hunseen, List.nil_append] at hsights
    rw [hnone] at hchronicle
    rw [hzero, Nat.zero_add] at hpublications
    rw [hzero', Nat.zero_add] at htold
    subst hsights
    refine ⟨hchronicle.gapless, ?_, hpublications, htold, fun before answer rest hsplit => ?_,
      announcements_step (hcreated.run w events) hlisteners⟩
    · exact hchronicle.last.trans Option.or_none
    · rw [hsplit] at hchronicle
      exact hchronicle.answer_eq.trans Option.or_none

/-- Surroundings in which the price doubles after the first cycle, and in which whoever is told of a
set ticks and then throws. -/
def disruptive : Surroundings Float :=
  { answering (.now (.ok sampleBars)) with
    market := fun call _ =>
      ⟨[],
        .ok { midPrice := if call = 0 then
          100 else 200, inventory := 0, alpha := 1, kappa := 1, timestamp := 0 }⟩
    listeners := some { silent with
      onPublish := fun _ _ _ => ⟨[.tick 2], .error (.thrown (.string "too bad"))⟩ } }

/-- Two cycles publish a set each. The listener throws both times, and yet it has both sets in its
log, and has been answered twice. -/
theorem announcements_gapless_disruptive :
    let d := calmSample.run disruptive (wholeCycle 1 ++ wholeCycle 100000)
    create calmConfig = .ok calmSample ∧ disruptive.listeners.isSome = true ∧
      d.announcements.length = 2 ∧ d.sights.length = 4 ∧ Gapless d.announcements ∧
      d.published = d.announcements.getLast?.map Prod.snd ∧ d.publications = 2 ∧
      d.calls.publish = 2 ∧ d.published.isSome = true ∧ d.schedule.lastUpdate ≠ none := by
  intro d
  obtain ⟨hlength, hseen, hsome⟩ : d.announcements.length = 2 ∧ d.sights.length = 4 ∧
      d.published.isSome = true := by
    decide +kernel
  have hlog :=
    announcements_gapless create_calmConfig disruptive (wholeCycle 1 ++ wholeCycle 100000)
  have hd : calmSample.run disruptive (wholeCycle 1 ++ wholeCycle 100000) = d := rfl
  rw [hd] at hlog
  clear_value d
  obtain ⟨hdated, htells⟩ := hlog
  obtain ⟨hgapless, hpublished, hpublications, htold, -⟩ := htells _ rfl
  refine ⟨create_calmConfig, rfl, hlength, hseen, hgapless, hpublished, hpublications.trans hlength,
    htold.trans hlength, hsome, fun hnone => ?_⟩
  rw [hdated.mp hnone] at hsome
  cases hsome

end Controller

end Refresh

end MarketMaker
