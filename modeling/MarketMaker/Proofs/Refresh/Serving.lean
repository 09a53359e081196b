import MarketMaker.Proofs.Refresh.Computing
import MarketMaker.Proofs.Settings

/-!
# The source in place serves the configuration

Whatever modes a controller is switched to, and whatever its source of risk aversion is told, the
source in place **serves** the settings of the configuration (`Served`).

* Between two switches its report shows the last answer, or what it starts from (`Answered`).
* In a run of the controller the source in place is asked and replaced, and nothing else becomes of
  it (`learns_run`).
-/

namespace MarketMaker

open Scalar

variable {α : Type} [Scalar α]

/-- Every source that is built from valid settings and asked after that serves them. -/
theorem Gamma.Source.Leads.serves [LawfulScalar α] {settings : SourceSettings α}
    {asked replaced : Nat} {s t : Option (Gamma.Source α)} (h : Leads settings asked replaced s t)
    (hvalid : settings.Valid) (hs : ∀ source, s = some source → source.Serves settings) :
    ∀ source, t = some source → source.Serves settings := by
  induction h with
  | refl => exact hs
  | asked context _ ih =>
    rintro source heq
    obtain rfl := Option.some.inj heq
    exact (ih hs _ rfl).next hvalid context
  | replaced mode hfresh _ _ =>
    rintro source rfl
    exact (Serves.create hvalid hfresh).1

namespace Refresh.Controller

variable [NumberText α] {c d : Controller α}

omit [NumberText α] in
/-- A configuration that holds together builds sources from valid settings. -/
theorem valid_of_check {config : Config α} (h : config.check = .ok ()) :
    (sourceSettings config).Valid := by
  obtain ⟨hrisk, -, -, hbounds, -⟩ := Config.check_eq_ok_iff.mp h
  exact ⟨hrisk, hbounds⟩

/-- A created controller has a configuration that holds together, and the source that is built from
it. -/
theorem check_of_create {config : Config α} (h : create config = .ok c) :
    config.check = .ok () ∧ Gamma.Source.create config.mode (sourceSettings config) =
      .ok c.source := by
  obtain ⟨_, hcheck, h⟩ := Guards.bind_eq_ok.mp h
  obtain ⟨_, -, h⟩ := Guards.bind_eq_ok.mp h
  obtain ⟨_, -, h⟩ := Guards.bind_eq_ok.mp h
  obtain ⟨source, hsource, h⟩ := Guards.bind_eq_ok.mp h
  obtain rfl := Except.ok.inj h
  exact ⟨Guards.mapError_eq_ok.mp hcheck, Guards.mapError_eq_ok.mp hsource⟩

/-! ## Asking and switching -/

/-- What is done to a source of risk aversion. -/
inductive Turn (α : Type) where
  /-- It is replaced by the one for a mode. -/
  | switch (mode : Choice Mode α)
  /-- It is asked. -/
  | ask (context : Gamma.Context α)

/-- A controller, with the last answer of the source in place if it was asked. -/
structure Answered (α : Type) where
  /-- The controller. -/
  controller : Controller α
  /-- The last answer, if there was one. -/
  answer : Option α := none

/-- The controller after the source was replaced, if the mode fits, or was asked, if there is
one. -/
def Answered.turn (a : Answered α) : Turn α → Answered α
  | .switch mode =>
    match a.controller.setMode mode with
    | .ok after => ⟨after, none⟩
    | .error _ => a
  | .ask context =>
    match a.controller.source with
    | some source =>
      ⟨a.controller.keepSource a.controller.switches (source.resolve context).2.1,
        some (source.resolve context).1⟩
    | none => a

/-- The controller after all turns, the first first. -/
def Answered.run (a : Answered α) (turns : List (Turn α)) : Answered α := turns.foldl turn a

variable [LawfulScalar α]

/-- The source in place, if there is one, serves the settings of a configuration that holds
together. -/
structure Served (c : Controller α) : Prop where
  /-- The settings of the configuration hold together. -/
  valid : (sourceSettings c.config).Valid
  /-- The source in place serves them. -/
  serves : ∀ source, c.source = some source → source.Serves (sourceSettings c.config)

omit [NumberText α] in
theorem Served.of_created (hcheck : c.config.check = .ok ()) {mode : Choice Mode α}
    (hsource : Gamma.Source.create mode (sourceSettings c.config) = .ok c.source) : Served c := by
  refine ⟨valid_of_check hcheck, ?_⟩
  rintro source heq
  rw [heq] at hsource
  exact (Gamma.Source.Serves.create (valid_of_check hcheck) hsource).1

omit [NumberText α] in
/-- Asking a source and replacing it keep to the settings. -/
theorem Served.learns (h : Served c) {asked : Nat} (hlearns : Learns asked c d) : Served d := by
  obtain ⟨replaced, -, hleads⟩ := hlearns.source
  have hserves := hleads.serves h.valid h.serves
  rw [← hlearns.config] at hserves
  refine ⟨?_, hserves⟩
  rw [hlearns.config]
  exact h.valid

/-- The source in place serves the settings of the configuration and reports its last answer. -/
structure Answered.Reports (config : Config α) (a : Answered α) : Prop where
  /-- The configuration has not changed. -/
  configured : a.controller.config = config
  /-- The source in place serves its settings. -/
  served : Served a.controller
  /-- The source in place reports its last answer, or what it started with. -/
  current : ∀ source, a.controller.source = some source →
    source.state.currentValue = a.answer.getD (source.start (sourceSettings config))

theorem Answered.Reports.turn {config : Config α} {a : Answered α} (h : a.Reports config)
    (turn : Turn α) : (a.turn turn).Reports config := by
  cases turn with
  | switch mode =>
    have hlearns := Learns.switched mode a.controller
    cases hset : a.controller.setMode mode with
    | error e =>
      simp only [Answered.turn, hset]
      exact h
    | ok after =>
      simp only [switched, hset] at hlearns
      simp only [Answered.turn, hset]
      refine ⟨hlearns.config.trans h.configured, h.served.learns hlearns, ?_⟩
      rintro source heq
      obtain ⟨fresh, hfresh, rfl⟩ := setMode_eq_ok hset
      obtain rfl : fresh = some source := heq
      rw [← h.configured]
      exact (Gamma.Source.Serves.create h.served.valid hfresh).2
  | ask context =>
    cases hsource : a.controller.source with
    | none =>
      simp only [Answered.turn, hsource]
      exact h
    | some source =>
      obtain ⟨asked, -, hlearns⟩ := (Learns.refl a.controller).keepSource hsource context
      simp only [Answered.turn, hsource]
      refine ⟨hlearns.config.trans h.configured, h.served.learns hlearns, ?_⟩
      rintro after heq
      simp only [keepSource, if_true] at heq
      obtain rfl := Option.some.inj heq
      exact source.currentValue_resolve context

theorem Answered.Reports.run {config : Config α} {a : Answered α} (h : a.Reports config)
    (turns : List (Turn α)) : (a.run turns).Reports config := by
  induction turns generalizing a with
  | nil => exact h
  | cons turn rest ih => exact ih (h.turn turn)

/-! ## Runs of the controller -/

variable [Numeric α]

omit [LawfulScalar α] in
/-- What a cycle makes of the source is that it may ask it, and that callbacks may replace it. -/
theorem GoesOn.learns {y : Cycle α} {fetched : Except (Failure α) (List (Bar α))}
    (h : GoesOn c y fetched) (hbusy : c.Busy) (w : Surroundings α) :
    ∃ asked, Learns asked c (c.conclude w fetched y.startedAt).2 := by
  let holds (c d : Controller α) : Prop := ∃ asked, Learns asked c d
  change holds c _
  refine h.conclude_stages hbusy w (fun d => ⟨0, .refl d⟩) ?_
    (fun _ hb => ⟨0, hb.prepares.learns⟩) ?_ (fun d => ⟨0, .of_same rfl rfl rfl⟩)
    (fun d next hd => ⟨0, .publish w next y.startedAt hd⟩) (fun d f hd => ⟨0,
      .caught w f y.startedAt hd⟩)
  · rintro d e f ⟨asked, hasked⟩ ⟨asked', hasked'⟩
    exact ⟨asked + asked', hasked.trans hasked'⟩
  · intro bars b _ hb hbegun
    obtain ⟨asked, -, hlearns, -⟩ := Learns.compute w bars y.startedAt hbegun
    exact ⟨asked, hlearns⟩

omit [LawfulScalar α] in
/-- An event may ask the source in place and may replace it, and does nothing else to it. -/
theorem learns_step (horderly : c.Orderly fun _ _ => True) (w : Surroundings α) (event : Event α) :
    ∃ asked, Learns asked c (c.step w event) := by
  rcases step_cases w c event with hlull | ⟨-, ticked, now, heq⟩ | ⟨rfl, y, fetched, hgoes⟩
  · exact ⟨0, hlull.learns⟩
  · rw [heq]
    exact ⟨0, .of_same rfl rfl rfl⟩
  · obtain ⟨-, heq⟩ := hgoes.resume horderly w
    obtain ⟨asked, hconcluded⟩ := hgoes.learns (horderly.busy hgoes.cycle hgoes.fetched).2 w
    have hresumed : Learns 0 (c.conclude w fetched y.startedAt).2 (c.resume w) := by
      rw [heq]
      exact .of_same rfl rfl rfl
    exact ⟨asked, hconcluded.trans hresumed⟩

omit [LawfulScalar α] in
/-- **Throughout a run** the source in place is asked and replaced, and nothing else becomes of
it. -/
theorem learns_run (horderly : c.Orderly fun _ _ => True) (w : Surroundings α)
    (events : List (Event α)) : ∃ asked, Learns asked c (c.run w events) := by
  let holds (c d : Controller α) : Prop := ∃ asked, Learns asked c d
  change holds c _
  refine horderly.relates_run w (fun d => ⟨0, .refl d⟩) ?_
    (fun _ event hd => learns_step hd w event) events
  rintro d e f ⟨asked, hasked⟩ ⟨asked', hasked'⟩
  exact ⟨asked + asked', hasked.trans hasked'⟩

/-- The source in place in a run of a created controller serves the settings of its
configuration. -/
theorem served_run {config : Config α} {c₀ : Controller α} (hcreate : create config = .ok c₀)
    (w : Surroundings α) (events : List (Event α)) :
    (c₀.run w events).config = config ∧ Served (c₀.run w events) := by
  obtain ⟨hcheck, hsource⟩ := check_of_create hcreate
  obtain ⟨asked, hlearns⟩ := learns_run (.create hcreate) w events
  obtain ⟨pricing, source, rfl⟩ := create_spec hcreate
  exact ⟨hlearns.config, (Served.of_created hcheck hsource).learns hlearns⟩

end Refresh.Controller

end MarketMaker
