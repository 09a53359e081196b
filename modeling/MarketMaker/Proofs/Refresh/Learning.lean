import MarketMaker.Proofs.Gamma.Sources
import MarketMaker.Proofs.Refresh.Words

/-!
# What becomes of the source of risk aversion

A cycle **consults** the source of risk aversion at most once, after it has asked the market and the
performance. `consultation?` is that moment: the source that is asked, and what it is told.

`Learns asked c d` follows the source in place from `c` to `d`. Callbacks may replace it by a fresh
one as often as they like, and everything else that becomes of it is that it is asked. A source
learns only when it is asked, so the number of times is a bound on how often it was updated.
-/

namespace MarketMaker

variable {α : Type} [Scalar α]

/-- One source of risk aversion after another, between which the source in place was asked and was
replaced by a fresh one so many times. -/
inductive Gamma.Source.Leads (settings : Gamma.SourceSettings α) :
    Nat → Nat → Option (Gamma.Source α) → Option (Gamma.Source α) → Prop where
  /-- Nothing was done. -/
  | refl (s : Option (Gamma.Source α)) : Leads settings 0 0 s s
  /-- The source in place was asked. -/
  | asked {asked replaced : Nat} {s : Option (Gamma.Source α)} {t : Gamma.Source α}
    (context : Gamma.Context α) (h : Leads settings asked replaced s (some t)) :
    Leads settings (asked + 1) replaced s (some (t.next context).1)
  /-- A fresh source, or none, was put in place. -/
  | replaced {asked replaced : Nat} {s t fresh : Option (Gamma.Source α)} (mode : Choice Mode α)
    (hfresh : Gamma.Source.create mode settings = .ok fresh)
    (h : Leads settings asked replaced s t) : Leads settings asked (replaced + 1) s fresh

theorem Gamma.Source.Leads.trans {settings : Gamma.SourceSettings α}
    {asked replaced asked' replaced' : Nat} {s t u : Option (Gamma.Source α)}
    (h₁ : Leads settings asked replaced s t) (h₂ : Leads settings asked' replaced' t u) :
    Leads settings (asked + asked') (replaced + replaced') s u := by
  induction h₂ with
  | refl => exact h₁
  | asked context _ ih => exact .asked context (ih h₁)
  | replaced mode hfresh _ ih => exact .replaced mode hfresh (ih h₁)

/-- A source that nobody asked or replaced is the same. -/
theorem Gamma.Source.Leads.eq {settings : Gamma.SourceSettings α} {s t : Option (Gamma.Source α)}
    (h : Leads settings 0 0 s t) : t = s := by
  cases h
  rfl

namespace Refresh.Controller

variable {asked asked' : Nat} {c d e : Controller α}

/-- What becomes of the source in place from one controller to another. -/
structure Learns (asked : Nat) (c d : Controller α) : Prop where
  /-- The configuration has not changed. -/
  config : d.config = c.config
  /-- Between the one source and the other lie the questions and the replacements. -/
  source : ∃ replaced, d.switches = c.switches + replaced ∧
    Gamma.Source.Leads (sourceSettings c.config) asked replaced c.source d.source

theorem Learns.trans (h₁ : Learns asked c d) (h₂ : Learns asked' d e) :
    Learns (asked + asked') c e := by
  obtain ⟨replaced, hswitches, hleads⟩ := h₁.source
  obtain ⟨replaced', hswitches', hleads'⟩ := h₂.source
  rw [h₁.config] at hleads'
  exact ⟨h₂.config.trans h₁.config, replaced + replaced', by omega, hleads.trans hleads'⟩

/-- A change that leaves the source in place. -/
theorem Learns.of_same (hconfig : d.config = c.config) (hswitches : d.switches = c.switches)
    (hsource : d.source = c.source) : Learns 0 c d := by
  refine ⟨hconfig, 0, hswitches, ?_⟩
  rw [hsource]
  exact .refl c.source

theorem Learns.refl (c : Controller α) : Learns 0 c c := .of_same rfl rfl rfl

/-- Nothing is learnt in between, before or after. -/
theorem Learns.before (h₁ : Learns 0 c d) (h₂ : Learns asked d e) : Learns asked c e := by
  simpa using h₁.trans h₂

/-- A source that was not replaced was only asked. -/
theorem Learns.source_eq (h : Learns 0 c d) (hswitches : d.switches = c.switches) :
    d.source = c.source := by
  obtain ⟨replaced, heq, hleads⟩ := h.source
  obtain rfl : replaced = 0 := by omega
  exact hleads.eq

theorem Learns.note (o : Occurrence α) (c : Controller α) : Learns 0 c (c.note o) :=
  .of_same rfl rfl rfl

omit [Scalar α] in
theorem source_logAll (entries : List (Log.Entry α)) (c : Controller α) :
    (c.logAll entries).source = c.source ∧ (c.logAll entries).switches = c.switches := by
  induction entries generalizing c with
  | nil => exact ⟨rfl, rfl⟩
  | cons e rest ih => exact ih (c.note (.logged e))

theorem Learns.logAll (entries : List (Log.Entry α)) (c : Controller α) :
    Learns 0 c (c.logAll entries) :=
  .of_same (Aside.logAll entries c).config (source_logAll entries c).2 (source_logAll entries c).1

variable [NumberText α]

/-- A switch puts a fresh source in place. -/
theorem Learns.switched (mode : Choice Mode α) (c : Controller α) :
    Learns 0 c (c.switched mode).2 := by
  unfold Controller.switched
  cases hset : c.setMode mode with
  | error e => exact .refl c
  | ok after =>
    obtain ⟨source, hsource, rfl⟩ := setMode_eq_ok hset
    exact ⟨rfl, 1, rfl, .replaced mode hsource (.refl c.source)⟩

/-! ## Callbacks -/

variable {w : Surroundings α}

theorem Learns.perform (w : Surroundings α) (h : c.Busy) (a : Action α) :
    Learns 0 c (c.perform w a).2 := by
  cases a with
  | stop =>
    have hstop : (c.perform w .stop).2 = { c with stopped := true, stopping := c.stopping + 1 } :=
      stop_of_busy w h
    rw [hstop]
    exact .of_same rfl rfl rfl
  | setMode mode => exact (Learns.switched mode c).before (.note _ _)
  | tick now =>
    obtain ⟨y, hy, -⟩ := h
    cases ht : c.tick now with
    | error f => simpa only [Controller.perform, ht] using Learns.refl c
    | ok after =>
      obtain rfl := eq_of_tick_of_busy (by rw [hy]; rfl) ht
      simpa only [Controller.perform, ht] using Learns.note _ after
  | refresh now =>
    obtain ⟨y, hy, -⟩ := h
    simpa only [Controller.perform, refresh_of_busy hy] using Learns.refl c

theorem Learns.performAll (w : Surroundings α) (actions : List (Action α)) (h : c.Busy) :
    Learns 0 c (c.performAll w actions).2 := by
  induction actions generalizing c with
  | nil => exact .refl c
  | cons a rest ih =>
    have hfirst := Learns.perform w h a
    have hbusy := (Aside.perform w h a).busy h
    unfold Controller.performAll
    rcases hp : c.perform w a with ⟨result, after⟩
    rw [hp] at hfirst hbusy
    cases result with
    | error f => exact hfirst
    | ok _ => exact hfirst.before (ih hbusy)

theorem Learns.react {β : Type} (w : Surroundings α) (r : Reaction α β) (h : c.Busy) :
    Learns 0 c (c.react w r).2 :=
  Learns.performAll w r.actions h

theorem Learns.tell (w : Surroundings α) (r : Reaction α Unit) (h : c.Busy) :
    Learns 0 c (c.tell w r).2 := by
  have hreact := Learns.react w r h
  rcases tell_cases w r c with heq | heq | ⟨entry, heq⟩ <;> rw [heq]
  · exact hreact
  · exact hreact
  · exact hreact.before (.note _ _)

theorem Learns.askMarket (w : Surroundings α) (bars : List (Bar α)) (h : c.Busy) :
    Learns 0 c (c.askMarket w bars).2 := by
  have hcounted : Learns 0 c (({ c with calls := { c.calls with market := c.calls.market + 1 } } :
    Controller α).note (.marketAsked bars.length)) := .of_same rfl rfl rfl
  exact hcounted.before (.react w _ h)

theorem Learns.askPerformance (w : Surroundings α) (h : c.Busy) :
    Learns 0 c (c.askPerformance w).2 := by
  unfold Controller.askPerformance
  cases w.performance with
  | none => exact .refl c
  | some ask =>
    have hcounted :
        Learns 0 c (({ c with calls := { c.calls with performance := c.calls.performance + 1 } } :
      Controller α).note .performanceAsked) := .of_same rfl rfl rfl
    exact hcounted.before (.react w _ h)

theorem Learns.tellClamp (w : Surroundings α) (e : Pricing.FloorClamp α) (h : c.Busy) :
    Learns 0 c (c.tellClamp w e).2 := by
  unfold Controller.tellClamp
  cases w.listeners with
  | none => exact .refl c
  | some l =>
    have hcounted : Learns 0 c (({ c with calls := { c.calls with clamp := c.calls.clamp + 1 } } :
      Controller α).note (.clamped e)) := .of_same rfl rfl rfl
    exact hcounted.before (.tell w _ h)

theorem Learns.price (w : Surroundings α) (estimate : Volatility.Estimate α) (market : Market α)
    (now gamma : α) (h : c.Busy) : Learns 0 c (c.price w estimate market now gamma).2 := by
  unfold Controller.price
  dsimp only
  split
  · exact .refl c
  · next quote hquote =>
    have hlogged := Aside.logAll
      (Pricing.logOf ⟨market, gamma, estimate.value, c.config.timeHorizonSeconds⟩ quote) c
    have hlearns := Learns.logAll
      (Pricing.logOf ⟨market, gamma, estimate.value, c.config.timeHorizonSeconds⟩ quote) c
    cases hclamp : quote.floorClamp with
    | none => exact hlearns
    | some e => exact hlearns.before (.tellClamp w e (hlogged.busy h))

/-! ## Consulting the source -/

/-- The source that a computation asks, with what it is told, where it comes to that. -/
def consultation? (w : Surroundings α) (bars : List (Bar α)) (now : α) (c : Controller α) :
    Option (Gamma.Source α × Gamma.Context α) :=
  match Volatility.estimate bars c.config.volatilityInterval now with
  | .error _ => none
  | .ok estimate =>
    match c.askMarket w bars with
    | (.error _, _) => none
    | (.ok market, after) =>
      after.source.bind fun source =>
        match after.askPerformance w with
        | (.error _, _) => none
        | (.ok performance, _) =>
          some (source, ⟨market, estimate.value, now, after.published.map (·.optimalSpread),
            performance⟩)

omit [NumberText α] in
/-- A source that was asked is kept, and one that was replaced meanwhile is not. -/
theorem Learns.keepSource {source : Gamma.Source α} (hsource : c.source = some source)
    (h : Learns 0 c d) (context : Gamma.Context α) :
    ∃ asked ≤ 1, Learns asked c (d.keepSource c.switches (source.next context).1) := by
  unfold Controller.keepSource
  by_cases hswitches : d.switches = c.switches
  · rw [if_pos hswitches]
    have hleads :
        Gamma.Source.Leads (sourceSettings c.config) 1 0 c.source
          (some (source.next context).1) := by
      rw [hsource]
      exact .asked context (.refl _)
    exact ⟨1, Nat.le_refl 1, h.config, 0, hswitches, hleads⟩
  · rw [if_neg hswitches]
    exact ⟨0, Nat.zero_le 1, h⟩

/-- A computation consults the source at most once. -/
theorem Learns.compute (w : Surroundings α) (bars : List (Bar α)) (now : α) (h : c.Busy) :
    ∃ asked ≤ 1, Learns asked c (c.compute w bars now).2 ∧
      (c.consultation? w bars now = none → asked = 0) := by
  have hmarket := Learns.askMarket w bars h
  have hasked := Aside.askMarket w bars h
  unfold Controller.compute consultation?
  cases Volatility.estimate bars c.config.volatilityInterval now with
  | error f => exact ⟨0, Nat.zero_le 1, .refl c, fun _ => rfl⟩
  | ok estimate =>
    rcases hm : c.askMarket w bars with ⟨result, after⟩
    rw [hm] at hmarket hasked
    cases result with
    | error f => exact ⟨0, Nat.zero_le 1, hmarket, fun _ => rfl⟩
    | ok market =>
      dsimp only
      cases hsource : after.source with
      | none => exact ⟨0, Nat.zero_le 1, hmarket, fun _ => rfl⟩
      | some source =>
        have hbusy := hasked.busy h
        have hperformance := Learns.askPerformance w hbusy
        have hbusy' := (Aside.askPerformance w hbusy).busy hbusy
        simp only [Controller.computeWith, Option.bind_some]
        rcases hp : after.askPerformance w with ⟨result, asked⟩
        rw [hp] at hperformance hbusy'
        cases result with
        | error f => exact ⟨0, Nat.zero_le 1, hmarket.before hperformance, fun _ => rfl⟩
        | ok performance =>
          dsimp only
          generalize (Gamma.Context.mk market estimate.value now _ performance) = context
          split
          · obtain ⟨count, hcount, hkept⟩ := hperformance.keepSource hsource context
            have hlogs := Learns.logAll (source.next context).2
              (asked.keepSource after.switches (source.next context).1)
            have hbusy'' := (Aside.logAll (source.next context).2 _).busy
              ((Aside.keepSource after.switches (source.next context).1 asked).busy hbusy')
            have hlearns := (hkept.trans hlogs).trans
              (Learns.price w estimate market now (source.next context).1.gamma hbusy'')
            exact ⟨count, hcount, hmarket.before hlearns,
              fun hnone => absurd hnone (Option.some_ne_none _)⟩
          · exact ⟨0, Nat.zero_le 1, hmarket.before hperformance,
              fun hnone => absurd hnone (Option.some_ne_none _)⟩

/-! ## Ending -/

theorem Learns.replace (w : Surroundings α) (next : Parameters α) (h : c.Busy) :
    Learns 0 c (c.replace w next).2 := by
  unfold Controller.replace
  cases w.listeners with
  | none => exact .of_same rfl rfl rfl
  | some l =>
    dsimp only
    generalize hnoted : Controller.note _ _ = noted
    have hsame : Learns 0 c noted := by
      rw [← hnoted]
      exact .of_same rfl rfl rfl
    have hbusy : noted.Busy := by
      rw [← hnoted]
      exact h
    exact hsame.before (.tell w _ hbusy)

theorem Learns.publish (w : Surroundings α) (next : Parameters α) (now : α) (h : c.Busy) :
    Learns 0 c (c.publish w next now).2 := by
  unfold Controller.publish
  dsimp only
  split
  · exact .of_same rfl rfl rfl
  · refine Learns.before (.of_same ?_ ?_ ?_) (.replace w next ?_)
    · rfl
    · rfl
    · rfl
    · exact h
  · exact .of_same rfl rfl rfl

theorem Learns.caught (w : Surroundings α) (f : Failure α) (now : α) (h : c.Busy) :
    Learns 0 c (c.caught w f now).2 :=
  caught_stages w f now h .refl (fun h₁ h₂ => h₁.before h₂) (fun _ _ _ _ _ => .of_same rfl rfl rfl)
    (fun _ _ => .of_same rfl rfl rfl) fun _ reaction hd => .tell w reaction hd

end Refresh.Controller

end MarketMaker
