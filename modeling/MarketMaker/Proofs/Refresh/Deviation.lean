import MarketMaker.Proofs.Binary64
import MarketMaker.Proofs.Parameters
import MarketMaker.Proofs.Refresh.Publishing
import MarketMaker.Proofs.Refresh.Serving

/-!
# The published set does not drift from the computed one

Every set that a cycle comes to is compared with the published one, however long ago that was
published. So after a cycle that has succeeded the published set is the new one, or the new one is
near to it; and as long as nothing is published, all sets that were computed meanwhile are near to
one and the same set.
-/

namespace MarketMaker.Refresh.Controller

open Scalar

variable {α : Type} [Scalar α] [NumberText α] [Numeric α] [StrictScalar α]

variable {c : Controller α} {w : Surroundings α} {o : Outcome α} {d : Controller α}
  {next p : Parameters α}

/-- Of finite figures, a set is worth publishing exactly when it is not near to the published
one. -/
theorem isWorthPublishing_iff (hthreshold : isFinite c.config.significantChangeThreshold = true)
    (hp : c.published = some p) (hfinite : p.Finite) (hnext : next.Finite) :
    c.isWorthPublishing next = .ok false ↔ p.Near c.config.significantChangeThreshold next := by
  rw [isWorthPublishing_eq, hp, Option.all_some, Except.ok.injEq,
    Parameters.isSignificant_eq_false_iff hthreshold hfinite hnext]

/-- A set settles as its distance from the published one tells. -/
theorem Settles.unchanged_iff (h : Settles w next c o d)
    (hthreshold : isFinite c.config.significantChangeThreshold = true) (hp : c.published = some p)
    (hfinite : p.Finite) (hnext : next.Finite) :
    o = .unchanged ↔ p.Near c.config.significantChangeThreshold next := by
  rw [← isWorthPublishing_iff hthreshold hp hfinite hnext]
  rcases h with ⟨hkept, -, rfl⟩ | ⟨hout, -, ho⟩
  · exact iff_of_true rfl hkept
  · rw [hout]
    refine iff_of_false ?_ nofun
    rintro rfl
    rcases ho with ho | ho <;> cases ho

/-- **No creeping drift.** Take any moment `s` of a run and any later moment `d`.

A cycle in flight at `s` that has succeeded by `d`, with no other started, came to a set at one
moment in between. It has published that set; or it has left the published one, to which the new one
is near. Of finite figures it does the latter exactly when the new set is near to the published one.

As long as no set was published between `s` and `d`, every set that any cycle came to meanwhile is
near to the published one. -/
theorem published_near {config : Config α} {c₀ : Controller α} (hcreate : create config = .ok c₀)
    (hthreshold : isFinite config.significantChangeThreshold = true) (w : Surroundings α)
    (before after : List (Event α)) :
    let threshold := config.significantChangeThreshold
    let s := c₀.run w before
    let d := s.run w after
    (∀ y outcome, s.cycle = some y → y.outcome = none → d.cycles = s.cycles →
      d.outcomes[y.number]? = some outcome → outcome.isSuccess = true →
      ∃ waits rest next, after = waits ++ .resume :: rest ∧ ComesTo w (s.run w waits) next ∧
        d.schedule.lastUpdate = some y.startedAt ∧
        (outcome = .published ∧ Replaced w next s d ∨
          outcome = .unchanged ∧ Retained s d ∧
            ∃ p, d.published = some p ∧ (p.Finite → next.Finite → p.Near threshold next)) ∧
        ∀ p, s.published = some p → p.Finite → next.Finite →
          (outcome = .unchanged ↔ p.Near threshold next)) ∧
    (d.publications = s.publications → ∀ first rest next p, after = first ++ .resume :: rest →
      ComesTo w (s.run w first) next → s.published = some p → p.Finite → next.Finite →
      d.published = some p ∧ p.Near threshold next) := by
  have hs : (c₀.run w before).Orderly fun _ _ => True := .run (.create hcreate) w before
  have hconfigured : (c₀.run w before).config = config := (served_run hcreate w before).1
  generalize c₀.run w before = s at hs hconfigured ⊢
  have hconfig (events : List (Event α)) : (s.run w events).config = config := by
    obtain ⟨asked, hlearns⟩ := learns_run hs w events
    exact hlearns.config.trans hconfigured
  constructor
  · intro y outcome hy hrunning hlast houtcome hsuccess
    obtain ⟨waits, rest, z, fetched, hsplit, hwaits, hgoes, -, hstarted, hend, hlater⟩ :=
      exists_goesOn hs w hy hrunning hlast houtcome
    have horderly := hs.run w waits
    have hbusy := (horderly.busy hgoes.cycle hgoes.fetched).2
    obtain ⟨hlasts, -⟩ := hgoes.lasts horderly hlater
    have hbefore := hwaits.untouched.retained
    have hafter := hlasts.untouched.retained
    rw [← hconfig waits] at hthreshold ⊢
    rcases hgoes.settles hbusy w with ⟨-, hnone⟩ | ⟨next, hcomes, hdated, hsettles⟩
    · rw [hend] at hnone
      cases hnone.symm.trans hsuccess
    rw [hend] at hsettles
    refine ⟨waits, rest, next, hsplit, hcomes, ?_, ?_, fun p hp => ?_⟩
    · rw [hlasts.schedule, hdated, hstarted]
    · rcases hsettles with ⟨hkept, hretained, ho⟩ | ⟨-, hreplaced, ho⟩
      · obtain ⟨p, hp⟩ := exists_published_of_kept hkept
        have hretained' := hretained.trans hafter
        exact .inr ⟨ho, hbefore.trans hretained', p, hretained'.published.trans hp,
          fun hfinite hnext => (isWorthPublishing_iff hthreshold hp hfinite hnext).mp hkept⟩
      · refine .inl ⟨ho.resolve_right fun hfailed => ?_, (hreplaced.after hafter).before hbefore⟩
        cases hfailed.symm.trans hsuccess
    · exact hsettles.unchanged_iff hthreshold (hbefore.published.trans hp)
  · rintro hquiet first rest next p rfl hcomes hp hfinite hnext
    obtain ⟨hretained, hkept⟩ := hcomes.kept_of_quiet hs hquiet
    rw [← hconfig first] at hthreshold ⊢
    have hnear :=
      (isWorthPublishing_iff hthreshold (hretained.published.trans hp) hfinite hnext).mp hkept
    exact ⟨((retained_run hs w _).2 hquiet).published.trans hp, hnear⟩

/-- A refresh of an idle controller starts a cycle, which goes on with the bars that are answered at
once. -/
theorem goesOn_answering (c : Controller Float) (hidle : c.cycle = none)
    (hstopped : c.stopped = false) (now : Float) (bars : List (Bar Float)) :
    let w := answering (.now (.ok bars))
    (∃ y, (c.run w [.refresh now]).cycle = some y ∧ y.outcome = none ∧ y.number = c.cycles) ∧
      ∃ z, GoesOn (c.run w [.refresh now, .make, .deliver]) z (.ok bars) ∧ z.startedAt = now := by
  obtain ⟨config, pricing, mode, source, switches, schedule, phase, published, publications,
    cycle, cycles, stopped, stopping, calls, trace⟩ := c
  obtain rfl : cycle = none := hidle
  obtain rfl : stopped = false := hstopped
  exact ⟨⟨_, rfl, rfl, rfl⟩, _, ⟨rfl, rfl, nofun, rfl⟩, rfl⟩

/-- The second cycle of the calm sample is in flight, and goes on with the bars. -/
theorem goesOn_calm :
    let w := answering (.now (.ok sampleBars))
    let s := calmSample.run w (wholeCycle 1 ++ [.refresh 100000])
    (∃ y, s.cycle = some y ∧ y.outcome = none ∧ y.number = 1) ∧
      ∃ z, GoesOn (s.run w [.make, .deliver]) z (.ok sampleBars) ∧ z.startedAt = 100000 := by
  intro w s
  obtain ⟨hidle, hstopped, hcount⟩ : (calmSample.run w (wholeCycle 1)).cycle.isNone = true ∧
      (calmSample.run w (wholeCycle 1)).stopped = false ∧
      (calmSample.run w (wholeCycle 1)).cycles = 1 := by
    decide +kernel
  have hs : s = (calmSample.run w (wholeCycle 1)).run w [.refresh 100000] :=
    run_append_cons w calmSample _ _ []
  rw [hs]
  generalize calmSample.run w (wholeCycle 1) = c at hidle hstopped hcount ⊢
  rw [← hcount]
  exact goesOn_answering c (Option.isNone_iff_eq_none.mp hidle) hstopped 100000 sampleBars

/-- Two cycles with the same two bars. The second comes to a set that is near to the one that the
first has published, and which is still published. -/
theorem published_near_calm :
    let w := answering (.now (.ok sampleBars))
    let s := calmSample.run w (wholeCycle 1 ++ [.refresh 100000])
    let after : List (Event Float) := [.make, .deliver, .resume, .clear]
    let d := s.run w after
    create calmConfig = .ok calmSample ∧ isFinite calmConfig.significantChangeThreshold = true ∧
      ∃ y outcome p next, (s.cycle = some y ∧ y.outcome = none ∧ d.cycles = s.cycles ∧
        d.outcomes[y.number]? = some outcome ∧ outcome.isSuccess = true ∧
        d.publications = s.publications) ∧
        ComesTo w (s.run w [.make, .deliver]) next ∧ p.Finite ∧ next.Finite ∧
        Retained s d ∧ d.published = some p ∧
        p.Near calmConfig.significantChangeThreshold next := by
  intro w s after d
  have hthreshold : isFinite calmConfig.significantChangeThreshold = true := by decide +kernel
  obtain ⟨hcycles, hquiet, hends, hset, hstopped, hshort, hcomputed⟩ :
      d.cycles = s.cycles ∧ d.publications = s.publications ∧
        d.outcomes[1]?.any Outcome.isSuccess = true ∧
        s.published.any (fun p => p.compared.all isFinite) = true ∧
        (s.run w [.make, .deliver]).stopped = false ∧
        (sampleBars.length : Float) < (s.run w [.make, .deliver]).config.lookback ∧
        (((s.run w [.make, .deliver]).beginShort sampleBars).compute w sampleBars
          100000).1.toOption.any (fun next => next.compared.all isFinite) = true := by
    decide +kernel
  obtain ⟨outcome, houtcome, hsuccess⟩ := (Option.any_eq_true _ _).mp hends
  obtain ⟨p, hp, hfinite⟩ := (Option.any_eq_true _ _).mp hset
  obtain ⟨next, hnext, hnextFinite⟩ := (Option.any_eq_true _ _).mp hcomputed
  obtain ⟨hcycle, hstretch⟩ :=
    published_near create_calmConfig hthreshold w (wholeCycle 1 ++ [.refresh 100000]) after
  obtain ⟨⟨y, hy, hrunning, hnumber⟩, z, hgoes, hstarted⟩ :
      (∃ y, s.cycle = some y ∧ y.outcome = none ∧ y.number = 1) ∧
        ∃ z, GoesOn (s.run w [.make, .deliver]) z (.ok sampleBars) ∧ z.startedAt = 100000 :=
    goesOn_calm
  have houtcome' : d.outcomes[y.number]? = some outcome := by rw [hnumber, houtcome]
  have hcomes : ComesTo w (s.run w [.make, .deliver]) next := by
    refine ⟨z, sampleBars, _, hgoes.computes_short hstopped hshort, ?_⟩
    rw [hstarted]
    cases hcompute :
      (((s.run w [.make, .deliver]).beginShort sampleBars).compute w sampleBars 100000).1 with
    | error f =>
      rw [hcompute] at hnext
      cases hnext
    | ok set =>
      rw [hcompute] at hnext
      exact congrArg Except.ok (Option.some.inj hnext)
  have hpFinite : p.Finite := List.all_eq_true.mp hfinite
  have hnFinite : next.Finite := List.all_eq_true.mp hnextFinite
  obtain ⟨hpublished, hnear⟩ :=
    hstretch hquiet [.make, .deliver] [.clear] next p rfl hcomes hp hpFinite hnFinite
  obtain ⟨waits, rest, set, -, -, -, hcase, -⟩ :=
    hcycle y outcome hy hrunning hcycles houtcome' hsuccess
  refine ⟨create_calmConfig, hthreshold, y, outcome, p, next,
    ⟨hy, hrunning, hcycles, houtcome', hsuccess,
      hquiet⟩, hcomes, hpFinite, hnFinite, ?_, hpublished, hnear⟩
  rcases hcase with ⟨-, hreplaced⟩ | ⟨-, hretained, -⟩
  · exact absurd (hreplaced.publications.symm.trans hquiet) (Nat.succ_ne_self _)
  · exact hretained

end MarketMaker.Refresh.Controller
