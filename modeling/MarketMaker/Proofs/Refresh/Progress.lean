import MarketMaker.Proofs.Refresh.Cancelling
import MarketMaker.Proofs.Refresh.Gate

/-!
# Every cycle moves the schedule

A cycle that ends in a controller that nobody has stopped is to **move** the schedule (`Moves`): it
succeeds and dates the last success, or it fails, puts off the next attempt and tells the listener.
Either way ticks wait, so that no error is met by one attempt right after the other.

A cycle can fail with what is **tellable**: no cancellation, and nothing that cannot be put in
words. All that the engine throws itself is tellable, and so is what the request for bars comes to.
What the sources of the market and of the performance throw goes into the cycle as it is
(`ThrownInto`). A cancellation among it is taken for the caller's own, and of something without
words no error can be made: then the cycle ends and the schedule stays.

That is one of two ways for a cycle not to move the schedule. The other is a listener that is told
of the failure and throws something without words itself. The next attempt is put off all the same,
but the cycle breaks off.
-/

namespace MarketMaker

open Scalar

variable {α β γ : Type} [NumberText α]

/-! ## What a cycle can fail with -/

/-- A failure that a cycle can fail with. -/
structure Failure.IsTellable (f : Failure α) : Prop where
  /-- It does not stand for a cancellation. -/
  heeded : f.isCancellation = false
  /-- It can be put in words. -/
  words : f.hasWords = true

theorem Failure.IsTellable.textless : (textless : Failure α).IsTellable := ⟨rfl, rfl⟩

/-- Whether the failure, if there is one, is one that a cycle can fail with. -/
def Tellable (x : Except (Failure α) β) : Prop := ∀ f, x = .error f → f.IsTellable

theorem EngineError.isTellable_failure (e : EngineError α) : e.failure.IsTellable := by
  unfold failure
  split
  · exact ⟨rfl, rfl⟩
  · exact ⟨rfl, rfl⟩

theorem Tellable.ok (b : β) : Tellable (.ok b : Except (Failure α) β) := nofun

theorem Tellable.error {f : Failure α} (h : f.IsTellable) :
    Tellable (.error f : Except (Failure α) β) := by
  rintro g ⟨⟩
  exact h

theorem Tellable.bind {x : Except (Failure α) β} {g : β → Except (Failure α) γ} (hx : Tellable x)
    (hg : ∀ b, Tellable (g b)) : Tellable (x >>= g) := by
  cases x with
  | ok b => exact hg b
  | error f => exact .error (hx f rfl)

theorem Tellable.mapError (x : Except (EngineError α) β) : Tellable (x.mapError (·.failure)) := by
  cases x with
  | ok b => exact .ok b
  | error e => exact .error e.isTellable_failure

theorem Tellable.checkUsable (figures : List α) : Tellable (checkUsable figures) := by
  unfold MarketMaker.checkUsable
  split
  · exact .ok ()
  · exact .error .textless

theorem Volatility.estimate_tellable [Scalar α] (bars : List (Bar α)) (interval : Choice Interval α)
    (now : α) : Tellable (estimate bars interval now) := by
  intro f hf
  refine ⟨?_, Refresh.Controller.estimate_worded bars interval now f hf⟩
  unfold estimate at hf
  split at hf
  · next g hg =>
    obtain rfl := Except.error.inj hf
    exact Refresh.Controller.isCancellation_of_failure? hg
  · split at hf
    · cases hf
    · obtain rfl := Except.error.inj hf
      rfl

namespace Refresh.Controller

variable {c d : Controller α} [Scalar α] [Numeric α]

/-! ## What is thrown into a computation -/

variable {w : Surroundings α} {bars : List (Bar α)} {now : α} {b : Controller α} {f : Failure α}

/-- What those throw who are asked in a computation: the source of the market, and the one of the
performance where a source of risk aversion is in place. -/
inductive Raises (w : Surroundings α) (bars : List (Bar α)) (now : α) (b : Controller α) :
    Failure α → Prop where
  /-- What the source of the market throws. -/
  | market {estimate : Volatility.Estimate α} {f : Failure α}
    (hseries : Volatility.estimate bars b.config.volatilityInterval now = .ok estimate)
    (hthrown : (w.market b.calls.market bars).result = .error f) : Raises w bars now b f
  /-- What the tracker of performance throws. -/
  | performance {estimate : Volatility.Estimate α} {market : Market α}
    {ask : Nat → Reaction α (Option (Performance α))} {f : Failure α}
    (hseries : Volatility.estimate bars b.config.volatilityInterval now = .ok estimate)
    (hanswer : (w.market b.calls.market bars).result = .ok market)
    (hplaced : (b.placed w bars).isSome = true) (hask : w.performance = some ask)
    (hthrown : (ask (b.askMarket w bars).2.calls.performance).result = .error f) :
    Raises w bars now b f

omit [Numeric α] in
theorem Raises.throws (h : Raises w bars now b f) : w.Throws f := by
  cases h with
  | market _ hthrown => exact .inl ⟨_, _, hthrown⟩
  | performance _ _ _ hask hthrown => exact .inr ⟨_, _, hask, hthrown⟩

/-- What is thrown in a computation is what it comes to. -/
theorem Raises.compute_eq (h : Raises w bars now b f) (hbusy : b.Busy) :
    (b.compute w bars now).1 = .error f := by
  have hresult := askMarket_result w bars hbusy
  have haside := Aside.askMarket w bars hbusy
  cases h with
  | market hseries hthrown =>
    rcases hm : b.askMarket w bars with ⟨result, after⟩
    rw [hm, hthrown] at hresult
    obtain rfl : result = .error f := hresult
    simp only [compute, hseries, hm]
  | performance hseries hanswer hplaced hask hthrown =>
    rw [placed] at hplaced
    rcases hm : b.askMarket w bars with ⟨result, after⟩
    rw [hm] at hresult haside hplaced hthrown
    obtain rfl : result = .ok _ := hresult.trans hanswer
    obtain ⟨source, hsource⟩ : ∃ source, after.source = some source :=
      Option.isSome_iff_exists.mp hplaced
    have hperformance := askPerformance_result hask (haside.busy hbusy)
    rcases hp : after.askPerformance w with ⟨result, told⟩
    rw [hp] at hperformance
    obtain rfl : result = .error f := hperformance.trans hthrown
    simp only [compute, hseries, hm, hsource, computeWith, hp]

/-! ## What a computation fails with -/

omit [Numeric α] in
theorem sized_tellable (config : Config α) (estimate : Volatility.Estimate α) (market : Market α)
    (now : α) : Tellable (sized config estimate market now) :=
  .bind (.checkUsable _) fun _ => .bind (.mapError _) fun _ => .ok _

omit [Numeric α] in
theorem quoted_tellable (c : Controller α) (estimate : Volatility.Estimate α) (market : Market α)
    (now gamma : α) (quote : Pricing.Quote α) :
    Tellable (quoted c estimate market now gamma quote) := by
  refine .bind (.checkUsable _) fun _ => .bind (.mapError _) fun _ => ?_
  dsimp only
  cases c.source with
  | none => exact .error ⟨rfl, rfl⟩
  | some s => exact .ok _

omit [Numeric α] in
theorem tellClamp_tellable (w : Surroundings α) (event : Pricing.FloorClamp α) (c : Controller α) :
    Tellable (c.tellClamp w event).1 := by
  intro f hf
  obtain rfl := eq_textless_of_tellClamp hf
  exact .textless

omit [Numeric α] in
theorem price_tellable (w : Surroundings α) (estimate : Volatility.Estimate α) (market : Market α)
    (now gamma : α) (c : Controller α) : Tellable (c.price w estimate market now gamma).1 := by
  unfold price
  dsimp only
  split
  · next e _ => exact .error e.isTellable_failure
  · next quote _ =>
    cases quote.floorClamp with
    | none => exact quoted_tellable _ _ _ _ _ _
    | some event => exact .bind (tellClamp_tellable w event _) fun _ => quoted_tellable _ _ _ _ _ _

theorem computeWith_error_cases {source : Gamma.Source α} {estimate : Volatility.Estimate α}
    {market : Market α} (hbusy : c.Busy)
    (h : (c.computeWith w source estimate market now).1 = .error f) :
    (∃ ask, w.performance = some ask ∧ (ask c.calls.performance).result = .error f) ∨
    f.IsTellable := by
  unfold computeWith at h
  rcases hp : c.askPerformance w with ⟨result, told⟩
  simp only [hp] at h
  cases result with
  | error g =>
    obtain rfl := Except.error.inj h
    cases hask : w.performance with
    | none => simp [askPerformance, hask] at hp
    | some ask =>
      have hresult := askPerformance_result hask hbusy
      rw [hp] at hresult
      exact .inl ⟨ask, rfl, hresult.symm⟩
  | ok performance =>
    dsimp only at h
    split at h
    · exact .inr (price_tellable _ _ _ _ _ _ f h)
    · obtain rfl := Except.error.inj h
      exact .inr .textless

/-- What a computation fails with was thrown in it, or can be told. -/
theorem compute_error_cases (hbusy : b.Busy) (h : (b.compute w bars now).1 = .error f) :
    Raises w bars now b f ∨ f.IsTellable := by
  have hresult := askMarket_result w bars hbusy
  have haside := Aside.askMarket w bars hbusy
  unfold compute at h
  cases hseries : Volatility.estimate bars b.config.volatilityInterval now with
  | error g =>
    rw [hseries] at h
    obtain rfl := Except.error.inj h
    exact .inr (Volatility.estimate_tellable bars b.config.volatilityInterval now g hseries)
  | ok estimate =>
    rcases hm : b.askMarket w bars with ⟨result, after⟩
    rw [hm] at hresult haside
    simp only [hseries, hm] at h
    cases result with
    | error g =>
      obtain rfl := Except.error.inj h
      exact .inl (.market hseries hresult.symm)
    | ok market =>
      dsimp only at h
      cases hsource : after.source with
      | none =>
        rw [hsource] at h
        exact .inr (sized_tellable _ _ _ _ f h)
      | some source =>
        rw [hsource] at h
        refine (computeWith_error_cases (haside.busy hbusy) h).imp_left ?_
        rintro ⟨ask, hask, hthrown⟩
        have hplaced : (b.placed w bars).isSome = true := by
          rw [placed, hm]
          exact Option.isSome_iff_exists.mpr ⟨source, hsource⟩
        exact .performance hseries hresult.symm hplaced hask (by rwa [hm])

/-! ## Failing -/

omit [Scalar α] [Numeric α] in
/-- Without words there is no error. -/
theorem toError_of_wordless (h : f.hasWords = false) : f.toError = .error .textless := by
  simp [Failure.toError, h]

/-- What a listener throws goes no further exactly when there are words for it. -/
theorem tell_eq_ok_iff {r : Reaction α Unit} (h : c.Busy) :
    (c.tell w r).1 = .ok () ↔ Worded r.result := by
  refine ⟨fun htold f hf => ?_, fun hr => tell_eq_ok hr h⟩
  have hresult := react_result (w := w) r h
  cases hwords : f.hasWords with
  | true => rfl
  | false =>
    unfold tell at htold
    rcases hp : c.react w r with ⟨result, after⟩
    rw [hp, hf] at hresult
    obtain rfl : result = .error f := hresult
    simp only [hp, toError_of_wordless hwords] at htold
    cases htold

/-- What a cycle does that started at a time and fails with an error. -/
structure FailsBy (w : Surroundings α) (now : α) (e : Failure α) (c : Controller α) (o : Outcome α)
    (d : Controller α) : Prop where
  /-- Ticks wait for the backoff after that time. -/
  retry : d.schedule.retryNotBefore = some (now + c.config.retryBackoffSeconds * 1000)
  /-- The listener, if there is one, is told of the error. -/
  reports : d.reports = c.reports ++ w.listeners.toList.map fun _ => e
  /-- It fails with the error, or breaks off. -/
  outcome : o = .failed e ∨ ∃ g, o = .broken g
  /-- It breaks off when the listener, told of the error, throws something that cannot be put in
  words. -/
  failed : o = .failed e ↔ ∀ l, w.listeners = some l → Worded (l.onFailure c.calls.failure e).result

omit [Numeric α] in
/-- What a later stage of a cycle does is what the cycle does, if the stages before have reported
nothing. -/
theorem FailsBy.before {now : α} {e : Failure α} {g : Controller α} {o : Outcome α}
    (h : FailsBy w now e d o g) (hkeeps : Keeps c d) (hfailures : d.calls.failure = c.calls.failure)
    (hreports : d.reports = c.reports) : FailsBy w now e c o g := by
  refine ⟨?_, ?_, h.outcome, ?_⟩
  · rw [h.retry, hkeeps.config]
  · rw [h.reports, hreports]
  · rw [h.failed, hfailures]

/-- The listener is told of an error, and the cycle comes to it if the listener keeps to words. -/
theorem tellFailure_outcome (w : Surroundings α) (e : Failure α) (h : c.Busy) :
    (c.tellFailure w e).2.reports = c.reports ++ w.listeners.toList.map (fun _ => e) ∧
      ((c.tellFailure w e).1 = .failed e ∨ ∃ g, (c.tellFailure w e).1 = .broken g) ∧
      ((c.tellFailure w e).1 = .failed e ↔
        ∀ l, w.listeners = some l → Worded (l.onFailure c.calls.failure e).result) := by
  cases hlisteners : w.listeners with
  | none => simp [tellFailure, hlisteners]
  | some l =>
    obtain ⟨noted, hnoted⟩ : ∃ noted, noted =
        ({ c with calls := { c.calls with failure := c.calls.failure + 1 } } : Controller α).note
          (.failed e) :=
      ⟨_, rfl⟩
    have hbusy : noted.Busy := by
      rw [hnoted]
      exact h
    have htold := tell_eq_ok_iff (w := w) (r := l.onFailure c.calls.failure e) hbusy
    have hreports := (Aside.tell w (l.onFailure c.calls.failure e) hbusy).reports
    have hreported : noted.reports = c.reports ++ [e] := by
      rw [hnoted, reports_note]
      rfl
    simp only [tellFailure, hlisteners, ← hnoted, Option.some.injEq, forall_eq']
    rcases hp : noted.tell w (l.onFailure c.calls.failure e) with ⟨result, after⟩
    rw [hp] at htold hreports
    cases result with
    | ok _ => exact ⟨hreports.trans hreported, .inl rfl, iff_of_true rfl (htold.mp rfl)⟩
    | error g =>
      refine ⟨hreports.trans hreported, .inr ⟨g, rfl⟩,
        iff_of_false (fun h => by cases h) fun hw => ?_⟩
      cases htold.mpr hw

/-- A cycle in which something tellable was thrown fails, unless it is stopped. -/
theorem caught_fails (w : Surroundings α) (now : α) (h : c.Busy) (hstopped : c.stopped = false)
    (hf : f.IsTellable) : ∃ e, FailsBy w now e c (c.caught w f now).1 (c.caught w f now).2 := by
  obtain ⟨e, he⟩ := exists_toError hf.words
  have hheeded : (f.isCancellation || c.stopped) = false := by rw [hf.heeded, hstopped]; rfl
  simp only [caught, hheeded, he, fail, checkUsable_eq_ok, Bool.false_eq_true, if_false]
  generalize hdated : log .warn _ _ _ = dated
  have hbusy : dated.Busy := by
    rw [← hdated]
    exact h
  obtain ⟨hreports, houtcome, hfailed⟩ := tellFailure_outcome w e hbusy
  refine ⟨e, ?_, ?_, houtcome, ?_⟩
  · have hschedule := (tellFailure_spec w e hbusy).2.1
    rw [hschedule, ← hdated]
    rfl
  · rw [hreports, ← hdated, reports_log]
    rfl
  · rw [hfailed, ← hdated]
    rfl

omit [Numeric α] in
/-- A cycle in which something was thrown that cannot be told ends with nothing done. -/
theorem caught_untellable (w : Surroundings α) (now : α) (c : Controller α) (hf : ¬ f.IsTellable) :
    (c.caught w f now).2 = c ∧
    ((c.caught w f now).1 = .cancelled ∨ ∃ g, (c.caught w f now).1 = .broken g) := by
  unfold caught
  split
  · exact ⟨rfl, .inl rfl⟩
  · next hheeded =>
    have hcancels : f.isCancellation = false := by
      rw [Bool.not_eq_true, Bool.or_eq_false_iff] at hheeded
      exact hheeded.1
    have hwords : f.hasWords = false := by
      rw [← Bool.not_eq_true]
      exact fun hwords => hf ⟨hcancels, hwords⟩
    rw [toError_of_wordless hwords]
    exact ⟨rfl, .inr ⟨_, rfl⟩⟩

/-! ## The end of a cycle -/

/-- The cycle in flight has something thrown into it when it goes on. -/
def ThrownInto (w : Surroundings α) (c : Controller α) (f : Failure α) : Prop :=
  ∃ y bars b, Computes c y bars b ∧ Raises w bars y.startedAt b f

/-- How a cycle that started at a time ends in a controller that is not stopped. -/
inductive EndsBy (w : Surroundings α) (now : α) (c : Controller α) (o : Outcome α)
    (d : Controller α) : Prop where
  /-- Nothing is thrown into it, and it succeeds. -/
  | success (hquiet : ∀ f, ¬ ThrownInto w c f) (hsuccess : o.isSuccess = true)
    (hschedule : d.schedule = { c.schedule with lastUpdate := some now, retryNotBefore := none })
    (hreports : d.reports = c.reports)
  /-- Only what can be told is thrown into it, and it fails with that or with something else. -/
  | failure {e : Failure α} (htellable : ∀ f, ThrownInto w c f → f.IsTellable)
    (hfails : FailsBy w now e c o d)
  /-- Something is thrown into it that cannot be told, and it comes to nothing. -/
  | nothing {f : Failure α} (hthrown : ThrownInto w c f) (huntellable : ¬ f.IsTellable)
    (houtcome : o = .cancelled ∨ ∃ g, o = .broken g) (hschedule : d.schedule = c.schedule)
    (hreports : d.reports = c.reports)

omit [NumberText α] [Scalar α] [Numeric α] in
/-- A controller that is not stopped was not stopped before. -/
theorem Keeps.unstopped (h : Keeps c d) (hd : d.stopped = false) : c.stopped = false := by
  cases hc : c.stopped with
  | false => rfl
  | true => exact (h.stopped hc).symm.trans hd

variable {y : Cycle α}

omit [Numeric α] in
/-- There is one computation that something can be thrown into. -/
theorem Computes.raises (h : Computes c y bars b) (hf : ThrownInto w c f) :
    Raises w bars y.startedAt b f := by
  obtain ⟨z, bars', b', h', hraises⟩ := hf
  obtain ⟨rfl, rfl, rfl⟩ := h.eq h'
  exact hraises

omit [Numeric α] in
/-- Among articulate surroundings that throw no cancellation, all that is thrown can be told. -/
theorem ThrownInto.isTellable (h : ThrownInto w c f) (hw : w.Articulate)
    (hheeded : ∀ f, w.Throws f → f.isCancellation = false) : f.IsTellable := by
  obtain ⟨y, bars, b, -, hraises⟩ := h
  refine ⟨hheeded f hraises.throws, ?_⟩
  cases hraises with
  | market _ hthrown => exact hw.market _ _ f hthrown
  | performance _ _ _ hask hthrown => exact hw.performance _ hask _ f hthrown

/-- A computed set ends the cycle as a success, or the listener makes it fail. -/
theorem publish_ends (w : Surroundings α) (next : Parameters α) (now : α) (h : c.Busy) :
    match c.publish w next now with
    | (.ok outcome, after) => outcome.isSuccess = true ∧
        after.schedule = { c.schedule with lastUpdate := some now, retryNotBefore := none } ∧
        after.reports = c.reports
    | (.error f, after) => (after.caught w f now).2.stopped = false →
        ∃ e, FailsBy w now e c (after.caught w f now).1 (after.caught w f now).2 := by
  obtain ⟨hkeeps, hschedule, hfailures, hresult⟩ := publish_spec w next now h
  have hreports := publish_reports w next now h
  rcases hp : c.publish w next now with ⟨published, after⟩
  rw [hp] at hkeeps hschedule hfailures hresult hreports
  cases published with
  | ok outcome => exact ⟨hresult, hschedule, hreports⟩
  | error f =>
    intro hend
    obtain rfl := eq_textless_of_publish (congrArg Prod.fst hp)
    have hafter := hkeeps.busy h
    have hstopped := (Fails.caught w .textless now hafter).keeps.unstopped hend
    obtain ⟨e, he⟩ := caught_fails w now hafter hstopped .textless
    exact ⟨e, he.before hkeeps hfailures hreports⟩

/-- The end of a cycle whose bars have come. -/
theorem Computes.endsBy (h : Computes c y bars b) (hbusy : c.Busy) (w : Surroundings α)
    (hend : (c.conclude w (.ok bars) y.startedAt).2.stopped = false) :
    EndsBy w y.startedAt c (c.conclude w (.ok bars) y.startedAt).1
      (c.conclude w (.ok bars) y.startedAt).2 := by
  have hbegun := h.prepares.keeps.busy hbusy
  obtain ⟨asked, -, hprepares, -⟩ := h.prepares_compute hbusy w
  have hraises {f : Failure α} (hf : ThrownInto w c f) :
      (b.compute w bars y.startedAt).1 = .error f :=
    (h.raises hf).compute_eq hbegun
  rw [h.conclude_eq w] at hend ⊢
  rcases hcompute : b.compute w bars y.startedAt with ⟨result, computed⟩
  rw [hcompute] at hprepares hraises
  have hcomputed := hprepares.keeps.busy hbusy
  simp only [hcompute] at hend ⊢
  cases result with
  | error g =>
    -- What the computation failed with decides, and it is all that was thrown.
    by_cases hg : g.IsTellable
    · have hstopped := (Fails.caught w g y.startedAt hcomputed).keeps.unstopped hend
      obtain ⟨e, he⟩ := caught_fails w y.startedAt hcomputed hstopped hg
      refine .failure (fun f hf => ?_)
        (he.before hprepares.keeps hprepares.failures hprepares.reports)
      obtain rfl := Except.error.inj (hraises hf)
      exact hg
    · have hthrown := (compute_error_cases hbegun (congrArg Prod.fst hcompute)).resolve_right hg
      obtain ⟨hsame, houtcome⟩ := caught_untellable w y.startedAt computed hg
      rw [hsame]
      exact .nothing ⟨y, bars, b, h, hthrown⟩ hg houtcome hprepares.schedule hprepares.reports
  | ok next =>
    have hquiet (f : Failure α) : ¬ ThrownInto w c f := fun hf => nomatch hraises hf
    have hentered := hprepares.trans (.enter .publishing computed)
    have hpublish := publish_ends w next y.startedAt (hentered.keeps.busy hbusy)
    rcases hp : { computed with phase := .publishing }.publish w next y.startedAt
      with ⟨published, after⟩
    rw [hp] at hpublish
    simp only [hp] at hend ⊢
    cases published with
    | ok outcome =>
      obtain ⟨hsuccess, hschedule, hreports⟩ := hpublish
      refine .success hquiet hsuccess ?_ (hreports.trans hentered.reports)
      rw [hschedule, ← hentered.schedule]
    | error g =>
      obtain ⟨e, he⟩ := hpublish hend
      exact .failure (fun f hf => absurd hf (hquiet f))
        (he.before hentered.keeps hentered.failures hentered.reports)

/-- **How a cycle ends in a controller that is not stopped.** There is no other way. -/
theorem GoesOn.endsBy {fetched : Except (Failure α) (List (Bar α))} (h : GoesOn c y fetched)
    (horderly : c.Orderly fun _ _ => True) (huncancelled : c.Uncancelled) (w : Surroundings α)
    (hend : (c.conclude w fetched y.startedAt).2.stopped = false) :
    EndsBy w y.startedAt c (c.conclude w fetched y.startedAt).1
      (c.conclude w fetched y.startedAt).2 := by
  have hbusy := (horderly.busy h.cycle h.fetched).2
  have hstopped := (Concludes.conclude w fetched y.startedAt hbusy).keeps.unstopped hend
  cases fetched with
  | ok bars =>
    obtain ⟨b, hb⟩ := h.computes hstopped
    exact hb.endsBy hbusy w hend
  | error f =>
    -- Without bars nobody is asked, and what the request came to can be told.
    have hf : f.IsTellable :=
      ⟨huncancelled hstopped y h.cycle f h.fetched, horderly.worded h.cycle h.fetched f rfl⟩
    obtain ⟨e, he⟩ := caught_fails w y.startedAt hbusy hstopped hf
    refine .failure ?_ he
    rintro g ⟨z, bars, b, hb, -⟩
    obtain rfl := Option.some.inj (h.cycle.symm.trans hb.cycle)
    cases h.fetched.symm.trans hb.fetched

/-! ## The schedule after a cycle -/

/-- As long as no further cycle was started, a tick at one of these times starts none. -/
def Rests (w : Surroundings α) (d : Controller α) (early : α → Prop) : Prop :=
  ∀ after now, (d.run w after).cycles = d.cycles → early now →
    (d.run w after).tick now = .ok (d.run w after)

/-- A cycle that was in flight at `r` has succeeded by `d`, and ticks wait for the interval. -/
structure Advances (w : Surroundings α) (r : Controller α) (y : Cycle α)
    (d : Controller α) : Prop where
  /-- Those who waited were told of a success. -/
  outcome : ∃ outcome, d.outcomes[y.number]? = some outcome ∧ outcome.isSuccess = true
  /-- The cycle counts as the last one that succeeded. -/
  schedule : d.schedule = { r.schedule with lastUpdate := some y.startedAt, retryNotBefore := none }
  /-- No failure was reported. -/
  reports : d.reports = r.reports
  /-- Until the interval has passed since its start, ticks do nothing. -/
  rests : Rests w d fun now => now - y.startedAt < r.config.updateIntervalSeconds * 1000

/-- A cycle that was in flight at `r` has put off the next attempt by `d` because of an error. -/
structure PutsOff (w : Surroundings α) (r : Controller α) (y : Cycle α) (e : Failure α)
    (d : Controller α) : Prop where
  /-- Ticks wait for the backoff after the start of the cycle. -/
  retry : d.schedule.retryNotBefore = some (y.startedAt + r.config.retryBackoffSeconds * 1000)
  /-- The listener, if there is one, was told of the error. -/
  reports : d.reports = r.reports ++ w.listeners.toList.map fun _ => e
  /-- Until the backoff has passed, ticks do nothing. -/
  rests : Rests w d fun now => now < y.startedAt + r.config.retryBackoffSeconds * 1000

/-- It has also failed with that error. -/
structure SetsBack (w : Surroundings α) (r : Controller α) (y : Cycle α) (e : Failure α)
    (d : Controller α) : Prop extends PutsOff w r y e d where
  /-- Those who waited were told of the error. -/
  outcome : d.outcomes[y.number]? = some (.failed e)

/-- A cycle that was in flight at `r` has moved the schedule by `d`, one way or the other. -/
def Moves (w : Surroundings α) (r : Controller α) (y : Cycle α) (d : Controller α) : Prop :=
  Advances w r y d ∨ ∃ e, SetsBack w r y e d

omit [Numeric α] in
/-- A cycle that has moved the schedule has succeeded or failed. -/
theorem Moves.outcome {r : Controller α} (h : Moves w r y d) {o : Outcome α}
    (ho : d.outcomes[y.number]? = some o) : o.isSuccess = true ∨ o.isFailure = true := by
  rcases h with h | ⟨e, h⟩
  · obtain ⟨outcome, houtcome, hsuccess⟩ := h.outcome
    obtain rfl := Option.some.inj (ho.symm.trans houtcome)
    exact .inl hsuccess
  · obtain rfl := Option.some.inj (ho.symm.trans h.outcome)
    exact .inr rfl

/-- What a schedule holds against a tick it holds until the next cycle starts. -/
theorem Rests.of_ended (horderly : d.Orderly fun _ _ => True) (w : Surroundings α)
    (hended : ∀ z, d.cycle = some z → z.outcome ≠ none) {early : α → Prop}
    (hearly : ∀ now, early now → (d.withinInterval now || d.backsOff now) = true) :
    Rests w d early := by
  intro after now hsame hnow
  have hlull : Lull d (d.run w after) := .of_ended horderly w after hended (.inr hsame)
  have hwithin : (d.run w after).withinInterval now = d.withinInterval now :=
    (congrArg (Controller.withinInterval now) hlull.lasting :)
  have hbacks : (d.run w after).backsOff now = d.backsOff now :=
    (congrArg (Controller.backsOff now) hlull.lasting :)
  rw [tick_eq, if_pos]
  rw [hwithin, hbacks]
  have hheld := hearly now hnow
  rw [Bool.or_eq_true] at hheld
  rcases hheld with hheld | hheld
  · simp [hheld]
  · simp [hheld]

/-- The last success dates the next tick that starts a cycle. -/
theorem Rests.of_lastUpdate (horderly : d.Orderly fun _ _ => True) (w : Surroundings α)
    (hended : ∀ z, d.cycle = some z → z.outcome ≠ none) {time : α}
    (htime : d.schedule.lastUpdate = some time) :
    Rests w d fun now => now - time < d.config.updateIntervalSeconds * 1000 :=
  .of_ended horderly w hended fun now hnow => by simp [withinInterval, htime, hnow]

/-- So does the end of the backoff. -/
theorem Rests.of_retryNotBefore (horderly : d.Orderly fun _ _ => True) (w : Surroundings α)
    (hended : ∀ z, d.cycle = some z → z.outcome ≠ none) {time : α}
    (htime : d.schedule.retryNotBefore = some time) : Rests w d fun now => now < time :=
  .of_ended horderly w hended fun now hnow => by simp [backsOff, htime, hnow]

variable {r : Controller α} {o : Outcome α}

theorem FailsBy.putsOff {e : Failure α} (h : FailsBy w y.startedAt e r o d)
    (horderly : d.Orderly fun _ _ => True) (hended : ∀ z, d.cycle = some z → z.outcome ≠ none) :
    PutsOff w r y e d :=
  ⟨h.retry, h.reports, .of_retryNotBefore horderly w hended h.retry⟩

/-- A success advances the schedule. -/
theorem Advances.of_success (horderly : d.Orderly fun _ _ => True)
    (hended : ∀ z, d.cycle = some z → z.outcome ≠ none) (hconfig : d.config = r.config)
    (houtcome : d.outcomes[y.number]? = some o) (hsuccess : o.isSuccess = true)
    (hschedule : d.schedule = { r.schedule with
      lastUpdate := some y.startedAt, retryNotBefore := none })
    (hreports : d.reports = r.reports) : Advances w r y d := by
  have hlast : d.schedule.lastUpdate = some y.startedAt := by rw [hschedule]
  exact ⟨⟨o, houtcome, hsuccess⟩, hschedule, hreports,
    hconfig ▸ .of_lastUpdate horderly w hended hlast⟩

/-- The schedule moves when what is thrown into the cycle can be told, and does not when something
cannot. -/
theorem EndsBy.schedule (h : EndsBy w y.startedAt r o d) (horderly : d.Orderly fun _ _ => True)
    (hended : ∀ z, d.cycle = some z → z.outcome ≠ none) (hconfig : d.config = r.config)
    (houtcome : d.outcomes[y.number]? = some o) :
    ((∀ f, ThrownInto w r f → f.IsTellable) → Advances w r y d ∨ ∃ e, PutsOff w r y e d) ∧
      ∀ f, ThrownInto w r f → ¬ f.IsTellable → d.schedule = r.schedule ∧ d.reports = r.reports := by
  cases h with
  | success hquiet hsuccess hschedule hreports =>
    have hadvances : Advances w r y d :=
      .of_success horderly hended hconfig houtcome hsuccess hschedule hreports
    exact ⟨fun _ => .inl hadvances, fun f hf => absurd hf (hquiet f)⟩
  | failure htellable hfails =>
    exact ⟨fun _ => .inr ⟨_, hfails.putsOff horderly hended⟩,
      fun f hf hnot => absurd (htellable f hf) hnot⟩
  | nothing hthrown huntellable _ hschedule hreports =>
    exact ⟨fun hall => absurd (hall _ hthrown) huntellable, fun _ _ _ => ⟨hschedule, hreports⟩⟩

/-- The cycle itself succeeds or fails when the listener that is told of a failure keeps to words as
well. -/
theorem EndsBy.moves_iff (h : EndsBy w y.startedAt r o d) (horderly : d.Orderly fun _ _ => True)
    (hended : ∀ z, d.cycle = some z → z.outcome ≠ none) (hconfig : d.config = r.config)
    (houtcome : d.outcomes[y.number]? = some o) :
    Moves w r y d ↔ (∀ f, ThrownInto w r f → f.IsTellable) ∧
      ∀ l g, w.listeners = some l → d.reports = r.reports ++ [g] →
        Worded (l.onFailure r.calls.failure g).result := by
  -- A cycle that was cancelled or broke off has not moved anything.
  have hnot (hnothing : o = .cancelled ∨ ∃ g, o = .broken g) : ¬ Moves w r y d := by
    intro hmoves
    rcases hnothing with rfl | ⟨g, rfl⟩
    · exact (hmoves.outcome houtcome).elim nofun nofun
    · exact (hmoves.outcome houtcome).elim nofun nofun
  cases h with
  | success hquiet hsuccess hschedule hreports =>
    have hadvances : Advances w r y d :=
      .of_success horderly hended hconfig houtcome hsuccess hschedule hreports
    refine iff_of_true (.inl hadvances) ⟨fun f hf => absurd hf (hquiet f), fun l g _ hadded => ?_⟩
    simp [hreports] at hadded
  | @failure e htellable hfails =>
    constructor
    · intro hmoves
      have hfailed : o = .failed e :=
        hfails.outcome.resolve_right fun hbroken => hnot (.inr hbroken) hmoves
      refine ⟨htellable, fun l g hl hadded => ?_⟩
      rw [hfails.reports, hl] at hadded
      obtain rfl : e = g := by simpa using hadded
      exact hfails.failed.mp hfailed l hl
    · rintro ⟨-, hworded⟩
      have hfailed : o = .failed e := by
        refine hfails.failed.mpr fun l hl => hworded l e hl ?_
        rw [hfails.reports, hl]
        rfl
      exact .inr ⟨e, hfails.putsOff horderly hended, hfailed ▸ houtcome⟩
  | nothing hthrown huntellable hnothing =>
    exact iff_of_false (hnot hnothing) fun hall => huntellable (hall.1 _ hthrown)

/-- How the cycle that goes on has ended when it has come to its end. -/
theorem GoesOn.endsBy_resume {fetched : Except (Failure α) (List (Bar α))} (h : GoesOn r y fetched)
    (horderly : r.Orderly fun _ _ => True) (huncancelled : r.Uncancelled) (w : Surroundings α)
    (hend : (r.resume w).stopped = false) :
    ∃ o, (r.resume w).outcomes[y.number]? = some o ∧ EndsBy w y.startedAt r o (r.resume w) := by
  have hadded := h.outcomes_resume horderly w
  obtain ⟨hconcludes, heq⟩ := h.resume horderly w
  refine ⟨(r.conclude w fetched y.startedAt).1, ?_, ?_⟩
  · rw [hadded, ← horderly.length_outcomes h.cycle h.running, List.getElem?_concat_length]
  · rw [heq] at hend ⊢
    cases h.endsBy horderly huncancelled w hend with
    | success hquiet hsuccess hschedule hreports =>
      exact .success hquiet hsuccess hschedule hreports
    | failure htellable hfails =>
      exact .failure htellable ⟨hfails.retry, hfails.reports, hfails.outcome, hfails.failed⟩
    | nothing hthrown huntellable hnothing hschedule hreports =>
      exact .nothing hthrown huntellable hnothing hschedule hreports

/-- **Every cycle moves the schedule as long as what is thrown can be told.** Take any run up to a
moment `r` when the cycle in flight goes on and ends, with the controller not stopped by then.

* It succeeds, and ticks wait for the interval, or it fails, the listener is told and ticks wait for
  the backoff, exactly when the sources of the market and of the performance throw no cancellation
  into it and nothing that cannot be put in words, and the listener that is told of its failure
  throws nothing that cannot.
* Among surroundings that throw neither it always does.
* As long as the two sources keep to it, ticks wait one way or the other, whatever the listener
  throws.
* When one of them does not, the schedule stays what it was and no listener is told. -/
theorem moves_schedule_iff {config : Config α} {c₀ : Controller α}
    (hcreate : create config = .ok c₀) (w : Surroundings α) (before : List (Event α)) {y : Cycle α}
    {fetched : Except (Failure α) (List (Bar α))} (hgoes : GoesOn (c₀.run w before) y fetched)
    (hend : ((c₀.run w before).step w .resume).stopped = false) :
    let r := c₀.run w before
    let d := r.step w .resume
    (Moves w r y d ↔ (∀ f, ThrownInto w r f → f.IsTellable) ∧
        ∀ l g, w.listeners = some l → d.reports = r.reports ++ [g] →
          Worded (l.onFailure r.calls.failure g).result) ∧
      (w.Articulate → (∀ f, w.Throws f → f.isCancellation = false) → Moves w r y d) ∧
      ((∀ f, ThrownInto w r f → f.IsTellable) → Advances w r y d ∨ ∃ e, PutsOff w r y e d) ∧
      ∀ f, ThrownInto w r f → ¬ f.IsTellable → d.schedule = r.schedule ∧ d.reports = r.reports := by
  have horderly : (c₀.run w before).Orderly fun _ _ => True :=
    orderly_run hcreate (fun _ _ _ => trivial) (fun _ _ _ => trivial)
  have huncancelled := uncancelled_run hcreate w before
  generalize c₀.run w before = r at hgoes hend horderly huncancelled ⊢
  obtain ⟨hconcludes, heq⟩ := hgoes.resume horderly w
  obtain ⟨o, houtcome, hends⟩ := hgoes.endsBy_resume horderly huncancelled w hend
  have hended : ∀ z, (r.resume w).cycle = some z → z.outcome ≠ none := by
    intro z hz
    rw [heq] at hz
    obtain rfl := Option.some.inj hz
    exact Option.some_ne_none _
  have hconfig : (r.resume w).config = r.config := by
    rw [heq]
    exact hconcludes.keeps.config
  have hlater := horderly.event w .resume
  have hiff := hends.moves_iff hlater hended hconfig houtcome
  refine ⟨hiff, fun hw hheeded => hiff.mpr ⟨fun f hf => hf.isTellable hw hheeded, ?_⟩,
    hends.schedule hlater hended hconfig houtcome⟩
  exact fun l g hl _ => hw.onFailure l hl _ _

/-- Surroundings in which whoever is asked for the market throws. -/
def closing (f : Failure Float) : Surroundings Float :=
  { answering (.now (.ok sampleBars)) with
    market := fun _ _ => ⟨[], .error f⟩
    listeners := some silent }

/-- The source of the market throws a text. The listener is told so, and ticks wait for the
backoff. -/
theorem moves_schedule_iff_closedMarket :
    let w := closing (.thrown (.string "closed"))
    let r := sample.run w [.tick 1, .make, .deliver]
    let d := r.step w .resume
    ∃ y, (create sampleConfig = .ok sample ∧ GoesOn r y (.ok sampleBars) ∧ d.stopped = false) ∧
      y.startedAt = 1 ∧ ∃ e, SetsBack w r y e d := by
  intro w r d
  obtain ⟨y, hgoes, hnumber, hstarted⟩ : ∃ y, GoesOn r y (.ok sampleBars) ∧
      y.number = 0 ∧ y.startedAt = 1 :=
    ⟨_, ⟨rfl, rfl, nofun, rfl⟩, rfl, rfl⟩
  have hend : d.stopped = false := by decide +kernel
  have hfailed : d.outcomes[0]?.any Outcome.isFailure = true := by decide +kernel
  have hw : w.Articulate :=
    ⟨fun _ _ => .error rfl, nofun, fun l hl => by cases hl; exact fun _ _ _ => .ok (),
      fun l hl => by cases hl; exact fun _ _ => .ok (),
      fun l hl => by cases hl; exact fun _ _ => .ok ()⟩
  have hheeded : ∀ f, w.Throws f → f.isCancellation = false := by
    rintro f (⟨call, bars, hthrown⟩ | ⟨ask, call, hask, -⟩)
    · obtain rfl := Except.error.inj hthrown
      rfl
    · cases hask
  obtain ⟨-, hmoves, -⟩ :=
    moves_schedule_iff create_sampleConfig w [.tick 1, .make, .deliver] hgoes hend
  refine ⟨y, ⟨create_sampleConfig, hgoes, hend⟩, hstarted,
    (hmoves hw hheeded).resolve_left fun hadvances => ?_⟩
  obtain ⟨o, ho, hsuccess⟩ := hadvances.outcome
  rw [hnumber] at ho
  rw [ho] at hfailed
  cases hfailed.symm.trans (Outcome.isFailure_of_isSuccess hsuccess)

/-- The source of the market throws a cancellation, though nobody has stopped anything. The cycle
ends neither as a success nor as a failure, no listener is told, and the very next tick starts
another. -/
theorem schedule_not_moved_cancelledMarket :
    let w := closing (.cancelled {})
    let d := sample.run w [.tick 1, .make, .deliver, .resume, .clear]
    d.stopped = false ∧ d.outcomes[0]?.all (fun o => !o.isSuccess && !o.isFailure) = true ∧
    d.outcomes.length = 1 ∧
      d.schedule.lastUpdate.isNone = true ∧ d.schedule.retryNotBefore.isNone = true ∧
      d.reports.length = 0 ∧ (d.step w (.tick 2)).cycles = 2 := by
  decide +kernel

end Refresh.Controller

end MarketMaker
