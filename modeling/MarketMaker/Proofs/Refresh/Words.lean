import MarketMaker.Proofs.Refresh.Endings

/-!
# When all that is thrown has words

Surroundings are **articulate** when whatever a callback throws can be put in words: it is an error,
or a value with a text. Among articulate surroundings a cycle does what it comes to. It never breaks
off; one that has replaced the published set has succeeded; one whose failure was reported has
failed.

Elsewhere all of this can go wrong, because a failure without words makes those fail who look for
them.
-/

namespace MarketMaker.Refresh

variable {α : Type} [NumberText α]

/-- Whether a failure, if there is one, can be put in words. -/
def Worded {β : Type} (x : Except (Failure α) β) : Prop := ∀ f, x = .error f → f.hasWords = true

theorem Worded.ok {β : Type} (b : β) : Worded (.ok b : Except (Failure α) β) := nofun

theorem Worded.error {β : Type} {f : Failure α} (h : f.hasWords = true) :
    Worded (.error f : Except (Failure α) β) := by
  rintro g ⟨⟩
  exact h

/-- The engine's own errors have words. -/
theorem Worded.mapError {β : Type} (x : Except (EngineError α) β) :
    Worded (x.mapError (·.failure)) := by
  cases x with
  | ok b => exact .ok b
  | error e => exact .error e.hasWords_failure

theorem Worded.bind {β γ : Type} {x : Except (Failure α) β} {g : β → Except (Failure α) γ}
    (hx : Worded x) (hg : ∀ b, Worded (g b)) : Worded (x >>= g) := by
  cases x with
  | ok b => exact hg b
  | error f => exact .error (hx f rfl)

theorem Worded.checkUsable (figures : List α) : Worded (checkUsable figures) := by
  unfold MarketMaker.checkUsable
  split
  · exact .ok ()
  · exact .error rfl

/-- What has words becomes an error. -/
theorem exists_toError [Scalar α] {f : Failure α} (h : f.hasWords = true) :
    ∃ e, f.toError = .ok e := by
  unfold Failure.toError
  rw [h]
  cases f <;> exact ⟨_, rfl⟩

/-- Surroundings in which all that a callback throws can be put in words. -/
structure Surroundings.Articulate (w : Surroundings α) : Prop where
  /-- What the source of the market throws. -/
  market : ∀ call bars, Worded (w.market call bars).result
  /-- What the tracker of performance throws, if there is one. -/
  performance : ∀ ask, w.performance = some ask → ∀ call, Worded (ask call).result
  /-- What the listener throws when it is told of a set. -/
  onPublish : ∀ l, w.listeners = some l →
    ∀ call record next, Worded (l.onPublish call record next).result
  /-- What it throws when it is told of the floor. -/
  onFloorClamp : ∀ l, w.listeners = some l → ∀ call event, Worded (l.onFloorClamp call event).result
  /-- What it throws when it is told of a failure. -/
  onFailure : ∀ l, w.listeners = some l → ∀ call f, Worded (l.onFailure call f).result

/-- A cycle that did not break off, and has done no more than what it came to. -/
structure Ending.IsFaithful (e : Ending α) : Prop where
  /-- It did not break off. -/
  outcome : ∀ f, e.outcome ≠ .broken f
  /-- Only a success has replaced the published set. -/
  replaced : e.replaced = true → e.outcome.isSuccess = true
  /-- Only a failure was reported. -/
  reported : e.reported = true → e.outcome.isFailure = true

omit [NumberText α] in
/-- A cycle that was cancelled before it did anything. -/
theorem Ending.IsFaithful.of_cancelled {e : Ending α} (houtcome : e.outcome = .cancelled)
    (hreplaced : e.replaced = false) (hreported : e.reported = false) : e.IsFaithful := by
  constructor
  · intro f hbroken
    cases houtcome.symm.trans hbroken
  · intro h
    cases hreplaced.symm.trans h
  · intro h
    cases hreported.symm.trans h

namespace Controller

variable [Scalar α] [Numeric α] {w : Surroundings α} {c : Controller α}

/-! ## Callbacks -/

/-- No call into a busy controller throws. -/
theorem performAll_eq_ok (actions : List (Action α)) (h : c.Busy) :
    (c.performAll w actions).1 = .ok () := by
  induction actions generalizing c with
  | nil => rfl
  | cons a rest ih =>
    have hfirst : (c.perform w a).1 = .ok () := by
      obtain ⟨y, hy, -⟩ := h
      cases a with
      | tick now => simp [perform, tick_of_held (c := c) now (by simp [hy])]
      | _ => rfl
    have hnext := (Aside.perform w h a).busy h
    rcases hp : c.perform w a with ⟨result, after⟩
    rw [hp] at hfirst hnext
    obtain rfl : result = .ok () := hfirst
    simp only [performAll, hp]
    exact ih hnext

/-- A callback returns or throws what it is set to. -/
theorem react_result {β : Type} (r : Reaction α β) (h : c.Busy) : (c.react w r).1 = r.result := by
  have hperformed := performAll_eq_ok (w := w) r.actions h
  unfold react
  rcases hp : c.performAll w r.actions with ⟨performed, after⟩
  rw [hp] at hperformed
  obtain rfl : performed = .ok () := hperformed
  rfl

theorem askMarket_result (w : Surroundings α) (bars : List (Bar α)) (h : c.Busy) :
    (c.askMarket w bars).1 = (w.market c.calls.market bars).result := react_result _ h

theorem askPerformance_result {ask : Nat → Reaction α (Option (Performance α))}
    (hask : w.performance = some ask) (h : c.Busy) :
    (c.askPerformance w).1 = (ask c.calls.performance).result := by
  simp only [askPerformance, hask]
  exact react_result _ h

/-- What a listener throws with words goes no further. -/
theorem tell_eq_ok {r : Reaction α Unit} (hr : Worded r.result) (h : c.Busy) :
    (c.tell w r).1 = .ok () := by
  have hresult := react_result (w := w) r h
  unfold tell
  rcases hp : c.react w r with ⟨result, after⟩
  rw [hp] at hresult
  cases result with
  | ok _ => rfl
  | error f =>
    obtain ⟨e, he⟩ := exists_toError (hr f hresult.symm)
    simp only [he]

variable (hw : w.Articulate)
include hw

theorem askMarket_worded (bars : List (Bar α)) (h : c.Busy) : Worded (c.askMarket w bars).1 := by
  rw [askMarket_result w bars h]
  exact hw.market _ _

theorem askPerformance_worded (h : c.Busy) : Worded (c.askPerformance w).1 := by
  cases hask : w.performance with
  | none =>
    simp only [askPerformance, hask]
    exact .ok none
  | some ask =>
    rw [askPerformance_result hask h]
    exact hw.performance ask hask _

theorem tellClamp_eq_ok (e : Pricing.FloorClamp α) (h : c.Busy) : (c.tellClamp w e).1 = .ok () := by
  unfold tellClamp
  cases hlisteners : w.listeners with
  | none => rfl
  | some l =>
    exact tell_eq_ok (c := ({ c with calls := { c.calls with clamp := c.calls.clamp + 1 } } :
      Controller α).note (.clamped e)) (hw.onFloorClamp l hlisteners _ _) h

/-! ## Computing -/

omit [Numeric α] hw in
/-- A series without a volatility says what is wrong with it. -/
theorem estimate_worded (bars : List (Bar α)) (interval : Choice Interval α) (now : α) :
    Worded (Volatility.estimate bars interval now) := by
  unfold Volatility.estimate
  split
  · next f hf =>
    apply Worded.error
    unfold Volatility.failure? at hf
    split at hf
    · obtain rfl := Option.some.inj hf
      exact EngineError.hasWords_failure _
    · obtain ⟨b, -, rfl⟩ := Option.map_eq_some_iff.mp hf
      unfold Volatility.barFailure
      split
      · rfl
      · exact EngineError.hasWords_failure _
  · split
    · exact .ok _
    · exact .error rfl

omit [Numeric α] hw in
theorem sized_worded (config : Config α) (estimate : Volatility.Estimate α) (market : Market α)
    (now : α) : Worded (sized config estimate market now) :=
  .bind (.checkUsable _) fun _ => .bind (.mapError _) fun _ => .ok _

omit [Numeric α] hw in
theorem quoted_worded (c : Controller α) (estimate : Volatility.Estimate α) (market : Market α)
    (now gamma : α) (quote : Pricing.Quote α) :
    Worded (quoted c estimate market now gamma quote) := by
  refine .bind (.checkUsable _) fun _ => .bind (.mapError _) fun stopLoss => ?_
  dsimp only
  cases c.source with
  | some s => exact .ok _
  | none => exact .error rfl

theorem price_worded (estimate : Volatility.Estimate α) (market : Market α)
    (now gamma : α) (h : c.Busy) : Worded (c.price w estimate market now gamma).1 := by
  unfold price
  dsimp only
  split
  · exact .error (EngineError.hasWords_failure _)
  · next quote hquote =>
    have hlogged := Aside.logAll
      (Pricing.logOf ⟨market, gamma, estimate.value, c.config.timeHorizonSeconds⟩ quote) c
    cases quote.floorClamp with
    | none => exact quoted_worded _ estimate market now gamma quote
    | some e =>
      have htold := tellClamp_eq_ok hw e (hlogged.busy h)
      dsimp only
      rw [htold]
      exact quoted_worded _ estimate market now gamma quote

theorem computeWith_worded (source : Gamma.Source α) (estimate : Volatility.Estimate α)
    (market : Market α) (now : α) (h : c.Busy) :
    Worded (c.computeWith w source estimate market now).1 := by
  have hasked := Aside.askPerformance w h
  have hworded := askPerformance_worded hw h
  unfold computeWith
  rcases hp : c.askPerformance w with ⟨result, after⟩
  rw [hp] at hasked hworded
  cases result with
  | error f => exact .error (hworded f rfl)
  | ok performance =>
    dsimp only
    split
    · generalize source.resolve _ = answer
      obtain ⟨gamma, resolved, lines⟩ := answer
      have hkept := (hasked.trans (.keepSource c.switches resolved after)).trans (.logAll lines _)
      exact price_worded hw estimate market now gamma (hkept.busy h)
    · exact .error rfl

/-- A computation that comes to nothing says why. -/
theorem compute_worded (bars : List (Bar α)) (now : α) (h : c.Busy) :
    Worded (c.compute w bars now).1 := by
  have hasked := Aside.askMarket w bars h
  have hworded := askMarket_worded hw bars h
  have hestimated := estimate_worded bars c.config.volatilityInterval now
  unfold compute
  cases hestimate : Volatility.estimate bars c.config.volatilityInterval now with
  | error f => exact .error (hestimated f hestimate)
  | ok estimate =>
    dsimp only
    rcases hp : c.askMarket w bars with ⟨result, after⟩
    rw [hp] at hasked hworded
    cases result with
    | error f => exact .error (hworded f rfl)
    | ok market =>
      dsimp only
      cases after.source with
      | none => exact sized_worded _ estimate market now
      | some source => exact computeWith_worded hw source estimate market now (hasked.busy h)

/-! ## Ending -/

theorem tellFailure_eq_failed (f : Failure α) (h : c.Busy) : (c.tellFailure w f).1 = .failed f := by
  cases hlisteners : w.listeners with
  | none => simp [tellFailure, hlisteners]
  | some l =>
    have htold :=
      tell_eq_ok (w := w)
        (c := ({ c with calls := { c.calls with failure := c.calls.failure + 1 } } :
      Controller α).note (.failed f)) (hw.onFailure l hlisteners c.calls.failure f) h
    simp only [tellFailure, hlisteners]
    rcases ht : (({ c with calls := { c.calls with failure := c.calls.failure + 1 } } :
      Controller α).note (.failed f)).tell w (l.onFailure c.calls.failure f) with ⟨result, after⟩
    rw [ht] at htold
    obtain rfl : result = .ok () := htold
    rfl

/-- A cycle in which something with words was thrown is cancelled and changes nothing, or fails. -/
theorem caught_cases {f : Failure α} (hf : f.hasWords = true) (now : α) (h : c.Busy) :
    c.caught w f now = (.cancelled, c) ∨ ∃ e, (c.caught w f now).1 = .failed e := by
  unfold caught
  split
  · exact .inl rfl
  · obtain ⟨e, he⟩ := exists_toError hf
    simp only [he, fail, checkUsable_eq_ok]
    exact .inr ⟨e, tellFailure_eq_failed hw e h⟩

theorem caught_faithful {d : Controller α} {f : Failure α} (hf : f.hasWords = true) (now : α)
    (hsteady : Steady c d) (h : c.Busy) :
    (endingOf now (d.caught w f now).1 c (d.caught w f now).2).IsFaithful := by
  have hbusy := hsteady.keeps.busy h
  have hpublications : (d.caught w f now).2.publications = c.publications :=
    (Fails.caught w f now hbusy).publications.trans hsteady.publications
  have hnot : (endingOf now (d.caught w f now).1 c (d.caught w f now).2).replaced = false := by
    simp [endingOf, hpublications]
  rcases caught_cases hw hf now hbusy with hcancelled | ⟨e, hfailed⟩
  · rw [hcancelled] at hnot ⊢
    exact .of_cancelled rfl hnot (by simp [endingOf, hsteady.failures])
  · refine ⟨fun g hbroken => ?_, fun hreplaced => absurd (hnot.symm.trans hreplaced) (by simp),
      fun _ => ?_⟩
    · cases hfailed.symm.trans hbroken
    · simp [endingOf, hfailed, Outcome.isFailure]

theorem replace_eq_ok (next : Parameters α) (h : c.Busy) : (c.replace w next).1 = .ok () := by
  cases hlisteners : w.listeners with
  | none => simp [replace, hlisteners]
  | some l =>
    simp only [replace, hlisteners]
    exact tell_eq_ok (hw.onPublish l hlisteners _ _ _) (Busy.of_core_eq (c := { c with
      published := some next
      publications := c.publications + 1
      calls := { c.calls with publish := c.calls.publish + 1 } }) h rfl)

theorem exists_publish_eq_ok (next : Parameters α) (now : α) (h : c.Busy) :
    ∃ outcome, (c.publish w next now).1 = .ok outcome := by
  obtain ⟨moved, hmoved⟩ : ∃ moved, moved = ({ c with
      schedule := { c.schedule with lastUpdate := some now, retryNotBefore := none } } :
        Controller α) :=
    ⟨_, rfl⟩
  have hbusy : moved.Busy := by
    rw [hmoved]
    exact h
  obtain ⟨worth, hworth⟩ := isWorthPublishing_eq_ok next moved
  have hreplaced := replace_eq_ok hw next hbusy
  simp only [publish, filled?_eq_some, ← hmoved, hworth]
  cases worth with
  | false => exact ⟨.unchanged, rfl⟩
  | true =>
    dsimp only
    rw [hreplaced]
    exact ⟨.published, rfl⟩

theorem publish_faithful {d : Controller α} (next : Parameters α) (now : α) (hsteady : Steady c d)
    (h : c.Busy) : ∃ outcome after, d.publish w next now = (.ok outcome, after) ∧
      (endingOf now outcome c after).IsFaithful := by
  have hbusy := hsteady.keeps.busy h
  obtain ⟨-, -, hfailures, hresult⟩ := publish_spec w next now hbusy
  have hpublished := exists_publish_eq_ok hw next now hbusy
  rcases hp : d.publish w next now with ⟨result, after⟩
  rw [hp] at hfailures hresult hpublished
  obtain ⟨outcome, rfl⟩ : ∃ outcome, result = .ok outcome := hpublished
  have hsuccess : outcome.isSuccess = true := hresult
  have hquiet : (endingOf now outcome c after).reported = false := by
    have hcount : after.calls.failure = c.calls.failure := hfailures.trans hsteady.failures
    simp [endingOf, hcount]
  refine ⟨outcome, after, rfl, fun f hbroken => ?_, fun _ => hsuccess,
    fun hreported => absurd (hquiet.symm.trans hreported) (by simp)⟩
  have hsame : outcome = .broken f := hbroken
  rw [hsame] at hsuccess
  cases hsuccess

/-- **Among articulate surroundings a cycle does what it comes to.** -/
theorem conclude_faithful {fetched : Except (Failure α) (List (Bar α))}
    (hfetched : Worded fetched) (now : α) (h : c.Busy) :
    (endingOf now (c.conclude w fetched now).1 c (c.conclude w fetched now).2).IsFaithful := by
  unfold conclude
  cases fetched with
  | error f => exact caught_faithful hw (hfetched f rfl) now (.refl c) h
  | ok bars =>
    dsimp only
    split
    · exact .of_cancelled rfl (by simp [endingOf]) (by simp [endingOf])
    · obtain ⟨warned, hwarned, hsteady⟩ := warnShort_spec bars c
      have hcomputing := hsteady.trans (.enter .computing warned)
      have hbusy := hcomputing.keeps.busy h
      have haside := Aside.compute w bars now hbusy
      have hworded := compute_worded hw bars now hbusy
      rcases hcompute : { warned with phase := .computing }.compute w bars now
        with ⟨result, computed⟩
      rw [hcompute] at haside hworded
      simp only [hwarned, hcompute]
      have hcomputed : Steady c computed := hcomputing.trans haside.steady
      cases result with
      | error f => exact caught_faithful hw (hworded f rfl) now hcomputed h
      | ok next =>
        obtain ⟨outcome, after, hpublish, hfaithful⟩ :=
          publish_faithful hw next now (hcomputed.trans (.enter .publishing computed)) h
        simp only [hpublish]
        exact hfaithful

/-! ## Runs -/

omit [Scalar α] [Numeric α] hw in
/-- The outcome of a request in flight has words. -/
theorem Orderly.worded {given : Nat → Except (Failure α) (List (Bar α)) → Prop}
    (h : c.Orderly given) {y : Cycle α} {fetched : Except (Failure α) (List (Bar α))}
    (hy : c.cycle = some y) (hfetched : y.request.outcome = some fetched) : Worded fetched := by
  rintro f rfl
  exact (h.inFlight y hy).answered.words f hfetched

/-- **Among articulate surroundings no cycle breaks off.** -/
theorem not_broken_run {config : Config α} {c₀ : Controller α} (hcreate : create config = .ok c₀)
    (events : List (Event α)) {n : Nat} {outcome : Outcome α}
    (hended : (n, outcome) ∈ (c₀.run w events).endings) (f : Failure α) : outcome ≠ .broken f := by
  -- The invariant has to cover the cycle in flight as well, whose outcome the next ending takes
  -- over.
  have hholds := run_invariant (c := c₀)
    (fun d => d.Orderly (fun _ _ => True) ∧
      (∀ y, d.cycle = some y → y.outcome ≠ some (.broken f)) ∧ ∀ p ∈ d.endings, p.2 ≠ .broken f)
    w events (fun d hd event hevent => ?_) ?_
  · exact hholds.2.2 (n, outcome) hended
  · obtain ⟨horderly, hinFlight, hendings⟩ := hd
    have hmove : Move w (fun _ _ => True) d (d.step w event) := .of_step w fun _ _ _ => trivial
    refine ⟨horderly.move (fun _ _ _ => trivial) hmove, fun y hy hbroken => ?_, fun p hp => ?_⟩
    · rcases hmove.outcome horderly hy hbroken with ⟨x, hx, hx'⟩ | ⟨x, fetched, hx, hfetched, heq⟩
      · exact hinFlight x hx hx'
      · have hfaithful := conclude_faithful hw (horderly.worded hx hfetched) x.startedAt
          (horderly.busy hx hfetched).2
        exact hfaithful.outcome f heq.symm
    · rcases hmove.endings horderly with hsame | ⟨y, result, hy, hresult, -, hadded⟩
      · exact hendings p (by rwa [← hsame])
      · rw [hadded] at hp
        rcases List.mem_append.mp hp with hp | hp
        · exact hendings p hp
        · obtain rfl := List.mem_singleton.mp hp
          rintro rfl
          exact hinFlight y hy hresult
  · obtain ⟨pricing, source, rfl⟩ := create_spec hcreate
    refine ⟨.create hcreate, fun y hy => ?_, fun p hp => ?_⟩
    · cases hy
    · cases hp

end Controller

end MarketMaker.Refresh
