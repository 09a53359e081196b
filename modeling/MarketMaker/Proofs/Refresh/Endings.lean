import MarketMaker.Proofs.Refresh.Runs
import MarketMaker.Refresh.Session

/-!
# What those who wait are told

A cycle that is taken out of flight is written to the trace with what it came to. These entries are
the **endings** of a controller, and whoever waits for a cycle is told the outcome that they give
for its number. Since the trace only grows and a number ends once, that answer is there from the end
of the cycle on, and never changes.
-/

namespace MarketMaker.Refresh

variable {α : Type}

/-- The end of a cycle that something seen is. -/
def Occurrence.ending? : Occurrence α → Option (Nat × Outcome α)
  | .ended cycle outcome => some (cycle, outcome)
  | _ => none

theorem Occurrence.ending?_of_milestone?_eq_none {o : Occurrence α} (h : o.milestone? = none) :
    o.ending? = none := by
  cases o <;> first | rfl | cases h

/-- The cycle that ends with a milestone. -/
def Milestone.over? : Milestone → Option Nat
  | .over n => some n
  | .called _ => none

theorem over?_rounds (n : Nat) : (rounds n).filterMap Milestone.over? = List.range n := by
  induction n with
  | zero => rfl
  | succ n ih =>
    rw [rounds_succ, List.filterMap_append, List.filterMap_append, ih, List.range_succ,
      List.append_assoc]
    rfl

namespace Controller

/-- What the cycles came to that have ended, in their order. -/
def endings (c : Controller α) : List (Nat × Outcome α) := c.trace.filterMap fun e => e.2.ending?

theorem endings_eq_of_said {c d : Controller α} {said : List (Phase × Occurrence α)}
    (htrace : d.trace = c.trace ++ said) (hsaid : ∀ e ∈ said, e.2.milestone? = none) :
    d.endings = c.endings := by
  have hnone : said.filterMap (fun e => e.2.ending?) = [] := by
    rw [List.filterMap_eq_nil_iff]
    exact fun e he => Occurrence.ending?_of_milestone?_eq_none (hsaid e he)
  rw [endings, htrace, List.filterMap_append, hnone, List.append_nil, endings]

/-- Who waits for a cycle is told what its ending says. -/
theorem ended?_eq_lookup (c : Controller α) (n : Nat) :
    Session.ended? c n = c.endings.lookup n := by
  unfold Session.ended? endings
  induction c.trace with
  | nil => rfl
  | cons e rest ih =>
    obtain ⟨phase, o⟩ := e
    cases o with
    | ended m outcome =>
      by_cases hm : m = n
      · subst hm
        simp [Occurrence.ending?]
      · have hne : (n == m) = false := by simpa using fun h : n = m => hm h.symm
        simp [Occurrence.ending?, List.lookup_cons, hm, hne, ih]
    | _ => simpa [Occurrence.ending?] using ih

/-- The numbers of the cycles that have ended, from the milestones. -/
theorem map_fst_endings (c : Controller α) :
    c.endings.map Prod.fst = c.milestones.filterMap Milestone.over? := by
  unfold endings milestones
  rw [List.map_filterMap, List.filterMap_filterMap]
  congr 1
  funext e
  obtain ⟨phase, o⟩ := e
  cases o <;> rfl

variable {given : Nat → Except (Failure α) (List (Bar α)) → Prop} {c d : Controller α}

/-- How many cycles have ended. -/
def ended (c : Controller α) : Nat := c.endings.length

variable [NumberText α]

/-- The cycles end in their order, each once: the ones that have ended, and then the one in
flight. -/
theorem Orderly.endings (h : c.Orderly given) :
    c.endings.map Prod.fst = List.range c.ended ∧
      c.cycles = c.ended + (if c.cycle.isSome then 1 else 0) ∧
      ∀ y, c.cycle = some y → y.number = c.ended := by
  have hover (n : Nat) (hmilestones : c.milestones.filterMap Milestone.over? = List.range n) :
      c.endings.map Prod.fst = List.range n ∧ c.ended = n := by
    have hfst : c.endings.map Prod.fst = List.range n := (map_fst_endings c).trans hmilestones
    refine ⟨hfst, ?_⟩
    rw [ended, ← List.length_map (f := Prod.fst), hfst, List.length_range]
  cases hcycle : c.cycle with
  | none =>
    obtain ⟨hfst, hended⟩ := hover c.cycles (by rw [(h.noCycle hcycle).2, over?_rounds])
    rw [hended]
    refine ⟨hfst, rfl, fun y hy => ?_⟩
    cases hy
  | some y =>
    have hfits := h.inFlight y hcycle
    have hmilestones : c.milestones.filterMap Milestone.over? = List.range y.number := by
      by_cases hdue : y.request.call = .due
      · rw [(hfits.due hdue).2.2, over?_rounds]
      · rw [(hfits.called hdue).2.2, List.filterMap_append, over?_rounds]
        exact List.append_nil _
    obtain ⟨hfst, hended⟩ := hover y.number hmilestones
    rw [hended]
    refine ⟨hfst, by simpa using hfits.number.symm, ?_⟩
    rintro z hz
    obtain rfl := Option.some.inj hz
    rfl

/-- Nobody is told anything about the cycle in flight. -/
theorem Orderly.lookup_inFlight (h : c.Orderly given) {y : Cycle α} (hy : c.cycle = some y) :
    c.endings.lookup y.number = none := by
  obtain ⟨hfst, -, hnumber⟩ := h.endings
  rw [List.lookup_eq_none_iff]
  intro p hp
  have hlt : p.1 < c.ended := by
    rw [← List.mem_range, ← hfst]
    exact List.mem_map_of_mem hp
  rw [hnumber y hy]
  simpa using Nat.ne_of_gt hlt

/-- Taking a cycle out of flight adds its ending. -/
theorem endings_clear [Scalar α] {y : Cycle α} {outcome : Outcome α} (hy : c.cycle = some y)
    (hended : y.outcome = some outcome) : c.clear.endings = c.endings ++ [(y.number, outcome)] := by
  obtain ⟨-, -, -, said, htrace, hsaid⟩ := clear_spec hy hended
  have hnote : (c.note (.ended y.number outcome)).endings = c.endings ++ [(y.number, outcome)] := by
    simp [Controller.endings, note, Occurrence.ending?]
  rw [← hnote]
  exact endings_eq_of_said htrace fun e he => (hsaid e he).2

variable [Scalar α] [Numeric α]

/-- A cycle ends when it is taken out of flight, and at no other time. -/
theorem Move.endings {w : Surroundings α} (horderly : c.Orderly given) (h : Move w given c d) :
    d.endings = c.endings ∨ ∃ y outcome, c.cycle = some y ∧ y.outcome = some outcome ∧
      d.cycle = none ∧ d.endings = c.endings ++ [(y.number, outcome)] := by
  cases h with
  | wait h =>
    obtain ⟨said, htrace, hsaid⟩ := h.trace
    exact .inl (endings_eq_of_said htrace fun e he => (hsaid e he).2)
  | start ticked now => exact .inl rfl
  | make hy hdue =>
    obtain ⟨r, heq, -⟩ := make_spec w hy hdue
    rw [heq]
    refine .inl ?_
    simp [Controller.endings, Occurrence.ending?]
  | resume hy hrunning hcalled hfetched =>
    obtain ⟨outcome, after, -, hconcludes, heq⟩ :=
      horderly.resume_spec w hy hrunning hcalled hfetched
    obtain ⟨said, htrace, hsaid⟩ := hconcludes.keeps.trace
    rw [heq]
    exact .inl (endings_eq_of_said htrace hsaid)
  | clear hy hended =>
    obtain ⟨-, hcycle, -⟩ := clear_spec hy hended
    exact .inr ⟨_, _, hy, hended, hcycle, endings_clear hy hended⟩

/-- Endings are added and never taken back. -/
theorem endings_run (horderly : c.Orderly fun _ _ => True) (w : Surroundings α)
    (events : List (Event α)) : ∃ more, (c.run w events).endings = c.endings ++ more := by
  have hholds := run_invariant
    (fun d => d.Orderly (fun _ _ => True) ∧ ∃ more, d.endings = c.endings ++ more) w events
    (fun d hd event _ => ?_) ⟨horderly, [], by simp⟩
  · exact hholds.2
  · obtain ⟨hd, more, hmore⟩ := hd
    have hmove : Move w (fun _ _ => True) d (d.step w event) := .of_step w fun _ _ _ => trivial
    refine ⟨hd.move (fun _ _ _ => trivial) hmove, ?_⟩
    rcases hmove.endings hd with hsame | ⟨y, outcome, -, -, -, hadded⟩
    · exact ⟨more, hsame.trans hmore⟩
    · exact ⟨more ++ [(y.number, outcome)], by rw [hadded, hmore, List.append_assoc]⟩

omit [Scalar α] [Numeric α] in
/-- A cycle has one ending. -/
theorem Orderly.lookup_of_mem (h : c.Orderly given) {n : Nat} {outcome : Outcome α}
    (hmem : (n, outcome) ∈ c.endings) : c.endings.lookup n = some outcome := by
  obtain ⟨before, after, heq⟩ := List.append_of_mem hmem
  refine List.lookup_eq_some_iff.mpr ⟨before, after, heq, fun p hp => ?_⟩
  -- An earlier ending has an earlier number, since the numbers are those of a range.
  have hnodup : (c.endings.map Prod.fst).Nodup := by
    rw [h.endings.1]
    exact List.nodup_range
  rw [heq, List.map_append, List.map_cons, List.nodup_append] at hnodup
  have hne := hnodup.2.2 p.1 (List.mem_map_of_mem hp) n List.mem_cons_self
  simpa using Ne.symm hne

/-- Whoever waits for a cycle that has ended is told its outcome, at once and at any later time. -/
theorem answer?_outcome (horderly : c.Orderly fun _ _ => True) {n : Nat} {outcome : Outcome α}
    (hmem : (n, outcome) ∈ c.endings) (w : Surroundings α) (later : List (Event α)) :
    Session.answer? (c.run w later) (.outcome n) = some (.of (.outcome outcome) outcome) := by
  obtain ⟨more, hmore⟩ := endings_run horderly w later
  have hended : Session.ended? (c.run w later) n = some outcome := by
    rw [ended?_eq_lookup, hmore, List.lookup_append, horderly.lookup_of_mem hmem]
    rfl
  simp [Session.answer?, hended]

end Controller

end MarketMaker.Refresh
