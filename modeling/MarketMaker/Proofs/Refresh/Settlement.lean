import MarketMaker.Proofs.Refresh.Runs

/-!
# A request settles once, by what happens first

Three things **trigger** the end of a request: its caller cancels, its deadline passes, its call's
answer arrives. `trigger?` says which of them an event is, after the events before it, and `first?`
finds the first one of a whole history. A request follows its history in no other way:

* `awaiting`: as long as nothing triggered its end, only its call has changed;
* `Concluded`: the first trigger settles it. The deadline is cleared, the caller is listened to no
  longer, the signal is aborted unless the call had answered, and later events make no difference.

`Trigger.outcome` is what the request ought to come to. It does, except when the call failed with
something that cannot be put in words: then the failure is lost, and a settled request never has an
outcome.
-/

namespace MarketMaker.Refresh.Request

variable {α β : Type}

/-! ## Triggers -/

/-- What can end a request. -/
inductive Trigger (α β : Type) where
  /-- Its caller cancels it. -/
  | cancelled
  /-- Its deadline passes. -/
  | expired
  /-- Its call is answered. -/
  | answered (answer : Except (Failure α) β)

/-- The answer that an event gives to the call, if it gives one. -/
def Event.answer? : Event α β → Option (Except (Failure α) β)
  | .answer a => some a
  | _ => none

/-- Whether the call was made in a history. -/
def isMade : List (Event α β) → Bool
  | [] => false
  | .make :: _ => true
  | _ :: later => isMade later

/-- The answer of a call: the first one that it is given after it was made. -/
def answerOf : List (Event α β) → Option (Except (Failure α) β)
  | [] => none
  | .make :: later => later.findSome? Event.answer?
  | _ :: later => answerOf later

/-- What an event triggers after the events before it. -/
def trigger? (before : List (Event α β)) : Event α β → Option (Trigger α β)
  | .cancel => some .cancelled
  | .expire => some .expired
  | .deliver => (answerOf before).map .answered
  | _ => none

/-- The first trigger of a history that goes on from the events before it. -/
def firstAfter (before : List (Event α β)) : List (Event α β) → Option (Trigger α β)
  | [] => none
  | e :: later => (trigger? before e).or (firstAfter (before ++ [e]) later)

/-- The first trigger of a request: a caller that had cancelled before comes first of all. -/
def first? (cancelled : Bool) (history : List (Event α β)) : Option (Trigger α β) :=
  if cancelled then some .cancelled else firstAfter [] history

namespace Trigger

/-- Whether the signal is aborted at the trigger. -/
def aborts : Trigger α β → Bool
  | cancelled | expired => true
  | answered _ => false

/-- The events by which a trigger happens, one right after the other. -/
def events : Trigger α β → List (Event α β)
  | cancelled => [.cancel]
  | expired => [.expire]
  | answered a => [.answer a, .deliver]

/-- What a request with a deadline after some milliseconds comes to by a trigger. The engine's own
failures are reported as they are, and any other is the cause of the failure that is reported. -/
def outcome (milliseconds : α) : Trigger α β → Except (Failure α) β
  | cancelled => .error (.cancelled {})
  | expired => .error (.engine (.providerTimeout milliseconds) {})
  | answered (.ok value) => .ok value
  | answered (.error (.engine e labels)) => .error (.engine e labels)
  | answered (.error other) => .error (.engine (.provider (.requestFailed other)) {})

/-- Whether the outcome of a trigger can be put in words. -/
def hasWords [NumberText α] : Trigger α β → Bool
  | cancelled | expired => true
  | answered a => isReportable a

end Trigger

/-! ## Histories -/

theorem isMade_append (before : List (Event α β)) (e : Event α β) :
    isMade (before ++ [e]) = (isMade before || isMade [e]) := by
  induction before with
  | nil => rfl
  | cons first later ih => cases first <;> first | rfl | exact ih

theorem answerOf_append (before : List (Event α β)) (e : Event α β) :
    answerOf (before ++ [e]) = (answerOf before).or (if isMade before then
      e.answer? else none) := by
  induction before with
  | nil => cases e <;> rfl
  | cons first later ih =>
    cases first with
    | make => simp [answerOf, isMade]
    | _ => exact ih

theorem answerOf_eq_none {before : List (Event α β)} (h : isMade before = false) :
    answerOf before = none := by
  induction before with
  | nil => rfl
  | cons first later ih =>
    cases first with
    | make => cases h
    | _ => exact ih h

/-- Triggers that happen one after the other once the call is made: the first one of them is the
first. -/
theorem first?_flatMap (triggers : List (Trigger α β)) :
    first? false (.make :: triggers.flatMap Trigger.events) = triggers.head? := by
  cases triggers with
  | nil => rfl
  | cons t later => cases t <;> rfl

/-! ## Until the first trigger -/

/-- Where the call stands after events that triggered nothing. -/
def callAfter (before : List (Event α β)) : Call α β :=
  if isMade before then
    match answerOf before with
    | some a => .answered a
    | none => .waiting
  else .due

/-- A request after events that triggered nothing. -/
def awaiting (before : List (Event α β)) : Request α β :=
  ⟨callAfter before, false, true, true, false, none⟩

theorem callAfter_of_answered {before : List (Event α β)} {a : Except (Failure α) β}
    (h : answerOf before = some a) : callAfter before = .answered a := by
  have hmade : isMade before = true := by
    cases hmade : isMade before with
    | true => rfl
    | false => cases (answerOf_eq_none hmade).symm.trans h
  simp [callAfter, hmade, h]

theorem make_awaiting (before : List (Event α β)) :
    (awaiting before).make = awaiting (before ++ [.make]) := by
  have hmade : isMade (before ++ [.make]) = true := by simp [isMade_append, isMade]
  have hanswer : answerOf (before ++ [.make]) = answerOf before := by
    simp [answerOf_append, Event.answer?]
  cases hbefore : isMade before with
  | false => simp [awaiting, make, callAfter, hmade, hanswer, hbefore, answerOf_eq_none hbefore]
  | true =>
    cases ha : answerOf before <;> simp [awaiting, make, callAfter, hmade, hanswer, hbefore, ha]

theorem answer_awaiting (before : List (Event α β)) (a : Except (Failure α) β) :
    (awaiting before).answer a = awaiting (before ++ [.answer a]) := by
  have hmade : isMade (before ++ [.answer a]) = isMade before := by simp [isMade_append, isMade]
  have hanswer := answerOf_append before (.answer a)
  cases hbefore : isMade before with
  | false => simp [awaiting, answer, callAfter, hmade, hbefore]
  | true =>
    cases ha : answerOf before <;>
      simp [awaiting, answer, callAfter, hmade, hanswer, hbefore, ha, Event.answer?]

section Delivery

variable [NumberText α]

/-- Nothing arrives while there is no answer. -/
theorem deliver_awaiting {before : List (Event α β)} (h : answerOf before = none) :
    (awaiting before).deliver = awaiting (before ++ [.deliver]) := by
  have hmade : isMade (before ++ [.deliver]) = isMade before := by simp [isMade_append, isMade]
  have hanswer : answerOf (before ++ [.deliver]) = none := by
    simp [answerOf_append, h, Event.answer?]
  cases hbefore : isMade before <;> simp [awaiting, deliver, callAfter, hmade, hanswer, hbefore, h]

/-- What triggers nothing leaves the request open. -/
theorem step_awaiting {before : List (Event α β)} {e : Event α β} (h : trigger? before e = none)
    (milliseconds : α) : (awaiting before).step milliseconds e = awaiting (before ++ [e]) := by
  cases e with
  | cancel => cases h
  | expire => cases h
  | make => exact make_awaiting before
  | answer a => exact answer_awaiting before a
  | deliver => exact deliver_awaiting (Option.map_eq_none_iff.mp h)

/-! ## From the first trigger on -/

/-- A request that waits for nothing more, and which nothing reaches any more. -/
structure Inert (r : Request α β) : Prop where
  /-- It waits for nothing more. -/
  settled : r.settled = true
  /-- No deadline is ahead. -/
  armed : r.armed = false
  /-- It does not listen to its caller. -/
  listening : r.listening = false

/-- A request that some trigger has settled. -/
structure Concluded (milliseconds : α) (t : Trigger α β) (r : Request α β) : Prop
    extends Inert r where
  /-- The call is aborted if the trigger aborts it. -/
  aborted : r.aborted = t.aborts
  /-- It came to what the trigger says, if that can be put in words. -/
  outcome : r.outcome = if t.hasWords then some (t.outcome milliseconds) else none

variable {r : Request α β} {milliseconds : α}

/-- All that an event changes in an inert request is where its call stands. -/
theorem Inert.step (h : r.Inert) (milliseconds : α) (e : Event α β) :
    ∃ call, r.step milliseconds e = { r with call } := by
  obtain ⟨call, aborted, armed, listening, settled, outcome⟩ := r
  obtain ⟨rfl, rfl, rfl⟩ := h
  cases e with
  | cancel => exact ⟨call, rfl⟩
  | expire => exact ⟨call, rfl⟩
  | make => cases call <;> exact ⟨_, rfl⟩
  | answer a => cases call <;> exact ⟨_, rfl⟩
  | deliver =>
    cases call with
    | answered a =>
      -- Whether the answer could be reported makes no difference any more.
      refine ⟨.over, ?_⟩
      simp only [Request.step, deliver, receive]
      split <;> rfl
    | _ => exact ⟨_, rfl⟩

theorem Inert.run (h : r.Inert) (milliseconds : α) (history : List (Event α β)) :
    ∃ call, r.run milliseconds history = { r with call } := by
  induction history generalizing r with
  | nil => exact ⟨r.call, rfl⟩
  | cons e later ih =>
    obtain ⟨call, hstep⟩ := h.step milliseconds e
    obtain ⟨call', hrun⟩ := ih (r := { r with call }) ⟨h.settled, h.armed, h.listening⟩
    refine ⟨call', ?_⟩
    rw [Request.run, List.foldl_cons, hstep]
    exact hrun

theorem Concluded.run {t : Trigger α β} (h : r.Concluded milliseconds t)
    (history : List (Event α β)) : (r.run milliseconds history).Concluded milliseconds t := by
  obtain ⟨call, hrun⟩ := h.toInert.run milliseconds history
  rw [hrun]
  exact ⟨⟨h.settled, h.armed, h.listening⟩, h.aborted, h.outcome⟩

/-- An answer is reported as its trigger says. -/
theorem Trigger.outcome_answered (milliseconds : α) (a : Except (Failure α) β) :
    (Trigger.answered a).outcome milliseconds = a.mapError reported := by
  cases a with
  | ok value => rfl
  | error f => cases f <;> rfl

theorem deliver_of_answered {a : Except (Failure α) β} (h : r.call = .answered a)
    (hopen : r.isOpen = true) (houtcome : r.outcome = none) : r.deliver =
      { r with
        call := .over, armed := false, listening := false, settled := true,
        outcome := if isReportable a then some (a.mapError reported) else none } := by
  have hstill : ({ r with call := .over } : Request α β).isOpen = true := hopen
  simp only [deliver, receive, h]
  cases hreportable : isReportable a with
  | true => simp only [if_true, settle_of_open hstill, detach]
  | false =>
    simp only [Bool.false_eq_true, if_false, lose, hstill, if_true, detach]
    rw [houtcome]

/-- A trigger settles a request that was open. -/
theorem concluded_awaiting (htime : NumberText.hasText milliseconds = true)
    {before : List (Event α β)} {e : Event α β} {t : Trigger α β} (h : trigger? before e = some t) :
    ((awaiting before).step milliseconds e).Concluded milliseconds t := by
  have hopen : (awaiting before).isOpen = true := rfl
  cases e with
  | cancel =>
    obtain rfl := Option.some.inj h
    exact ⟨⟨rfl, rfl, rfl⟩, rfl, rfl⟩
  | expire =>
    obtain rfl := Option.some.inj h
    have htimeout : (EngineError.providerTimeout milliseconds).failure =
        .engine (.providerTimeout milliseconds) {} := by
      simp [EngineError.failure, EngineError.hasWords, htime]
    exact ⟨⟨rfl, rfl, rfl⟩, rfl, congrArg (fun f => some (Except.error f)) htimeout⟩
  | make => cases h
  | answer a => cases h
  | deliver =>
    obtain ⟨a, ha, rfl⟩ := Option.map_eq_some_iff.mp h
    have hdeliver := deliver_of_answered (r := awaiting before) (callAfter_of_answered ha) hopen rfl
    have hstep : (awaiting before).step milliseconds .deliver = _ := hdeliver
    rw [hstep]
    refine ⟨⟨rfl, rfl, rfl⟩, rfl, ?_⟩
    rw [Trigger.outcome_answered]
    rfl

/-! ## Whole histories -/

/-- The events that follow on ones that triggered nothing. -/
theorem run_awaiting (htime : NumberText.hasText milliseconds = true)
    (before history : List (Event α β)) :
    (firstAfter before history = none →
      (awaiting before).run milliseconds history = awaiting (before ++ history)) ∧
    ∀ t, firstAfter before history = some t →
      ((awaiting before).run milliseconds history).Concluded milliseconds t := by
  induction history generalizing before with
  | nil => exact ⟨fun _ => by simp [Request.run], nofun⟩
  | cons e later ih =>
    have hrun : (awaiting before).run milliseconds (e :: later) =
      ((awaiting before).step milliseconds e).run milliseconds later := rfl
    rw [hrun, firstAfter]
    cases htrigger : trigger? before e with
    | none =>
      rw [step_awaiting htrigger, Option.none_or, List.append_cons before e later]
      exact ih (before ++ [e])
    | some t =>
      refine ⟨nofun, ?_⟩
      rintro t' ⟨⟩
      exact (concluded_awaiting htime htrigger).run later

theorem Concluded.outcome_iff {t : Trigger α β} (h : r.Concluded milliseconds t) :
    r.outcome = some (t.outcome milliseconds) ↔ t.hasWords = true := by
  cases hwords : t.hasWords <;> simp [h.outcome, hwords]

/-- **A request settles once, by what happens first.** Take any history of a request whose deadline
a clock can be set by. As long as nothing in it ends the request, the request is open: it has no
outcome, its signal is not aborted, its deadline is still ahead and its caller is listened to. From
the first trigger on it is settled, and no later event changes any of that: the deadline is cleared,
nobody is listened to, and the signal is aborted exactly if the caller had cancelled or the deadline
had passed. The outcome is the one that the first trigger asks for exactly when it can be put in
words, and there is none otherwise. -/
theorem settles_once_iff (milliseconds : α) (htime : NumberText.hasText milliseconds = true)
    (cancelled : Bool) (history : List (Event α β)) :
    let r : Request α β := (start milliseconds cancelled).run milliseconds history
    (first? cancelled history = none →
      r.settled = false ∧ r.outcome = none ∧ r.aborted = false ∧ r.armed = true ∧
      r.listening = true) ∧
    (∀ t, first? cancelled history = some t →
      r.Concluded milliseconds t ∧
      (r.outcome = some (t.outcome milliseconds) ↔ t.hasWords = true) ∧
      ∀ later, { r.run milliseconds later with call := r.call } = r) ∧
    ∀ triggers : List (Trigger α β),
      first? cancelled (.make :: triggers.flatMap Trigger.events) =
        if cancelled then some .cancelled else triggers.head? := by
  have hlast {r : Request α β} {t : Trigger α β} (h : r.Concluded milliseconds t)
      (later : List (Event α β)) : { r.run milliseconds later with call := r.call } = r := by
    obtain ⟨call, hrun⟩ := h.toInert.run milliseconds later
    rw [hrun]
  cases cancelled with
  | true =>
    have hstart : (start milliseconds true : Request α β) = refused := by simp [start, htime]
    have hrefused : (refused : Request α β).Concluded milliseconds .cancelled :=
      ⟨⟨rfl, rfl, rfl⟩, rfl, rfl⟩
    rw [hstart]
    refine ⟨fun hnone => ?_, ?_, fun triggers => rfl⟩
    · cases hnone
    · rintro t ⟨⟩
      have hconcluded := hrefused.run history
      exact ⟨hconcluded, hconcluded.outcome_iff, hlast hconcluded⟩
  | false =>
    have hstart : (start milliseconds false : Request α β) = awaiting [] := by
      simp only [start, htime, Bool.not_true, Bool.false_eq_true, if_false]
      rfl
    obtain ⟨hopen, hfirst⟩ := run_awaiting htime ([] : List (Event α β)) history
    rw [hstart]
    refine ⟨fun hnone => ?_, fun t ht => ?_, first?_flatMap⟩
    · simp only [hopen hnone]
      exact ⟨rfl, rfl, rfl, rfl, rfl⟩
    · exact ⟨hfirst t ht, (hfirst t ht).outcome_iff, hlast (hfirst t ht)⟩

end Delivery

/-- A deadline of one second passes before the call answers. -/
theorem settles_once_iff_late :
    let r : Request Float Nat :=
      (start 1000 false).run 1000 [.make, .expire, .answer (.ok 7), .deliver, .cancel]
    NumberText.hasText (1000 : Float) = true ∧ r.settled = true ∧ r.aborted = true ∧
      r.outcome = some (.error (.engine (.providerTimeout 1000) {})) := by
  have htime : NumberText.hasText (1000 : Float) = true := rfl
  obtain ⟨-, hfirst, -⟩ := settles_once_iff (β := Nat) 1000 htime false
    [.make, .expire, .answer (.ok 7), .deliver, .cancel]
  obtain ⟨hconcluded, houtcome, -⟩ := hfirst .expired rfl
  exact ⟨htime, hconcluded.settled, hconcluded.aborted, houtcome.mpr rfl⟩

open Controller in
/-- The call fails with an object that has no text. The request settles, and has no outcome then or
later. -/
theorem not_settles_wordless :
    let r : Request Float Nat :=
      (start 1000 false).run 1000 [.make, .answer (.error wordless), .deliver]
    first? false [.make, .answer (.error wordless), .deliver] =
        some (.answered (.error wordless) : Trigger Float Nat) ∧
      r.settled = true ∧ r.armed = false ∧ r.listening = false ∧ r.outcome = none ∧
      ∀ later, (r.run 1000 later).outcome ≠
        some ((Trigger.answered (.error wordless) : Trigger Float Nat).outcome 1000) := by
  refine ⟨rfl, rfl, rfl, rfl, rfl, fun later hlater => ?_⟩
  have hinert : Inert (⟨.over, false, false, false, true, none⟩ : Request Float Nat) :=
    ⟨rfl, rfl, rfl⟩
  obtain ⟨call, hrun⟩ := hinert.run 1000 later
  cases (congrArg Request.outcome hrun).symm.trans hlater

end MarketMaker.Refresh.Request
