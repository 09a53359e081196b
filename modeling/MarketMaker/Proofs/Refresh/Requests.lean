import MarketMaker.Refresh.Request

/-!
# What becomes of a request

Between its beginning and the end of its cycle a request only ever **passes** from one state to a
later one: once settled it stays settled and keeps its outcome, its call is not made a second time,
all it has of answers was given to it, and a failure that it comes to can be put in words.
Cancelling, the deadline, an answer and its arrival are such passages.

A request is **attentive** when it listens as long as it is open, and has no outcome while it is
open. At rest, between two events, it is also **tidy**: it listens no longer than that. The moment
in between, when a request has settled and still listens, is where its cycle may be cancelled once
more.
-/

namespace MarketMaker

variable {α β : Type}

/-- The engine's own failures can be put in words. -/
theorem EngineError.hasWords_failure [NumberText α] (e : EngineError α) :
    e.failure.hasWords = true := by
  unfold EngineError.failure
  split <;> rfl

namespace Refresh.Request

variable {r : Request α β}

/-! ## Settling -/

theorem settle_of_settled {outcome : Except (Failure α) β} (h : r.isOpen = false) :
    r.settle outcome = r := by
  simp [settle, h]

theorem settle_of_open {outcome : Except (Failure α) β} (h : r.isOpen = true) :
    r.settle outcome = { r with settled := true, outcome := some outcome, armed := false } := by
  simp [settle, h]

@[simp] theorem isOpen_settle (outcome : Except (Failure α) β) (r : Request α β) :
    (r.settle outcome).isOpen = false := by
  cases h : r.isOpen with
  | true => rw [settle_of_open h]; rfl
  | false => rw [settle_of_settled h, h]

@[simp] theorem call_settle (outcome : Except (Failure α) β) (r : Request α β) :
    (r.settle outcome).call = r.call := by
  unfold settle
  split <;> rfl

/-! ## Attentive and tidy requests -/

/-- A request that listens as long as it is open, and has no outcome yet when it is. -/
structure Attentive (r : Request α β) : Prop where
  /-- An open request listens to its caller. -/
  listening : r.isOpen = true → r.listening = true
  /-- An open request has no outcome. -/
  outcome : r.isOpen = true → r.outcome = none

/-- A request between two events: it listens exactly as long as it is open. -/
structure Tidy (r : Request α β) : Prop extends Attentive r where
  /-- A request that is not open does not listen. -/
  deaf : r.isOpen = false → r.listening = false

theorem Tidy.answer (h : r.Tidy) (a : Except (Failure α) β) : (r.answer a).Tidy := by
  unfold Request.answer
  split
  · exact ⟨⟨h.listening, h.outcome⟩, h.deaf⟩
  · exact h

theorem Tidy.make (h : r.Tidy) : r.make.Tidy := by
  unfold Request.make
  split
  · exact ⟨⟨h.listening, h.outcome⟩, h.deaf⟩
  · exact h

/-! ## Passages -/

variable [NumberText α]

/-- Whether all that a request has of answers is among those given to its call, and the failure that
it comes to can be put in words. -/
structure AnsweredBy (given : Except (Failure α) β → Prop) (r : Request α β) : Prop where
  /-- An answer on the way was given. -/
  answer : ∀ a, r.call = .answered a → given a
  /-- What the request came to was given, unless it is a failure. -/
  outcome : ∀ b, r.outcome = some (.ok b) → given (.ok b)
  /-- A failure that it came to can be put in words. -/
  words : ∀ f, r.outcome = some (.error f) → f.hasWords = true

/-- What becomes of a request that has not been called anew. -/
structure Passes (given : Except (Failure α) β → Prop) (r r' : Request α β) : Prop where
  /-- A call is due afterwards exactly if it was before. -/
  due : r'.call = .due ↔ r.call = .due
  /-- Once it is not open, nothing more becomes of it. -/
  settled : r.isOpen = false → r'.isOpen = false ∧ r'.outcome = r.outcome
  /-- It is attentive still. -/
  attentive : r.Attentive → r'.Attentive
  /-- It has no other answers than those given. -/
  answered : r.AnsweredBy given → r'.AnsweredBy given

variable {given : Except (Failure α) β → Prop} {r' r'' : Request α β}

theorem Passes.refl (r : Request α β) : Passes given r r := ⟨.rfl, fun h => ⟨h, rfl⟩, id, id⟩

theorem Passes.trans (h₁ : Passes given r r') (h₂ : Passes given r' r'') : Passes given r r'' := by
  refine ⟨h₂.due.trans h₁.due, fun hsettled => ?_, h₂.attentive ∘ h₁.attentive,
    h₂.answered ∘ h₁.answered⟩
  obtain ⟨hsettled', houtcome⟩ := h₁.settled hsettled
  exact ⟨(h₂.settled hsettled').1, (h₂.settled hsettled').2.trans houtcome⟩

/-- A request settles with an answer that its call was given, or with a failure that has words. -/
theorem Passes.settle {outcome : Except (Failure α) β} (h : ∀ b, outcome = .ok b → given (.ok b))
    (hwords : ∀ f, outcome = .error f → f.hasWords = true) : Passes given r (r.settle outcome) := by
  refine ⟨by rw [call_settle], fun hsettled => ?_, fun _ => ⟨by simp, by simp⟩,
    fun hgiven => ⟨?_, ?_, ?_⟩⟩
  · rw [settle_of_settled hsettled]
    exact ⟨hsettled, rfl⟩
  · intro a ha
    exact hgiven.answer a (by rwa [call_settle] at ha)
  · intro b hb
    cases hopen : r.isOpen with
    | false => exact hgiven.outcome b (by rwa [settle_of_settled hopen] at hb)
    | true =>
      rw [settle_of_open hopen] at hb
      exact h b (Option.some.inj hb)
  · intro f hf
    cases hopen : r.isOpen with
    | false => exact hgiven.words f (by rwa [settle_of_settled hopen] at hf)
    | true =>
      rw [settle_of_open hopen] at hf
      exact hwords f (Option.some.inj hf)

theorem Passes.lose (r : Request α β) : Passes given r r.lose := by
  unfold Request.lose
  cases hopen : r.isOpen with
  | false => exact .refl r
  | true =>
    refine ⟨.rfl, fun h => absurd (hopen.symm.trans h) (by simp),
      fun h => ⟨by simp [isOpen], by simp [isOpen]⟩, fun h => ⟨h.answer, h.outcome, h.words⟩⟩

theorem Passes.abort (r : Request α β) : Passes given r r.abort :=
  ⟨.rfl, fun h => ⟨h, rfl⟩, fun h => ⟨h.1, h.2⟩, fun h => ⟨h.1, h.2, h.3⟩⟩

/-- A settled request may stop listening. -/
theorem Passes.detach (h : r.Attentive → r.isOpen = false) : Passes given r r.detach := by
  refine ⟨.rfl, fun h => ⟨h, rfl⟩, fun ha => ⟨fun hopen => ?_, ha.outcome⟩,
    fun h => ⟨h.1, h.2, h.3⟩⟩
  exact absurd ((h ha).symm.trans hopen) (by simp)

/-! ## What happens to a request -/

theorem Passes.cancel (r : Request α β) : Passes given r r.cancel := by
  unfold Request.cancel
  split
  · have hsettle : Passes given r (r.abort.settle (.error (.cancelled {}))) :=
      (Passes.abort r).trans (.settle nofun (by rintro f ⟨⟩; rfl))
    exact hsettle.trans (.detach fun _ => isOpen_settle _ _)
  · exact .refl r

theorem Passes.answer {a : Except (Failure α) β} (h : given a) (r : Request α β) :
    Passes given r (r.answer a) := by
  unfold Request.answer
  split
  · next hcall =>
    refine ⟨by simp [hcall], fun h => ⟨h, rfl⟩, fun h => ⟨h.1, h.2⟩,
      fun hgiven => ⟨?_, hgiven.2, hgiven.3⟩⟩
    intro b hb
    cases hb
    exact h
  · exact .refl r

/-- The request stops listening once it is settled. -/
theorem Passes.close (r : Request α β) : Passes given r (if r.isOpen then r else r.detach) := by
  cases hopen : r.isOpen with
  | true => exact .refl r
  | false => exact .detach fun _ => hopen

theorem Passes.timeOut (milliseconds : α) (r : Request α β) :
    Passes given r (r.timeOut milliseconds) := by
  unfold Request.timeOut
  split
  · have hdisarmed : Passes given r { r.abort with armed := false } :=
      ⟨.rfl, fun h => ⟨h, rfl⟩, fun h => ⟨h.1, h.2⟩, fun h => ⟨h.1, h.2, h.3⟩⟩
    exact hdisarmed.trans (.settle nofun (by rintro f ⟨⟩; exact EngineError.hasWords_failure _))
  · exact .refl r

theorem Passes.receive (r : Request α β) : Passes given r r.receive := by
  unfold Request.receive
  split
  · next a hcall =>
    have hover (given : Except (Failure α) β → Prop) : Passes given r { r with call := .over } :=
      ⟨by simp [hcall], fun h => ⟨h, rfl⟩, fun h => ⟨h.1, h.2⟩, fun h => ⟨nofun, h.2, h.3⟩⟩
    dsimp only
    split
    · have hwords : ∀ f, a.mapError reported = .error f → f.hasWords = true := by
        intro f hf
        cases a with
        | ok b => cases hf
        | error f' =>
          obtain rfl : reported f' = f := Except.error.inj hf
          cases f' with
          | engine e labels => rfl
          | _ => exact EngineError.hasWords_failure _
      -- What the request passes to does not depend on the answer; only the last field asks where
      -- that came from.
      have hsettle := (hover fun _ => True).trans (.settle (fun _ _ => trivial) hwords)
      refine ⟨hsettle.due, hsettle.settled, hsettle.attentive, fun hgiven => ?_⟩
      have hvalue : ∀ b, a.mapError reported = .ok b → given (.ok b) := by
        intro b hb
        cases a with
        | error f => cases hb
        | ok b' =>
          obtain rfl : b' = b := Except.ok.inj hb
          exact hgiven.answer _ hcall
      exact (Passes.settle hvalue hwords).answered ((hover given).answered hgiven)
    · exact (hover given).trans (.lose _)
  · exact .refl r

/-! ## Requests at rest -/

/-- A cancelled request is settled, and listens no more. -/
theorem Attentive.tidy_cancel (h : r.Attentive) : r.cancel.Tidy ∧ r.cancel.isOpen = false := by
  have hpass : Passes (fun _ => True) r r.cancel := .cancel r
  have hattentive := hpass.attentive h
  unfold Request.cancel at hattentive ⊢
  split
  · next hlistening =>
    rw [if_pos hlistening] at hattentive
    exact ⟨⟨hattentive, fun _ => rfl⟩, isOpen_settle _ _⟩
  · next hlistening =>
    have hsettled : r.isOpen = false := by
      cases hopen : r.isOpen with
      | false => rfl
      | true => exact absurd (h.listening hopen) hlistening
    exact ⟨⟨h, fun _ => by simpa using hlistening⟩, hsettled⟩

theorem Attentive.tidy_close (h : r.Attentive) : (if r.isOpen then r else r.detach).Tidy := by
  cases hopen : r.isOpen with
  | true => exact ⟨h, fun hsettled => absurd (hopen.symm.trans hsettled) (by simp)⟩
  | false =>
    have hpass : Passes (fun _ => True) r r.detach := .detach fun _ => hopen
    exact ⟨hpass.attentive h, fun _ => rfl⟩

end Refresh.Request

end MarketMaker
