import MarketMaker.Proofs.Refresh.Stages
import MarketMaker.Proofs.Refresh.InFlight

/-!
# Only a stop cancels a request

A request comes to a cancellation when its caller cancels it, and the caller of the request in
flight is the controller: it cancels when it is stopped, and at no other time. Whatever else the
source of bars throws, also a cancellation of its own, the request **reports** as a failure of the
source. So to have come to no cancellation is lasting until a stop (`lasting_uncancelled`), and the
request in flight of a controller that is not stopped has come to none (`uncancelled_run`).
-/

namespace MarketMaker.Refresh

variable {α β : Type} [NumberText α]

/-- A request that has not come to a cancellation. -/
def Request.Uncancelled (r : Request α β) : Prop :=
  ∀ f, r.outcome = some (.error f) → f.isCancellation = false

namespace Request

/-- Whatever the source of bars throws, its request reports no cancellation. -/
theorem isCancellation_reported (f : Failure α) : (reported f).isCancellation = false := by
  cases f with
  | engine e labels => rfl
  | _ => exact Controller.isCancellation_failure _

namespace Uncancelled

variable {r : Request α β}

omit [NumberText α] in
theorem settle (h : r.Uncancelled) {outcome : Except (Failure α) β}
    (houtcome : ∀ f, outcome = .error f → f.isCancellation = false) :
    (r.settle outcome).Uncancelled := by
  unfold Request.settle
  split
  · exact fun f hf => houtcome f (Option.some.inj hf)
  · exact h

theorem timeOut (h : r.Uncancelled) (milliseconds : α) : (r.timeOut milliseconds).Uncancelled := by
  unfold Request.timeOut
  split
  · refine settle ?_ ?_
    · exact h
    · rintro f ⟨⟩
      exact Controller.isCancellation_failure _
  · exact h

theorem receive (h : r.Uncancelled) : r.receive.Uncancelled := by
  unfold Request.receive
  split
  · next a _ =>
    dsimp only
    split
    · refine settle ?_ fun f hf => ?_
      · exact h
      · cases a with
        | ok b => cases hf
        | error thrown =>
          obtain rfl : reported thrown = f := Except.error.inj hf
          exact isCancellation_reported thrown
    · unfold Request.lose
      split
      · exact h
      · exact h
  · exact h

omit [NumberText α] in
theorem answer (h : r.Uncancelled) (a : Except (Failure α) β) : (r.answer a).Uncancelled := by
  unfold Request.answer
  split <;> exact h

omit [NumberText α] in
theorem make (h : r.Uncancelled) : r.make.Uncancelled := by
  unfold Request.make
  split <;> exact h

end Uncancelled

end Request

/-- Until a stop, nothing brings a request to a cancellation. -/
theorem lasting_uncancelled :
    Lasting fun stopped (r : Request α (List (Bar α))) => stopped = false → r.Uncancelled where
  begun _ _ := nofun
  stop _ := nofun
  cancel _ := nofun
  make h hnot := (h hnot).make
  answer h a hnot := (h hnot).answer a
  timeOut h milliseconds hnot := (h hnot).timeOut milliseconds
  receive h hnot := (h hnot).receive
  detach h := h

namespace Controller

/-- As long as the controller is not stopped, the request in flight has not come to a
cancellation. -/
def Uncancelled (c : Controller α) : Prop :=
  c.stopped = false → ∀ y, c.cycle = some y → y.request.Uncancelled

/-- **Throughout a run, only a stop brings a request to a cancellation.** -/
theorem uncancelled_run [Scalar α] [Numeric α] {config : Config α} {c₀ : Controller α}
    (hcreate : create config = .ok c₀) (w : Surroundings α) (events : List (Event α)) :
    (c₀.run w events).Uncancelled :=
  fun hnot y hy => lasting_uncancelled.run hcreate w events y hy hnot

end Controller

end MarketMaker.Refresh
