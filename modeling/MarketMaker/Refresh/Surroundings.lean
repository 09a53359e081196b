import MarketMaker.Parameters
import MarketMaker.Pricing

/-!
# The surroundings of a controller

All that a controller does not decide itself: how the source of bars answers, what the market and
the performance are, and what listeners do. A callback may call back into the controller before it
returns or throws, so what it does is a `Reaction`: a list of such **actions** and then a result.
Each part is given by the number of the call, counted from zero.
-/

namespace MarketMaker.Refresh

/-- A call that a callback makes into the controller. -/
inductive Action (α : Type) where
  /-- It stops the controller. -/
  | stop
  /-- It sets where the risk aversion comes from. -/
  | setMode (mode : Choice Mode α)
  /-- It ticks. -/
  | tick (now : α)
  /-- It asks for a refresh. -/
  | refresh (now : α)

/-- What a callback does: its calls into the controller in order, then what it returns or throws. -/
structure Reaction (α β : Type) where
  /-- Its calls into the controller. -/
  actions : List (Action α)
  /-- What it returns or throws. -/
  result : Except (Failure α) β

/-- How the source of bars answers a call. -/
inductive Reply (α : Type) where
  /-- With bars or with a failure, at once. -/
  | now (answer : Except (Failure α) (List (Bar α)))
  /-- At some time, or never. -/
  | later

/-- The listeners of a controller. -/
structure Listeners (α : Type) where
  /-- Told what a publication changed, and the new set. -/
  onPublish : Nat → ChangeRecord α → Parameters α → Reaction α Unit
  /-- Told that a spread was below the floor. -/
  onFloorClamp : Nat → Pricing.FloorClamp α → Reaction α Unit
  /-- Told why a cycle failed. -/
  onFailure : Nat → Failure α → Reaction α Unit

/-- Everything around a controller. -/
structure Surroundings (α : Type) where
  /-- What becomes of each call for bars. -/
  reply : Nat → Reply α
  /-- Whether the controller is stopped the moment the request of a call is settled, before its
  cycle goes on. -/
  stopsOnSettling : Nat → Bool
  /-- The state of the market for the bars of a cycle. -/
  market : Nat → List (Bar α) → Reaction α (Market α)
  /-- How trading went, where someone keeps track of it. -/
  performance : Option (Nat → Reaction α (Option (Performance α)))
  /-- The listeners, if there are any. -/
  listeners : Option (Listeners α)

end MarketMaker.Refresh
