import MarketMaker.Scalar

/-!
# Spread efficiency

A score in `[0, 1]` of how well a spread traded width against fills. Tighter spreads score higher,
and a cycle without fills scores zero. Volatility sets what counts as tight; in a market that does
not move, only a spread of no width scores at all.
-/

namespace MarketMaker.Gamma

open Scalar

variable {α : Type} [Scalar α]

/-- The score of a spread, given the volatility and the share of orders that filled. -/
def spreadEfficiency (spread volatility fillRatio : α) : α :=
  let fills := clamp (if isFinite fillRatio then fillRatio else 0) 0 1
  let width := greatest 0 spread
  let reference := 2 * greatest 0 volatility
  if same reference 0 then if same width 0 then fills else 0
  else fills * reference / (width + reference)

end MarketMaker.Gamma
