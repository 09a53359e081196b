import MarketMaker.Proofs.Analysis
import MarketMaker.Proofs.Pricing.Formulas

/-!
# Quotes of an exact analysis

In an exact analysis the quote for sound figures is the quote over the reals, figure by figure: each
of them denotes the figure that the same formula comes to for the real numbers. What is proved of
quotes over the reals thus holds of the quotes of every exact analysis.

The prices are compared to zero, and the spread to its floor, on both sides alike, so the same
branches are taken.
-/

namespace MarketMaker

open Scalar

variable {α : Type} [Scalar α] {value : α → ℝ} (hexact : IsExactAnalysis value)

/-- A market over the reals. -/
def Market.real (value : α → ℝ) (m : Market α) : Market ℝ where
  midPrice := value m.midPrice
  inventory := value m.inventory
  alpha := value m.alpha
  kappa := value m.kappa
  timestamp := value m.timestamp
  trend := m.trend
  snapshot := m.snapshot

namespace Pricing

variable {c : Config α} {i : Input α}

/-- A tuning over the reals. -/
def Config.real (value : α → ℝ) (c : Config α) : Config ℝ :=
  ⟨value c.minSpread, value c.shapeFactor⟩

/-- An input over the reals. -/
def Input.real (value : α → ℝ) (i : Input α) : Input ℝ :=
  ⟨i.market.real value, value i.gamma, value i.volatility, value i.horizonSeconds⟩

/-! ## Sound inputs -/

/-- A quote is computed from figures that are finite, and of which some are above zero. -/
structure Input.Sound (i : Input α) : Prop where
  /-- The risk aversion is finite and above zero. -/
  gamma : isPositive i.gamma = true
  /-- The depth of the book is finite and above zero. -/
  kappa : isPositive i.market.kappa = true
  /-- The mid price is finite and above zero. -/
  midPrice : isPositive i.market.midPrice = true
  /-- The inventory is finite. -/
  inventory : isFinite i.market.inventory = true
  /-- The volatility is finite and not negative. -/
  volatility : isNonNegative i.volatility = true
  /-- The horizon is finite and not negative. -/
  horizon : isNonNegative i.horizonSeconds = true

theorem sound_iff_fault? : fault? i = none ↔ i.Sound := by
  simp only [fault?]
  constructor
  · intro h
    split_ifs at h
    constructor <;> simp_all
  · intro h
    simp [h.gamma, h.kappa, h.midPrice, h.inventory, h.volatility, h.horizon]

/-- A tuning with a finite floor and a shape factor that splits the spread. -/
structure Config.Sound (c : Config α) : Prop where
  /-- The floor is finite. -/
  minSpread : isFinite c.minSpread = true
  /-- The shape factor is finite and above zero. -/
  shapeFactor : isPositive c.shapeFactor = true

variable [StrictScalar α]

include hexact

theorem Config.Sound.shapeFactor_pos (h : c.Sound) : 0 < (c.real value).shapeFactor :=
  hexact.value_pos h.shapeFactor

/-- Sound figures pass every check over the reals. -/
theorem Input.Sound.valid (h : i.Sound) : (i.real value).Valid where
  gamma_pos := hexact.value_pos h.gamma
  kappa_pos := hexact.value_pos h.kappa
  midPrice_pos := hexact.value_pos h.midPrice
  volatility_nonneg := hexact.value_nonneg h.volatility
  horizon_nonneg := hexact.value_nonneg h.horizon

omit [StrictScalar α] hexact in
theorem Input.Sound.denotes_midPrice (h : i.Sound) :
    Denotes value i.market.midPrice (i.real value).market.midPrice :=
  denotes_value value (isFinite_of_isPositive h.midPrice)

/-! ## The reservation price and the spread -/

omit [StrictScalar α] in
theorem Input.Sound.denotes_horizonDays (h : i.Sound) :
    Denotes value (i.horizonSeconds / (secondsPerDay : α)) (i.real value).horizonDays :=
  hexact.div (denotes_value value (isFinite_of_isNonNegative h.horizon)) (hexact.natCast _)
    (by norm_num [secondsPerDay])

theorem Input.Sound.denotes_reservationPrice (h : i.Sound) :
    Denotes value (quoteOf c i).reservationPrice
      (quoteOf (c.real value) (i.real value)).reservationPrice := by
  have hroot := hexact.sqrt (h.denotes_horizonDays hexact) (h.valid hexact).horizonDays_nonneg
  have hgamma := denotes_value value (isFinite_of_isPositive h.gamma)
  have hvolatility := denotes_value value (isFinite_of_isNonNegative h.volatility)
  exact hexact.sub h.denotes_midPrice
    (hexact.mul (hexact.mul (hexact.mul (denotes_value value h.inventory) hgamma) hvolatility)
      hroot)

/-- The logarithm in the spread is one of more than one. -/
theorem Input.Sound.denotes_modelSpread (h : i.Sound) :
    Denotes value
      (optimalSpread i.gamma i.volatility (i.horizonSeconds / (secondsPerDay : α)) i.market.kappa)
      (i.real value).modelSpread := by
  have hvalid := h.valid hexact
  have hgamma := denotes_value value (isFinite_of_isPositive h.gamma)
  have hkappa := denotes_value value (isFinite_of_isPositive h.kappa)
  have hvolatility := denotes_value value (isFinite_of_isNonNegative h.volatility)
  have hdiffusion :=
    hexact.mul (hexact.mul hgamma (hexact.mul hvolatility hvolatility))
      (h.denotes_horizonDays hexact)
  have hratio : 0 < ((1 : ℕ) : ℝ) + (i.real value).gamma / (i.real value).market.kappa :=
    add_pos (by norm_num) (div_pos hvalid.gamma_pos hvalid.kappa_pos)
  have hlog :=
    hexact.ln (hexact.add (hexact.natCast 1) (hexact.div hgamma hkappa hvalid.kappa_pos.ne')) hratio
  exact hexact.add hdiffusion
    (hexact.mul (hexact.div (hexact.natCast 2) hgamma hvalid.gamma_pos.ne') hlog)

omit hexact [StrictScalar α] in
theorem quoteOf_spread (c : Config α) (i : Input α) :
    let model :=
      optimalSpread i.gamma i.volatility (i.horizonSeconds / (secondsPerDay : α)) i.market.kappa
    (quoteOf c i).optimalSpread =
      if model < i.market.midPrice * c.minSpread then i.market.midPrice * c.minSpread
      else model := by
  simp only [quoteOf, floorClamp?]
  split_ifs <;> rfl

theorem Input.Sound.denotes_optimalSpread (hc : c.Sound) (h : i.Sound) :
    Denotes value (quoteOf c i).optimalSpread
      (quoteOf (c.real value) (i.real value)).optimalSpread := by
  have hfloor := hexact.mul h.denotes_midPrice (denotes_value value hc.minSpread)
  have hmodel := h.denotes_modelSpread hexact
  rw [quoteOf_spread, quoteOf_spread]
  exact .ite (hexact.lt_iff_lt hmodel hfloor) hfloor hmodel

/-! ## The prices -/

/-- Each figure of a quote denotes the one of a quote over the reals. -/
structure Quote.Denotes (value : α → ℝ) (q : Quote α) (r : Quote ℝ) : Prop where
  /-- The reservation price is the real one. -/
  reservationPrice : MarketMaker.Denotes value q.reservationPrice r.reservationPrice
  /-- The spread is the real one. -/
  optimalSpread : MarketMaker.Denotes value q.optimalSpread r.optimalSpread
  /-- The price of the bid is the real one. -/
  bidPrice : MarketMaker.Denotes value q.bidPrice r.bidPrice
  /-- The price of the ask is the real one. -/
  askPrice : MarketMaker.Denotes value q.askPrice r.askPrice
  /-- The distance of the bid is the real one. -/
  bidSpread : MarketMaker.Denotes value q.bidSpread r.bidSpread
  /-- The distance of the ask is the real one. -/
  askSpread : MarketMaker.Denotes value q.askSpread r.askSpread

/-- **A quote for sound figures is the quote over the reals.** -/
theorem quoteOf_denotes (hc : c.Sound) (h : i.Sound) :
    (quoteOf c i).Denotes value (quoteOf (c.real value) (i.real value)) := by
  have hmid : Denotes value i.market.midPrice (i.real value).market.midPrice := h.denotes_midPrice
  have hne := (h.valid hexact).midPrice_pos.ne'
  have hreservation := h.denotes_reservationPrice hexact (c := c)
  have hspread := h.denotes_optimalSpread hexact hc
  have heta := denotes_value value (isFinite_of_isPositive hc.shapeFactor)
  have hwhole := hexact.add (hexact.natCast 1) heta
  have hwholeNe : ((1 : ℕ) : ℝ) + value c.shapeFactor ≠ 0 :=
    (add_pos (by norm_num) (hc.shapeFactor_pos hexact)).ne'
  have hplainBid := hexact.sub hreservation (hexact.mul hspread (hexact.div heta hwhole hwholeNe))
  have hplainAsk :=
    hexact.add hreservation (hexact.mul hspread (hexact.div (hexact.natCast 1) hwhole hwholeNe))
  have hbid :
      Denotes value (quoteOf c i).bidPrice (quoteOf (c.real value) (i.real value)).bidPrice :=
    .ite (hexact.le_iff_le hplainBid (hexact.natCast 0))
      (hexact.mul hmid (hexact.decimal 999 3)) hplainBid
  have hask :
      Denotes value (quoteOf c i).askPrice (quoteOf (c.real value) (i.real value)).askPrice :=
    .ite (hexact.le_iff_le hplainAsk (hexact.natCast 0))
      (hexact.mul hmid (hexact.decimal 1001 3)) hplainAsk
  exact ⟨hreservation, hspread, hbid, hask, hexact.div (hexact.sub hmid hbid) hmid hne,
    hexact.div (hexact.sub hask hmid) hmid hne⟩

end Pricing

end MarketMaker
