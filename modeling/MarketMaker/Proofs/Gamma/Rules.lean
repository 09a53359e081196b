import MarketMaker.Proofs.Analysis
import MarketMaker.Gamma.Rules

/-!
# Risk aversion rises with risk

The rule multiplies its base by three **factors**, one for each signal, and moves the product into
its bounds.

* A factor depends on one signal only, and is counted in tenths: ten of them leave the risk aversion
  as it is.
* A **riskier** signal never has a smaller factor: more volatility, a position further from its
  target, a worse trend. For a threshold it does not matter whether it is a number, nor that the two
  thresholds of the inventory are in order: the upper one is looked at first.
* Moving into the bounds keeps the order. It is also all that the bounds need, in every arithmetic:
  a product that is not finite gives way to the base.

A scheduler keeps its last answer for reports and never looks at it, so what it answers does not
depend on what it was asked before.
-/

namespace MarketMaker.Gamma

open Scalar LawfulScalar

variable {α : Type} [Scalar α]

/-! ## Signals -/

/-- The rank of a trend by the risk in it; where nothing is known of the trend it counts as
neutral. -/
def trendRisk : Option Trend → ℕ
  | some .bullish => 0
  | some .neutral | none => 1
  | some .bearish => 2

/-- No signal is riskier than its counterpart. The figures that are compared are numbers, finite or
not. -/
structure Signals.NoRiskier (calm risky : Signals α) : Prop where
  /-- Volatility is not higher. -/
  volatility : calm.volatility ≤ risky.volatility
  /-- The inventory is not farther from its target. -/
  inventory : abs calm.inventoryDeviation ≤ abs risky.inventoryDeviation
  /-- The trend is no worse. -/
  trend : trendRisk calm.trend ≤ trendRisk risky.trend

/-! ## Factors -/

/-- The tenths that a risk aversion is scaled to: `up` above the upper threshold, `down` below the
lower one, and all ten between them. -/
def tenths (up down : ℕ) (high low signal : α) : ℕ :=
  if high < signal then up else if signal < low then down else 10

/-- The tenths for a trend. -/
def trendTenths : Option Trend → ℕ
  | some .bullish => 9
  | some .bearish => 11
  | _ => 10

/-- A greater signal has no smaller factor, wherever the thresholds are. -/
theorem tenths_mono [LawfulScalar α] {up down : ℕ} (hdown : down ≤ 10)
    (hup : 10 ≤ up) {high low x y : α} (hle : x ≤ y) :
    tenths up down high low x ≤ tenths up down high low y := by
  simp only [tenths]
  by_cases hhigh : high < x
  · rw [if_pos hhigh, if_pos (lt_of_lt_of_le hhigh hle)]
  · rw [if_neg hhigh]
    by_cases hraised : high < y
    · rw [if_pos hraised]
      split <;> omega
    · rw [if_neg hraised]
      by_cases hlow : y < low
      · rw [if_pos hlow, if_pos (lt_of_le_of_lt hle hlow)]
      · rw [if_neg hlow]
        split <;> omega

theorem trendTenths_mono {s t : Option Trend} (h : trendRisk s ≤ trendRisk t) :
    trendTenths s ≤ trendTenths t := by
  rcases s with _ | _ | _ | _ <;> rcases t with _ | _ | _ | _ <;> revert h <;> decide

section

variable {value : α → ℝ} (hexact : IsExactAnalysis value)

include hexact

theorem denotes_tenths (n : ℕ) :
    Denotes value (OfScientific.ofScientific n true 1 : α) (n / 10) := by
  rw [← pow_one (10 : ℝ)]
  exact hexact.decimal n 1

/-- A figure that is scaled by one of two factors, or left as it is. -/
theorem denotes_scaled {g : α} {a : ℝ} (hg : Denotes value g a) (up down : ℕ)
    (high low signal : α) :
    Denotes value
      (if high < signal then g * OfScientific.ofScientific up true 1
        else if signal < low then g * OfScientific.ofScientific down true 1 else g)
      (a * (tenths up down high low signal / 10)) := by
  simp only [tenths]
  split
  · exact hexact.mul hg (denotes_tenths hexact up)
  · split
    · exact hexact.mul hg (denotes_tenths hexact down)
    · simpa using hg

theorem denotes_scaledByTrend {g : α} {a : ℝ} (hg : Denotes value g a) (trend : Option Trend) :
    Denotes value (Rules.scaledByTrend trend g) (a * (trendTenths trend / 10)) := by
  rcases trend with _ | _ | _ | _
  · simpa [Rules.scaledByTrend, trendTenths] using hg
  · exact hexact.mul hg (denotes_tenths hexact 9)
  · exact hexact.mul hg (denotes_tenths hexact 11)
  · simpa [Rules.scaledByTrend, trendTenths] using hg

end

namespace Rules

variable {r : Rules α}

/-- **The product of the rule** is the base times a factor for each signal. -/
theorem denotes_product {value : α → ℝ} (hexact : IsExactAnalysis value) {base : ℝ}
    (hbase : Denotes value r.baseGamma base) (s : Signals α) :
    Denotes value (r.product s)
      (base * (tenths 12 8 r.highVolatility r.lowVolatility s.volatility / 10)
        * (tenths 13 9 r.highInventoryDeviation r.lowInventoryDeviation
          (abs s.inventoryDeviation) / 10)
        * (trendTenths s.trend / 10)) := by
  have hvolatility := denotes_scaled hexact hbase 12 8 r.highVolatility r.lowVolatility s.volatility
  have hinventory :=
    denotes_scaled hexact hvolatility 13 9 r.highInventoryDeviation r.lowInventoryDeviation
    (abs s.inventoryDeviation)
  exact denotes_scaledByTrend hexact hinventory s.trend

/-- Where arithmetic is exact nothing gives way to the base. -/
theorem gamma_eq_clamp {value : α → ℝ} (hexact : IsExactAnalysis value)
    (hbase : isFinite r.baseGamma = true) (s : Signals α) :
    r.gamma s = clamp (r.product s) r.gammaMin r.gammaMax := by
  simp only [gamma]
  rw [if_pos (denotes_product hexact (denotes_value value hbase) s).finite]

variable [LawfulScalar α]

/-- Riskier signals have no smaller a product. -/
theorem product_le_product {value : α → ℝ} (hexact : IsExactAnalysis value)
    (hbase : isPositive r.baseGamma = true) {calm risky : Signals α} (h : calm.NoRiskier risky) :
    r.product calm ≤ r.product risky := by
  obtain ⟨hfinite, hpos⟩ := Bool.and_eq_true_iff.mp hbase
  have hvalue := denotes_value value hfinite
  have hnonneg : 0 ≤ value r.baseGamma :=
    (hexact.le_iff_le hexact.zero hvalue).mp (le_of_lt (of_decide_eq_true hpos))
  rw [hexact.le_iff_le (denotes_product hexact hvalue calm) (denotes_product hexact hvalue risky)]
  have hvolatility : tenths 12 8 r.highVolatility r.lowVolatility calm.volatility ≤
      tenths 12 8 r.highVolatility r.lowVolatility risky.volatility :=
    tenths_mono (by decide) (by decide) h.volatility
  have hinventory :
    tenths 13 9 r.highInventoryDeviation r.lowInventoryDeviation (abs calm.inventoryDeviation) ≤
      tenths 13 9 r.highInventoryDeviation r.lowInventoryDeviation (abs risky.inventoryDeviation) :=
    tenths_mono (by decide) (by decide) h.inventory
  have htrend := trendTenths_mono h.trend
  gcongr

/-- The rule answers within its bounds, whatever the signals are. -/
theorem gamma_within (hbounds : r.gammaMin ≤ r.gammaMax) (hbase : isFinite r.baseGamma = true)
    (s : Signals α) : r.gammaMin ≤ r.gamma s ∧ r.gamma s ≤ r.gammaMax := by
  have hnumber : IsNumber (if isFinite (r.product s) then r.product s else r.baseGamma) := by
    split
    · next hfinite => exact isNumber_of_isFinite hfinite
    · exact isNumber_of_isFinite hbase
  obtain ⟨hlower, hupper, -⟩ := clamp_spec hbounds hnumber
  exact ⟨hlower, hupper⟩

end Rules

namespace Scheduler

variable {r : Rules α} {s : Scheduler α}

/-- Which rules a scheduler is created for, and what it starts from. -/
theorem create_eq_ok_iff :
    create r = .ok s ↔ isPositive r.baseGamma = true ∧ validBounds r.gammaMin r.gammaMax = true ∧
    r.lowVolatility ≤ r.highVolatility ∧ s = ⟨r, clamp r.baseGamma r.gammaMin r.gammaMax⟩ := by
  simp only [create]
  constructor
  · intro h
    split_ifs at h with hbase hbounds horder
    exact ⟨by simpa using hbase, by simpa using hbounds, by simpa using horder,
      (Except.ok.inj h).symm⟩
  · rintro ⟨hbase, hbounds, horder, rfl⟩
    simp [hbase, hbounds, horder]

/-- What a scheduler has become after it answered some signals. -/
def after (s : Scheduler α) (history : List (Signals α)) : Scheduler α := history.foldl next s

/-- Answering leaves the rules as they were. -/
theorem rules_after (s : Scheduler α) (history : List (Signals α)) :
    (s.after history).rules = s.rules := by
  induction history generalizing s with
  | nil => rfl
  | cons signals rest ih => exact ih (s.next signals)

/-- **Earlier answers are forgotten** with the next one. -/
theorem next_after (s : Scheduler α) (history : List (Signals α)) (signals : Signals α) :
    (s.after history).next signals = s.next signals := by
  simp only [next, rules_after]

variable [LawfulScalar α]

/-- **A scheduler answers riskier signals with no less risk aversion.** Take any rules that are
accepted, whatever they say about the inventory. Every answer lies within the bounds, whatever the
signals are, and is what it would have been without the answers before. Where arithmetic is exact,
riskier signals never lower it. -/
theorem answers_rise_with_risk (hcreate : create r = .ok s) :
    (∀ history signals, (s.after history).next signals = s.next signals) ∧
      (∀ signals, r.gammaMin ≤ (s.next signals).lastGamma ∧
        (s.next signals).lastGamma ≤ r.gammaMax) ∧
      ∀ value : α → ℝ, IsExactAnalysis value → ∀ calm risky : Signals α, calm.NoRiskier risky →
        (s.next calm).lastGamma ≤ (s.next risky).lastGamma := by
  obtain ⟨hbase, hvalid, -, rfl⟩ := create_eq_ok_iff.mp hcreate
  obtain ⟨hfinite, -⟩ := Bool.and_eq_true_iff.mp hbase
  have hbounds : r.gammaMin ≤ r.gammaMax := by
    simp only [validBounds, Bool.and_eq_true, decide_eq_true_iff] at hvalid
    exact hvalid.1.2
  refine ⟨next_after _, fun signals => r.gamma_within hbounds hfinite signals, ?_⟩
  intro value hexact calm risky hrisk
  change r.gamma calm ≤ r.gamma risky
  rw [r.gamma_eq_clamp hexact hfinite, r.gamma_eq_clamp hexact hfinite]
  exact clamp_le_clamp hbounds (r.product_le_product hexact hbase hrisk)

open Extended in
/-- Rules that call an inventory large before they stop calling it small. -/
noncomputable def crossed : Rules Extended where
  baseGamma := number (1 : ℝ)
  gammaMin := number (1 : ℝ)
  gammaMax := number ((2 : ℕ) : ℝ)
  highVolatility := number (1 : ℝ)
  lowVolatility := number (0 : ℝ)
  highInventoryDeviation := number (1 : ℝ)
  lowInventoryDeviation := number ((3 : ℕ) : ℝ)

open Extended in
/-- A position that is both large and small by crossed thresholds, in a bullish market that does not
move. -/
noncomputable def calmSignals : Signals Extended :=
  ⟨number (0 : ℝ), number ((2 : ℕ) : ℝ), some .bullish⟩

open Extended in
/-- A longer position on the other side, in a market without a trend that could not move more. -/
noncomputable def riskySignals : Signals Extended := ⟨number ⊤, number (-(3 : ℕ) : ℝ), none⟩

open Extended in
theorem create_crossed :
    create crossed = .ok ⟨crossed, clamp crossed.baseGamma crossed.gammaMin crossed.gammaMax⟩ := by
  rw [create_eq_ok_iff]
  simp only [isPositive, validBounds, isFinite_number, zero_eq, lt_number, le_number,
    EReal.coe_lt_coe_iff, EReal.coe_le_coe_iff, crossed]
  norm_num

open Extended in
theorem calmSignals_noRiskier : calmSignals.NoRiskier riskySignals where
  volatility := le_number.mpr le_top
  inventory := by
    have hcalm : Denotes Extended.value calmSignals.inventoryDeviation (2 : ℕ) :=
      ⟨isFinite_number _, rfl⟩
    have hrisky : Denotes Extended.value riskySignals.inventoryDeviation (-(3 : ℕ)) :=
      ⟨isFinite_number _, rfl⟩
    rw [isExactAnalysis.le_iff_le (isExactAnalysis.abs hcalm) (isExactAnalysis.abs hrisky)]
    norm_num
  trend := by decide

/-- Crossed thresholds, a market that could not move more, and a volatility that is not a number. -/
theorem answers_rise_with_risk_crossed :
    let s : Scheduler Extended :=
      ⟨crossed, clamp crossed.baseGamma crossed.gammaMin crossed.gammaMax⟩
    let unknown : Signals Extended := ⟨.undefined, .undefined, some .bearish⟩
    create crossed = .ok s ∧ calmSignals.NoRiskier riskySignals ∧
      (s.next calmSignals).lastGamma ≤ (s.next riskySignals).lastGamma ∧
      (crossed.gammaMin ≤ (s.next unknown).lastGamma ∧
        (s.next unknown).lastGamma ≤ crossed.gammaMax) ∧
      (s.after [riskySignals, unknown]).next calmSignals = s.next calmSignals := by
  intro s unknown
  obtain ⟨hforgets, hwithin, hrises⟩ := answers_rise_with_risk create_crossed
  exact ⟨create_crossed, calmSignals_noRiskier,
    hrises Extended.value Extended.isExactAnalysis calmSignals riskySignals calmSignals_noRiskier,
    hwithin unknown, hforgets [riskySignals, unknown] calmSignals⟩

end Scheduler

end MarketMaker.Gamma
