import MarketMaker.Proofs.Pricing.Width

/-!
# Prices against the position

Two quotes for inputs that differ in the inventory only have the same spread, and the greater
position has the lower reservation price. So the plain prices fall with the position, too.

A price that is not positive is replaced by one near the mid price, wherever the position has moved
it to. Along the position a quoted price thus falls as long as it is kept, and stays where it is
once it was replaced. In between it jumps to the price that replaces it. Whether that is a jump
upwards depends on how low it had come before.
-/

namespace MarketMaker.Pricing

/-- An input with another inventory. -/
def Input.holding (i : Input ℝ) (inventory : ℝ) : Input ℝ :=
  { i with market := { i.market with inventory } }

variable {c : Config ℝ} {i : Input ℝ} {q q' : ℝ}

theorem Input.Valid.holding (h : i.Valid) (q : ℝ) : (i.holding q).Valid :=
  ⟨h.gamma_pos, h.kappa_pos, h.midPrice_pos, h.volatility_nonneg, h.horizon_nonneg⟩

/-! ## Plain prices -/

/-- What a unit of inventory moves the prices by. -/
noncomputable def Input.skew (i : Input ℝ) : ℝ := i.gamma * i.volatility * √i.horizonDays

theorem Input.Valid.skew_nonneg (h : i.Valid) : 0 ≤ i.skew :=
  mul_nonneg (mul_nonneg h.gamma_pos.le h.volatility_nonneg) (Real.sqrt_nonneg _)

theorem reservationPrice_holding (c : Config ℝ) (i : Input ℝ) (q : ℝ) :
    (quoteOf c (i.holding q)).reservationPrice = i.market.midPrice - q * i.skew := by
  rw [quoteOf_reservationPrice]
  simp only [reservationPrice, Input.holding, Input.skew, Input.horizonDays, Reals.sqrt_eq]
  ring

/-- The inventory has no part in the spread. -/
theorem optimalSpread_holding (c : Config ℝ) (i : Input ℝ) (q q' : ℝ) :
    (quoteOf c (i.holding q)).optimalSpread = (quoteOf c (i.holding q')).optimalSpread := by
  rw [quoteOf_optimalSpread, quoteOf_optimalSpread]
  rfl

theorem reservationPrice_antitone (h : i.Valid) (hle : q ≤ q') :
    (quoteOf c (i.holding q')).reservationPrice ≤ (quoteOf c (i.holding q)).reservationPrice := by
  rw [reservationPrice_holding, reservationPrice_holding]
  exact sub_le_sub_left (mul_le_mul_of_nonneg_right hle h.skew_nonneg) _

theorem plainBid_antitone (h : i.Valid) (hle : q ≤ q') :
    plainBid c (i.holding q') ≤ plainBid c (i.holding q) := by
  unfold plainBid
  rw [optimalSpread_holding c i q' q]
  exact sub_le_sub_right (reservationPrice_antitone h hle) _

theorem plainAsk_antitone (h : i.Valid) (hle : q ≤ q') :
    plainAsk c (i.holding q') ≤ plainAsk c (i.holding q) := by
  unfold plainAsk
  rw [optimalSpread_holding c i q' q]
  exact add_le_add_left (reservationPrice_antitone h hle) _

/-! ## Quoted prices -/

/-- A price that falls, but is replaced where it is not positive. It has fallen unless it was
replaced by a price above the one that was kept before. -/
theorem replaced_le_iff {price price' replacement : ℝ} (hle : price' ≤ price) :
    (if price' ≤ 0 then replacement else price') ≤ (if price ≤ 0 then replacement else price) ↔
      0 < price' ∨ price ≤ 0 ∨ replacement ≤ price := by
  rcases lt_or_ge 0 price' with hkept' | hgone'
  · rw [if_neg hkept'.not_ge, if_neg (hkept'.trans_le hle).not_ge]
    exact iff_of_true hle (Or.inl hkept')
  rcases lt_or_ge 0 price with hkept | hgone
  · rw [if_pos hgone', if_neg hkept.not_ge]
    refine ⟨fun h => Or.inr (Or.inr h), ?_⟩
    rintro (h | h | h)
    · exact absurd h hgone'.not_gt
    · exact absurd h hkept.not_ge
    · exact h
  · rw [if_pos hgone', if_pos hgone]
    exact iff_of_true le_rfl (Or.inr (Or.inl hgone))

/-- **More inventory, lower prices.** For every tuning and every input that passes the checks there
are quotes at both positions. The greater position has no higher a reservation price, ever. Its bid
and its ask are no higher exactly when they were not replaced, or were replaced at both positions,
or were replaced by a price no higher than the one that was kept at the smaller position. -/
theorem prices_fall_iff (hi : fault? i = none) (hle : q ≤ q') :
    ∃ quote quote', compute c (i.holding q) = .ok quote ∧ compute c (i.holding q') = .ok quote' ∧
      quote'.reservationPrice ≤ quote.reservationPrice ∧
      (quote'.bidPrice ≤ quote.bidPrice ↔
        0 < plainBid c (i.holding q') ∨ plainBid c (i.holding q) ≤ 0 ∨
        i.market.midPrice * (999 / 1000) ≤ plainBid c (i.holding q)) ∧
      (quote'.askPrice ≤ quote.askPrice ↔
        0 < plainAsk c (i.holding q') ∨ plainAsk c (i.holding q) ≤ 0 ∨
        i.market.midPrice * (1001 / 1000) ≤ plainAsk c (i.holding q)) := by
  have hvalid := fault?_eq_none_iff.mp hi
  have hfault (q : ℝ) : fault? (i.holding q) = none := fault?_eq_none_iff.mpr (hvalid.holding q)
  refine ⟨_, _, compute_eq_ok (hfault q), compute_eq_ok (hfault q'),
    reservationPrice_antitone hvalid hle, ?_, ?_⟩
  · rw [quoteOf_bidPrice, quoteOf_bidPrice]
    exact replaced_le_iff (plainBid_antitone hvalid hle)
  · rw [quoteOf_askPrice, quoteOf_askPrice]
    exact replaced_le_iff (plainAsk_antitone hvalid hle)

/-! ## Ever longer positions -/

theorem skew_longInput : longInput.skew = 1 := by
  rw [Input.skew, horizonDays_longInput]
  norm_num [longInput]

/-- Every unit moves the plain prices down by one. -/
theorem plain_longInput (q : ℝ) :
    plainBid evenTuning (longInput.holding q) = 100 - q - (1 + 2 * Real.log 2) / 2 ∧
      plainAsk evenTuning (longInput.holding q) = 100 - q + (1 + 2 * Real.log 2) / 2 := by
  have hspread : (quoteOf evenTuning (longInput.holding q)).optimalSpread = 1 + 2 * Real.log 2 :=
    (optimalSpread_holding evenTuning longInput q 100).trans optimalSpread_longInput
  have hmid : longInput.market.midPrice = 100 := rfl
  rw [plainBid, plainAsk, reservationPrice_holding, hspread, skew_longInput, hmid]
  norm_num [evenTuning]
  ring

theorem prices_fall_iff_longInput : fault? longInput = none ∧ (0 : ℝ) ≤ 50 ∧
    ∃ quote quote', compute evenTuning (longInput.holding 0) = .ok quote ∧
      compute evenTuning (longInput.holding 50) = .ok quote' ∧
      quote'.reservationPrice ≤ quote.reservationPrice ∧ quote'.bidPrice ≤ quote.bidPrice ∧
      quote'.askPrice ≤ quote.askPrice := by
  have hlog : Real.log 2 ≤ 1 := by
    have h := Real.log_le_sub_one_of_pos (two_pos : (0 : ℝ) < 2)
    linarith
  have hnonneg : 0 ≤ Real.log 2 := Real.log_nonneg one_le_two
  obtain ⟨hbid, hask⟩ := plain_longInput 50
  obtain ⟨quote, quote', hquote, hquote', hreservation, hbids, hasks⟩ :=
    prices_fall_iff (c := evenTuning) fault?_longInput (show (0 : ℝ) ≤ 50 by norm_num)
  refine ⟨fault?_longInput, by norm_num, quote, quote', hquote, hquote', hreservation,
    hbids.mpr (Or.inl ?_), hasks.mpr (Or.inl ?_)⟩
  · rw [hbid]
    linarith
  · rw [hask]
    linarith

/-- From no position to one of a hundred the bid goes up: it was replaced by one just below the mid
price. From there to one of two hundred the ask follows it. -/
theorem prices_rise_longInput :
    ∃ flat long longer, compute evenTuning (longInput.holding 0) = .ok flat ∧
    compute evenTuning (longInput.holding 100) = .ok long ∧
    compute evenTuning (longInput.holding 200) = .ok longer ∧
    flat.bidPrice < long.bidPrice ∧ long.askPrice < longer.askPrice := by
  have hlog : Real.log 2 ≤ 1 := by
    have h := Real.log_le_sub_one_of_pos (two_pos : (0 : ℝ) < 2)
    linarith
  have hnonneg : 0 ≤ Real.log 2 := Real.log_nonneg one_le_two
  have hfault (q : ℝ) : fault? (longInput.holding q) = none :=
    fault?_eq_none_iff.mpr (valid_longInput.holding q)
  refine ⟨_, _, _, compute_eq_ok (hfault 0), compute_eq_ok (hfault 100),
    compute_eq_ok (hfault 200), ?_, ?_⟩
  · rw [quoteOf_bidPrice, quoteOf_bidPrice, (plain_longInput 0).1, (plain_longInput 100).1,
      if_neg (by linarith), if_pos (by linarith)]
    norm_num [Input.holding, longInput]
    linarith
  · rw [quoteOf_askPrice, quoteOf_askPrice, (plain_longInput 100).2, (plain_longInput 200).2,
      if_neg (by linarith), if_pos (by linarith)]
    norm_num [Input.holding, longInput]
    linarith

end MarketMaker.Pricing
