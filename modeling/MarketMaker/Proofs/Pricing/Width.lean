import MarketMaker.Proofs.Pricing.Formulas

/-!
# Width and order of a quote

A quote is **uncrossed** when the bid is at most the ask, and **wide enough** when it is at least
the floor wide. Before a price is looked at, both hold, because the plain prices lie the whole
spread apart. The replacement of a price that is not positive is decided for the bid and for the ask
by itself, after the floor was applied, so three cases remain:

* no price is replaced: the quote is the spread wide;
* only the bid is replaced: the ask stays wherever it was, however low;
* both are replaced: the quote is a fifth of a percent of the mid price wide, whatever the floor.

Only the ask is never replaced, since the plain bid lies below the plain ask. Prices are positive in
every case; order and width can fail in the last two.
-/

namespace MarketMaker.Pricing

variable {c : Config ℝ} {i : Input ℝ}

/-! ## The plain prices -/

theorem spread_pos (hi : i.Valid) : 0 < (quoteOf c i).optimalSpread := by
  rw [quoteOf_optimalSpread]
  exact lt_max_of_lt_left hi.modelSpread_pos

theorem floor_le_spread : c.minSpread * i.market.midPrice ≤ (quoteOf c i).optimalSpread := by
  rw [quoteOf_optimalSpread, mul_comm]
  exact le_max_right _ _

/-- A plain bid is always below the plain ask. -/
theorem plainBid_lt_plainAsk (hshape : 0 < c.shapeFactor) (hi : i.Valid) :
    plainBid c i < plainAsk c i := by
  have hwidth := plainAsk_sub_plainBid hshape i
  have hspread := spread_pos (c := c) hi
  linarith

/-- Without a position and without volatility, an even split lies around the mid price. -/
theorem plain_flat (hshape : c.shapeFactor = 1) (hgamma : i.gamma = 1) (hkappa : i.market.kappa = 1)
    (hinventory : i.market.inventory = 0) (hvolatility : i.volatility = 0) :
    let spread := max (2 * Real.log 2) (i.market.midPrice * c.minSpread)
    plainBid c i = i.market.midPrice - spread / 2 ∧
    plainAsk c i = i.market.midPrice + spread / 2 := by
  intro spread
  have hreservation : (quoteOf c i).reservationPrice = i.market.midPrice := by
    rw [quoteOf_reservationPrice, reservationPrice, hinventory]
    ring
  have hspread : (quoteOf c i).optimalSpread = spread := by
    rw [quoteOf_optimalSpread, Input.modelSpread, optimalSpread_eq, hgamma, hkappa, hvolatility]
    norm_num [spread]
  rw [plainBid, plainAsk, hreservation, hspread, hshape]
  constructor <;> ring

/-! ## The three cases -/

/-- Both prices are kept: the quote is the spread wide. -/
theorem width_of_plainBid_pos (hshape : 0 < c.shapeFactor) (hi : i.Valid)
    (hbid : 0 < plainBid c i) :
    (quoteOf c i).askPrice - (quoteOf c i).bidPrice = (quoteOf c i).optimalSpread := by
  have hask : 0 < plainAsk c i := hbid.trans (plainBid_lt_plainAsk hshape hi)
  rw [quoteOf_bidPrice, quoteOf_askPrice, if_neg hbid.not_ge, if_neg hask.not_ge]
  exact plainAsk_sub_plainBid hshape i

/-- Only the bid is replaced: the ask stays where it was. -/
theorem width_of_plainAsk_pos (hbid : plainBid c i ≤ 0) (hask : 0 < plainAsk c i) :
    (quoteOf c i).askPrice - (quoteOf c i).bidPrice =
      plainAsk c i - i.market.midPrice * (999 / 1000) := by
  rw [quoteOf_bidPrice, quoteOf_askPrice, if_pos hbid, if_neg hask.not_ge]

/-- Both prices are replaced: the floor plays no part. -/
theorem width_of_plainAsk_nonpos (hshape : 0 < c.shapeFactor) (hi : i.Valid)
    (hask : plainAsk c i ≤ 0) :
    (quoteOf c i).askPrice - (quoteOf c i).bidPrice = i.market.midPrice * (2 / 1000) := by
  have hbid : plainBid c i ≤ 0 := (plainBid_lt_plainAsk hshape hi).le.trans hask
  rw [quoteOf_bidPrice, quoteOf_askPrice, if_pos hbid, if_pos hask]
  ring

/-! ## The sides of a quote -/

/-- The spreads of both sides together are the distance between the prices, as a fraction of the mid
price. -/
theorem bidSpread_add_askSpread (c : Config ℝ) (i : Input ℝ) :
    (quoteOf c i).bidSpread + (quoteOf c i).askSpread =
      ((quoteOf c i).askPrice - (quoteOf c i).bidPrice) / i.market.midPrice := by
  have hsides : (quoteOf c i).bidSpread + (quoteOf c i).askSpread =
      (i.market.midPrice - (quoteOf c i).bidPrice) / i.market.midPrice +
        ((quoteOf c i).askPrice - i.market.midPrice) / i.market.midPrice := rfl
  rw [hsides]
  ring

/-- **When both sides make up the spread.** They do when both prices are kept. Where both are
replaced, the spread would have to be a fifth of a percent to begin with. -/
theorem spread_eq_sides_iff (hshape : 0 < c.shapeFactor) (hi : i.Valid) :
    (quoteOf c i).optimalSpread / i.market.midPrice = (quoteOf c i).bidSpread +
      (quoteOf c i).askSpread ↔
      0 < plainBid c i ∨
        (plainAsk c i ≤ 0 ∧ (quoteOf c i).optimalSpread = i.market.midPrice * (2 / 1000)) := by
  have hmid := hi.midPrice_pos
  rw [bidSpread_add_askSpread, div_left_inj' hmid.ne']
  rcases lt_or_ge 0 (plainBid c i) with hbid | hbid
  · rw [width_of_plainBid_pos hshape hi hbid]
    exact iff_of_true rfl (Or.inl hbid)
  rcases lt_or_ge 0 (plainAsk c i) with hask | hask
  · -- The bid was moved away from where it had the whole spread between itself and the ask.
    have hspread := plainAsk_sub_plainBid hshape i
    rw [width_of_plainAsk_pos hbid hask]
    refine iff_of_false (fun h => ?_) ?_
    · linarith
    · rintro (h | ⟨h, -⟩)
      · exact absurd h hbid.not_gt
      · exact absurd hask h.not_gt
  · rw [width_of_plainAsk_nonpos hshape hi hask]
    constructor
    · exact fun h => Or.inr ⟨hask, h⟩
    · rintro (h | ⟨-, h⟩)
      · exact absurd h hbid.not_gt
      · exact h

/-! ## Positive prices -/

theorem bidPrice_pos (hi : i.Valid) : 0 < (quoteOf c i).bidPrice := by
  have hmid := hi.midPrice_pos
  rw [quoteOf_bidPrice]
  split_ifs with hbid
  · positivity
  · exact not_le.mp hbid

theorem askPrice_pos (hi : i.Valid) : 0 < (quoteOf c i).askPrice := by
  have hmid := hi.midPrice_pos
  rw [quoteOf_askPrice]
  split_ifs with hask
  · positivity
  · exact not_le.mp hask

/-! ## Exactly when a quote is uncrossed and wide enough -/

/-- A quote is uncrossed unless only the bid was replaced, by one above the ask that was kept. -/
theorem bidPrice_le_askPrice_iff (hshape : 0 < c.shapeFactor) (hi : i.Valid) :
    (quoteOf c i).bidPrice ≤ (quoteOf c i).askPrice ↔
      0 < plainBid c i ∨ plainAsk c i ≤ 0 ∨ i.market.midPrice * (999 / 1000) ≤ plainAsk c i := by
  have hmid := hi.midPrice_pos
  have hspread := spread_pos (c := c) hi
  rw [← sub_nonneg]
  rcases lt_or_ge 0 (plainBid c i) with hbid | hbid
  · rw [width_of_plainBid_pos hshape hi hbid]
    exact iff_of_true hspread.le (Or.inl hbid)
  -- The bid is replaced from here on. Only the ask can still follow it or not.
  rcases lt_or_ge 0 (plainAsk c i) with hask | hask
  · rw [width_of_plainAsk_pos hbid hask, sub_nonneg]
    refine ⟨fun h => Or.inr (Or.inr h), ?_⟩
    rintro (h | h | h)
    · exact absurd h hbid.not_gt
    · exact absurd h hask.not_ge
    · exact h
  · rw [width_of_plainAsk_nonpos hshape hi hask]
    exact iff_of_true (by positivity) (Or.inr (Or.inl hask))

/-- A quote is wide enough when the bid was kept, or when the replaced bid is the floor below an ask
that was kept, or when both were replaced and the floor is a fifth of a percent at most. -/
theorem floor_le_width_iff (hshape : 0 < c.shapeFactor) (hi : i.Valid) :
    c.minSpread * i.market.midPrice ≤ (quoteOf c i).askPrice - (quoteOf c i).bidPrice ↔
      0 < plainBid c i ∨
      (0 < plainAsk c i ∧ (999 / 1000 + c.minSpread) * i.market.midPrice ≤ plainAsk c i) ∨
      (plainAsk c i ≤ 0 ∧ c.minSpread ≤ 2 / 1000) := by
  have hmid := hi.midPrice_pos
  rcases lt_or_ge 0 (plainBid c i) with hbid | hbid
  · rw [width_of_plainBid_pos hshape hi hbid]
    exact iff_of_true floor_le_spread (Or.inl hbid)
  rcases lt_or_ge 0 (plainAsk c i) with hask | hask
  · rw [width_of_plainAsk_pos hbid hask]
    constructor
    · intro h
      exact Or.inr (Or.inl ⟨hask, by linarith⟩)
    · rintro (h | ⟨-, h⟩ | ⟨h, -⟩)
      · exact absurd h hbid.not_gt
      · linarith
      · exact absurd h hask.not_ge
  · -- Both replaced: the width is in proportion to the mid price, which cancels.
    rw [width_of_plainAsk_nonpos hshape hi hask, mul_comm i.market.midPrice,
      mul_le_mul_iff_left₀ hmid]
    constructor
    · intro h
      exact Or.inr (Or.inr ⟨hask, h⟩)
    · rintro (h | ⟨h, -⟩ | ⟨-, h⟩)
      · exact absurd h hbid.not_gt
      · exact absurd h hask.not_gt
      · exact h

/-- **Order and width of a quote.** For every tuning and input that pass the checks there is a
quote, and its prices are positive. It is uncrossed, and it is wide enough, exactly under the
conditions given here on the plain prices. The second condition implies the first. -/
theorem quote_uncrossed_and_wide_iff (hc : c.accept = .ok c) (hi : fault? i = none) :
    ∃ q, compute c i = .ok q ∧ 0 < q.bidPrice ∧ 0 < q.askPrice ∧
      (q.bidPrice ≤ q.askPrice ↔
        0 < plainBid c i ∨ plainAsk c i ≤ 0 ∨ i.market.midPrice * (999 / 1000) ≤ plainAsk c i) ∧
      (q.bidPrice ≤ q.askPrice ∧ c.minSpread * i.market.midPrice ≤ q.askPrice - q.bidPrice ↔
        0 < plainBid c i ∨
        (0 < plainAsk c i ∧ (999 / 1000 + c.minSpread) * i.market.midPrice ≤ plainAsk c i) ∨
        (plainAsk c i ≤ 0 ∧ c.minSpread ≤ 2 / 1000)) := by
  obtain ⟨hfloor, hshape⟩ := Config.accept_eq_ok_iff.mp hc
  have hvalid := fault?_eq_none_iff.mp hi
  refine ⟨quoteOf c i, compute_eq_ok hi, bidPrice_pos hvalid, askPrice_pos hvalid,
    bidPrice_le_askPrice_iff hshape hvalid, ?_⟩
  rw [← floor_le_width_iff hshape hvalid]
  have hmargin : 0 ≤ c.minSpread * i.market.midPrice := mul_nonneg hfloor hvalid.midPrice_pos.le
  constructor
  · exact fun h => h.2
  · intro hwide
    exact ⟨sub_nonneg.mp (hmargin.trans hwide), hwide⟩

/-! ## A long position -/

/-- A tuning with a floor of half a basis point and an even split. -/
noncomputable def evenTuning : Config ℝ := ⟨1 / 20000, 1⟩

/-- A position of a hundred at a mid price of a hundred, with a volatility of one over one day: the
reservation price is zero. -/
noncomputable def longInput : Input ℝ where
  market := { midPrice := 100, inventory := 100, alpha := 1, kappa := 1, timestamp := 0 }
  gamma := 1
  volatility := 1
  horizonSeconds := 86400

theorem evenTuning_accept : evenTuning.accept = .ok evenTuning :=
  Config.accept_eq_ok_iff.mpr ⟨by norm_num [evenTuning], by norm_num [evenTuning]⟩

theorem valid_longInput : longInput.Valid := by
  constructor <;> norm_num [longInput]

theorem fault?_longInput : fault? longInput = none := fault?_eq_none_iff.mpr valid_longInput

theorem quote_uncrossed_and_wide_iff_longInput :
    evenTuning.accept = .ok evenTuning ∧ fault? longInput = none ∧
      ∃ q, compute evenTuning longInput = .ok q ∧ 0 < q.bidPrice ∧ 0 < q.askPrice ∧
        (q.bidPrice ≤ q.askPrice ↔
          0 < plainBid evenTuning longInput ∨ plainAsk evenTuning longInput ≤ 0 ∨
            100 * (999 / 1000) ≤ plainAsk evenTuning longInput) ∧
        (q.bidPrice ≤ q.askPrice ∧ 1 / 20000 * 100 ≤ q.askPrice - q.bidPrice ↔
          0 < plainBid evenTuning longInput ∨
          (0 < plainAsk evenTuning longInput ∧
            (999 / 1000 + 1 / 20000) * 100 ≤ plainAsk evenTuning longInput) ∨
          (plainAsk evenTuning longInput ≤ 0 ∧ (1 / 20000 : ℝ) ≤ 2 / 1000)) :=
  ⟨evenTuning_accept, fault?_longInput,
    quote_uncrossed_and_wide_iff evenTuning_accept fault?_longInput⟩

theorem horizonDays_longInput : longInput.horizonDays = 1 := by
  norm_num [Input.horizonDays, longInput, secondsPerDay]

theorem modelSpread_longInput : longInput.modelSpread = 1 + 2 * Real.log 2 := by
  rw [Input.modelSpread, horizonDays_longInput, optimalSpread_eq]
  norm_num [longInput]

/-- The model asks for more than the floor. -/
theorem optimalSpread_longInput :
    (quoteOf evenTuning longInput).optimalSpread = 1 + 2 * Real.log 2 := by
  have hlog : 0 ≤ Real.log 2 := Real.log_nonneg one_le_two
  rw [quoteOf_optimalSpread, modelSpread_longInput]
  apply max_eq_left
  norm_num [longInput, evenTuning]
  linarith

/-- The position moves the plain ask down to half the spread. -/
theorem plainAsk_longInput : plainAsk evenTuning longInput = (1 + 2 * Real.log 2) / 2 := by
  have hreservation : (quoteOf evenTuning longInput).reservationPrice = 0 := by
    rw [quoteOf_reservationPrice, horizonDays_longInput]
    norm_num [reservationPrice, longInput]
  rw [plainAsk, optimalSpread_longInput, hreservation]
  norm_num [evenTuning]
  ring

/-- The quote for a long position is crossed: its bid was replaced, and its ask is far below. -/
theorem askPrice_lt_bidPrice_longInput :
    ∃ q, compute evenTuning longInput = .ok q ∧ q.askPrice < q.bidPrice := by
  have hshape : 0 < evenTuning.shapeFactor := one_pos
  refine ⟨quoteOf evenTuning longInput, compute_eq_ok fault?_longInput, not_le.mp ?_⟩
  have hlower : 0 ≤ Real.log 2 := Real.log_nonneg one_le_two
  have hupper : Real.log 2 ≤ 1 := by
    have h := Real.log_le_sub_one_of_pos (two_pos : (0 : ℝ) < 2)
    linarith
  have hspread := plainAsk_sub_plainBid hshape longInput
  have hmodel : longInput.modelSpread ≤ (quoteOf evenTuning longInput).optimalSpread := by
    rw [quoteOf_optimalSpread]
    exact le_max_left _ _
  rw [modelSpread_longInput] at hmodel
  rw [bidPrice_le_askPrice_iff hshape valid_longInput, plainAsk_longInput]
  rw [plainAsk_longInput] at hspread
  rintro (hbid | hask | hask)
  · linarith
  · linarith
  · norm_num [longInput] at hask
    linarith

end MarketMaker.Pricing
