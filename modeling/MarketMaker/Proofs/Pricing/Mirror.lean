import MarketMaker.Proofs.Pricing.Inventory

/-!
# Quotes in the mirror

The **mirror image** of a quote is the quote for the opposite position whose bid has the share of
the spread that the ask had, and whose ask has that of the bid. The mirror is the mid price.

* The spread and its floor are the same on both sides of the mirror.
* The reservation prices are equally far from the mid price, one below and one above. So are the
  plain bid of the one quote and the plain ask of the other.
* A price that is not positive is replaced by one close to the mid price, and its image lies beyond
  twice the mid price. So the sides of a quote are exchanged in the mirror exactly when both quotes
  are **kept** as they are.
-/

namespace MarketMaker.Pricing

variable {c : Config ℝ} {i : Input ℝ}

/-! ## Kept quotes -/

/-- Both prices are quoted as they are, because both are positive. -/
structure Kept (c : Config ℝ) (i : Input ℝ) : Prop where
  /-- The price of the bid is positive before any fallback. -/
  bid : 0 < plainBid c i
  /-- The price of the ask is positive before any fallback. -/
  ask : 0 < plainAsk c i

/-- If a price is replaced the bid is. -/
theorem kept_iff (hshape : 0 < c.shapeFactor) (hi : i.Valid) : Kept c i ↔ 0 < plainBid c i :=
  ⟨Kept.bid, fun hbid => ⟨hbid, hbid.trans (plainBid_lt_plainAsk hshape hi)⟩⟩

theorem Kept.bidPrice_eq (h : Kept c i) : (quoteOf c i).bidPrice = plainBid c i := by
  rw [quoteOf_bidPrice, if_neg h.bid.not_ge]

theorem Kept.askPrice_eq (h : Kept c i) : (quoteOf c i).askPrice = plainAsk c i := by
  rw [quoteOf_askPrice, if_neg h.ask.not_ge]

/-- The prices of a kept quote lie the shares of the spread away from the reservation price, and the
whole spread apart. -/
theorem Kept.distances (h : Kept c i) (hshape : 0 < c.shapeFactor) :
    let q := quoteOf c i
    q.reservationPrice - q.bidPrice = c.shapeFactor / (1 + c.shapeFactor) * q.optimalSpread ∧
      q.askPrice - q.reservationPrice = 1 / (1 + c.shapeFactor) * q.optimalSpread ∧
      q.askPrice - q.bidPrice = max i.modelSpread (c.minSpread * i.market.midPrice) := by
  intro q
  have hbid : q.bidPrice = plainBid c i := h.bidPrice_eq
  have hask : q.askPrice = plainAsk c i := h.askPrice_eq
  refine ⟨?_, ?_, ?_⟩
  · rw [hbid, plainBid]
    ring
  · rw [hask, plainAsk]
    ring
  · rw [hask, hbid, plainAsk_sub_plainBid hshape, quoteOf_optimalSpread, mul_comm i.market.midPrice]

/-! ## The mirror -/

/-- The tuning that exchanges the shares of the bid and the ask. -/
noncomputable def Config.mirrored (c : Config ℝ) : Config ℝ :=
  { c with shapeFactor := 1 / c.shapeFactor }

/-- The input with the opposite position. -/
def Input.mirrored (i : Input ℝ) : Input ℝ := i.holding (-i.market.inventory)

@[simp] theorem Config.mirrored_mirrored (c : Config ℝ) : c.mirrored.mirrored = c := by
  simp [Config.mirrored]

@[simp] theorem Input.mirrored_mirrored (i : Input ℝ) : i.mirrored.mirrored = i := by
  simp [Input.mirrored, Input.holding]

theorem Config.mirrored_shapeFactor_pos (hshape : 0 < c.shapeFactor) : 0 < c.mirrored.shapeFactor :=
  one_div_pos.mpr hshape

theorem Input.Valid.mirrored (h : i.Valid) : i.mirrored.Valid := h.holding _

/-- The bid has the share that the ask had, and the ask that of the bid. -/
theorem Config.mirrored_shares (hshape : 0 < c.shapeFactor) :
    c.mirrored.shapeFactor / (1 + c.mirrored.shapeFactor) = 1 / (1 + c.shapeFactor) ∧
      1 / (1 + c.mirrored.shapeFactor) = c.shapeFactor / (1 + c.shapeFactor) := by
  rw [Config.mirrored]
  constructor
  · field_simp
    ring
  · field_simp
    ring

theorem optimalSpread_mirrored (c : Config ℝ) (i : Input ℝ) :
    (quoteOf c.mirrored i.mirrored).optimalSpread = (quoteOf c i).optimalSpread := rfl

theorem floorClamp_mirrored (c : Config ℝ) (i : Input ℝ) :
    (quoteOf c.mirrored i.mirrored).floorClamp = (quoteOf c i).floorClamp := rfl

/-- The reservation prices lie on either side of the mid price. -/
theorem reservationPrice_mirrored (c : Config ℝ) (i : Input ℝ) :
    (quoteOf c.mirrored i.mirrored).reservationPrice =
      2 * i.market.midPrice - (quoteOf c i).reservationPrice := by
  have himage : (quoteOf c.mirrored i.mirrored).reservationPrice =
      i.market.midPrice - -i.market.inventory * i.skew := reservationPrice_holding _ i _
  have hquote : (quoteOf c i).reservationPrice = i.market.midPrice - i.market.inventory * i.skew :=
    reservationPrice_holding c i i.market.inventory
  rw [himage, hquote]
  ring

theorem plainBid_mirrored (hshape : 0 < c.shapeFactor) (i : Input ℝ) :
    plainBid c.mirrored i.mirrored = 2 * i.market.midPrice - plainAsk c i := by
  rw [plainBid, reservationPrice_mirrored, optimalSpread_mirrored,
    (Config.mirrored_shares hshape).1, plainAsk]
  ring

theorem plainAsk_mirrored (hshape : 0 < c.shapeFactor) (i : Input ℝ) :
    plainAsk c.mirrored i.mirrored = 2 * i.market.midPrice - plainBid c i := by
  rw [plainAsk, reservationPrice_mirrored, optimalSpread_mirrored,
    (Config.mirrored_shares hshape).2, plainBid]
  ring

/-! ## The sides of a quote -/

theorem quoteOf_bidSpread (c : Config ℝ) (i : Input ℝ) :
    (quoteOf c i).bidSpread = (i.market.midPrice - (quoteOf c i).bidPrice) / i.market.midPrice :=
  rfl

theorem quoteOf_askSpread (c : Config ℝ) (i : Input ℝ) :
    (quoteOf c i).askSpread = ((quoteOf c i).askPrice - i.market.midPrice) / i.market.midPrice :=
  rfl

/-- The sides of two kept quotes are exchanged. -/
theorem Kept.sides_mirrored (hshape : 0 < c.shapeFactor) (h : Kept c i)
    (himage : Kept c.mirrored i.mirrored) :
    (quoteOf c.mirrored i.mirrored).bidSpread = (quoteOf c i).askSpread ∧
      (quoteOf c.mirrored i.mirrored).askSpread = (quoteOf c i).bidSpread := by
  have hmid : i.mirrored.market.midPrice = i.market.midPrice := rfl
  constructor
  · rw [quoteOf_bidSpread, quoteOf_askSpread, himage.bidPrice_eq, h.askPrice_eq,
      plainBid_mirrored hshape, hmid]
    ring
  · rw [quoteOf_askSpread, quoteOf_bidSpread, himage.askPrice_eq, h.bidPrice_eq,
      plainAsk_mirrored hshape, hmid]
    ring

/-- A bid that was replaced lies a tenth of a percent below the mid price. The image of what it
would have been is an ask at twice the mid price or more. -/
theorem sides_of_plainBid_nonpos (hshape : 0 < c.shapeFactor) (hi : i.Valid)
    (hbid : plainBid c i ≤ 0) :
    (quoteOf c i).bidSpread = 1 / 1000 ∧ 1 ≤ (quoteOf c.mirrored i.mirrored).askSpread := by
  have hmid := hi.midPrice_pos
  have hmid' : i.mirrored.market.midPrice = i.market.midPrice := rfl
  have hask := plainAsk_mirrored hshape i
  have hkept : ¬ plainAsk c.mirrored i.mirrored ≤ 0 := by
    rw [hask]
    linarith
  constructor
  · rw [quoteOf_bidSpread, quoteOf_bidPrice, if_pos hbid]
    field_simp
    ring
  · rw [quoteOf_askSpread, quoteOf_askPrice, if_neg hkept, hask, hmid', le_div_iff₀ hmid]
    linarith

/-- Only quotes that are kept have their sides exchanged. -/
theorem kept_of_sides (hshape : 0 < c.shapeFactor) (hi : i.Valid)
    (hsides : (quoteOf c.mirrored i.mirrored).askSpread = (quoteOf c i).bidSpread) : Kept c i := by
  rw [kept_iff hshape hi]
  by_contra hbid
  obtain ⟨hreplaced, himage⟩ := sides_of_plainBid_nonpos hshape hi (not_lt.mp hbid)
  rw [hsides, hreplaced] at himage
  norm_num at himage

/-- **Quotes are mirrored.** Take any tuning and any input that pass the checks. The image of the
tuning passes them, too, and there are quotes on both sides of the mirror, with the same spread and
the same report of the floor. The spread below the mid price of the one is the spread above it of
the other, and the other way round, exactly when no price of either was replaced. The prices of a
quote of which none was replaced lie the shares of the spread away from the reservation price, and
as far apart as the model asks for, or the floor. -/
theorem quotes_mirrored_iff (hc : c.accept = .ok c) (hi : fault? i = none) :
    c.mirrored.accept = .ok c.mirrored ∧
      ∃ q q', compute c i = .ok q ∧ compute c.mirrored i.mirrored = .ok q' ∧
        q'.optimalSpread = q.optimalSpread ∧ q'.floorClamp = q.floorClamp ∧
        (q'.bidSpread = q.askSpread ∧ q'.askSpread = q.bidSpread ↔
          Kept c i ∧ Kept c.mirrored i.mirrored) ∧
        (Kept c i →
          q.reservationPrice - q.bidPrice = c.shapeFactor / (1 + c.shapeFactor) * q.optimalSpread ∧
            q.askPrice - q.reservationPrice = 1 / (1 + c.shapeFactor) * q.optimalSpread ∧
            q.askPrice - q.bidPrice = max i.modelSpread (c.minSpread * i.market.midPrice)) := by
  obtain ⟨hfloor, hshape⟩ := Config.accept_eq_ok_iff.mp hc
  have hvalid := fault?_eq_none_iff.mp hi
  have hshape' := Config.mirrored_shapeFactor_pos hshape
  have hi' : fault? i.mirrored = none := fault?_eq_none_iff.mpr hvalid.mirrored
  refine ⟨Config.accept_eq_ok_iff.mpr ⟨hfloor, hshape'⟩, quoteOf c i, quoteOf c.mirrored i.mirrored,
    compute_eq_ok hi, compute_eq_ok hi', optimalSpread_mirrored c i,
    floorClamp_mirrored c i, ⟨?_, ?_⟩, fun hkept => hkept.distances hshape⟩
  · rintro ⟨hbid, hask⟩
    refine ⟨kept_of_sides hshape hvalid hask, kept_of_sides hshape' hvalid.mirrored ?_⟩
    -- The image of the image is the quote itself.
    rw [Config.mirrored_mirrored, Input.mirrored_mirrored]
    exact hbid.symm
  · exact fun ⟨hkept, himage⟩ => hkept.sides_mirrored hshape himage

/-- A tuning that gives the bid three quarters of the spread. -/
noncomputable def steepTuning : Config ℝ := ⟨1 / 20000, 3⟩

/-- A position of ten moves the reservation price to ninety. -/
theorem plainBid_steepTuning :
    plainBid steepTuning (longInput.holding 10) = 90 - (1 + 2 * Real.log 2) * (3 / 4) := by
  have hspread : (quoteOf steepTuning (longInput.holding 10)).optimalSpread = 1 + 2 * Real.log 2 :=
    optimalSpread_longInput
  rw [plainBid, reservationPrice_holding, skew_longInput, hspread]
  norm_num [steepTuning, longInput]

/-- The quotes for positions of ten and of minus ten, around ninety and a hundred and ten: no price
is replaced. -/
theorem quotes_mirrored_iff_steepTuning :
    steepTuning.accept = .ok steepTuning ∧ fault? (longInput.holding 10) = none ∧
      Kept steepTuning (longInput.holding 10) ∧ Kept ⟨1 / 20000, 1 / 3⟩ (longInput.holding (-10)) ∧
      ∃ q q', compute steepTuning (longInput.holding 10) = .ok q ∧
        compute ⟨1 / 20000, 1 / 3⟩ (longInput.holding (-10)) = .ok q' ∧
        q'.bidSpread = q.askSpread ∧ q'.askSpread = q.bidSpread ∧
        q.reservationPrice - q.bidPrice = 3 / (1 + 3) * q.optimalSpread ∧
        q.askPrice - q.reservationPrice = 1 / (1 + 3) * q.optimalSpread := by
  have hlog : Real.log 2 ≤ 1 := by
    have h := Real.log_le_sub_one_of_pos (two_pos : (0 : ℝ) < 2)
    linarith
  have hc : steepTuning.accept = .ok steepTuning :=
    Config.accept_eq_ok_iff.mpr ⟨by norm_num [steepTuning], by norm_num [steepTuning]⟩
  have hvalid : (longInput.holding 10).Valid := valid_longInput.holding 10
  have hi := fault?_eq_none_iff.mpr hvalid
  have hshape : 0 < steepTuning.shapeFactor := three_pos
  have hbid := plainBid_steepTuning
  have hkept : Kept steepTuning (longInput.holding 10) := by
    rw [kept_iff hshape hvalid, hbid]
    linarith
  have himage : Kept steepTuning.mirrored (longInput.holding 10).mirrored := by
    have hwidth := plainAsk_sub_plainBid hshape (longInput.holding 10)
    have hspread : (quoteOf steepTuning (longInput.holding 10)).optimalSpread =
        1 + 2 * Real.log 2 :=
      optimalSpread_longInput
    have hmid : (longInput.holding 10).market.midPrice = 100 := rfl
    rw [kept_iff (Config.mirrored_shapeFactor_pos hshape) hvalid.mirrored,
      plainBid_mirrored hshape, hmid]
    linarith
  obtain ⟨-, q, q', hq, hq', -, -, hsides, hdistances⟩ := quotes_mirrored_iff hc hi
  obtain ⟨hexchanged, hexchanged'⟩ := hsides.mpr ⟨hkept, himage⟩
  obtain ⟨hbelow, habove, -⟩ := hdistances hkept
  exact ⟨hc, hi, hkept, himage, q, q', hq, hq', hexchanged, hexchanged', hbelow, habove⟩

end MarketMaker.Pricing
