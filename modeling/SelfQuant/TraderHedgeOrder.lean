import Mathlib.Data.Int.Log
import SelfQuant.TraderSizing

namespace SelfQuant.Trader

open Int

def hedgeNotionalEligible (quantity price : Decimal) (instrument : Instrument) (skipMinNotional : Bool) :
    Except PrepareError Bool :=
  let minimum := parsePositiveDecimal instrument.minNotional
  if skipMinNotional then .ok true
  else
    match instrument.minNotionalStatus with
    | .known =>
      if minimum ≤ 0 ∨ price ≤ 0 then .error .instrumentUnavailable
      else if quantity * price < minimum then .ok false
      else .ok true
    | .notApplicable => .ok true
    | .unknown => .error .instrumentUnavailable

variable (div : Decimal → Decimal → Decimal)

def executableHedgeQuantity (target price : Decimal)
    (instrument : Instrument) (skipMinNotional : Bool) : Except PrepareError (Decimal × Bool) :=
  let quantity := floorToStep div target (parsePositiveDecimal instrument.quantityStep)
  let minimum := parsePositiveDecimal instrument.minQuantity
  let notional := (hedgeNotionalEligible quantity price instrument skipMinNotional).map (quantity, ·)
  if quantity ≤ 0 then .ok (0, false)
  else
    match instrument.minQuantityStatus with
    | .known =>
      if minimum ≤ 0 then .error .instrumentUnavailable
      else if quantity < minimum then .ok (quantity, false)
      else notional
    | .notApplicable => notional
    | .unknown => .error .instrumentUnavailable

def protectedIOCPrice (bbo : BBO) (side : OrderSide) (tick : Decimal) (protectionBps : ℤ) : Decimal :=
  let offset := div protectionBps 10000
  match side with
  | .buy => ceilToStep div (parsePositiveDecimal bbo.askPrice * (1 + offset)) tick
  | .sell => floorToStep div (parsePositiveDecimal bbo.bidPrice * (1 - offset)) tick

inductive HedgePriceError
  | invalidPrice
  | instrumentUnavailable
  | roundsToZero
  deriving DecidableEq

/-- The number of places of the venue's sizes, if the step is a power of ten. -/
def szDecimals (step : Decimal) : Option ℕ := (List.range 7).find? fun candidate => step = 1 / 10 ^ candidate

/-- The places that Hyperliquid takes for a price: five digits in all, and fewer for finer sizes. -/
def hyperliquidPlaces (value : Decimal) (sizePlaces : ℕ) : ℕ := min (4 - log 10 value).toNat (6 - sizePlaces)

variable (instrument : Instrument)

def normalizeHedgeIOCPrice (side : OrderSide) (price : Decimal) : Except HedgePriceError Decimal :=
  if instrument.exchange ≠ .hyperliquid then .ok price
  else if price ≤ 0 then .error .invalidPrice
  else
    match szDecimals (parsePositiveDecimal instrument.quantityStep) with
    | none => .error .instrumentUnavailable
    | some sizePlaces =>
      let increment := 1 / 10 ^ hyperliquidPlaces price sizePlaces
      let value :=
        match side with
        | .buy => ceilToStep div price increment
        | .sell => floorToStep div price increment
      if value ≤ 0 then .error .roundsToZero else .ok value

def hedgeIOCPrice (bbo : BBO) (side : OrderSide) (protectionBps : ℤ) : Except HedgePriceError Decimal :=
  normalizeHedgeIOCPrice div instrument side
    (protectedIOCPrice div bbo side (parsePositiveDecimal instrument.priceTick) protectionBps)

/-- The order that `hedgeIOCTimed` prepares for what is left of its target. -/
def prepareHedgeIOC (bbo : BBO)
    (side : OrderSide) (protectionBps : ℤ) (execution : CloseClip) (remaining : Decimal) :
    Except (HedgePriceError ⊕ PrepareError) (Decimal × Option Decimal) :=
  match hedgeIOCPrice div instrument bbo side protectionBps with
  | .error e => .error (.inl e)
  | .ok price =>
    match prepareArbitrageOrder instrument .limit
      (some (floorToStep div remaining (parsePositiveDecimal instrument.quantityStep))) (some price) (some price)
      execution with
    | .error e => .error (.inr e)
    | .ok prepared => .ok prepared

def allowBelowMinNotionalCombo (combination : ArbitrageCombination) (execution : CloseClip)
    (instrument : Instrument) : Bool :=
  allowBelowMinNotional execution instrument ∧ arbitrageFlattening combination

section Eligible

variable {div : Decimal → Decimal → Decimal} {inst : Instrument} {target price quantity : Decimal} {skip : Bool}

theorem validateNotionalRule_of_eligible (h : hedgeNotionalEligible quantity price inst false = .ok true) :
    validateNotionalRule quantity (some price) inst.minNotional inst.minNotionalStatus = .ok () := by
  unfold hedgeNotionalEligible at h
  rw [validateNotionalRule_ok]
  cases hstt : inst.minNotionalStatus with
  | known =>
    simp only [hstt, Bool.false_eq_true, if_false] at h
    split_ifs at h with hze hls
    · cases h
    rw [not_or, not_le, not_le] at hze
    have hpx : parsePositiveDecimal (some price) = price := if_pos hze.2
    rw [hpx]
    exact .inr ⟨rfl, hze.1, hze.2, not_lt.mp hls⟩
  | notApplicable => exact .inl rfl
  | unknown => simp only [hstt, Bool.false_eq_true, if_false, reduceCtorEq] at h

theorem executableHedgeQuantity_eligible
    (h : executableHedgeQuantity div target price inst skip = .ok (quantity, true)) :
    quantity = floorToStep div target (parsePositiveDecimal inst.quantityStep) ∧ 0 < quantity ∧
      validateMinimumRule quantity inst.minQuantity inst.minQuantityStatus = .ok () ∧
      hedgeNotionalEligible quantity price inst skip = .ok true := by
  have hntl : ∀ {x : Decimal}, (hedgeNotionalEligible x price inst skip).map (x, ·) =
      .ok (quantity, true) → quantity = x ∧ hedgeNotionalEligible x price inst skip = .ok true := by
    intro x hx
    cases helig : hedgeNotionalEligible x price inst skip with
    | error e =>
      rw [helig] at hx
      cases hx
    | ok eligible =>
      rw [helig] at hx
      cases hx
      exact ⟨rfl, rfl⟩
  unfold executableHedgeQuantity at h
  by_cases hze : floorToStep div target (parsePositiveDecimal inst.quantityStep) ≤ 0
  · rw [if_pos hze] at h
    cases h
  rw [if_neg hze] at h
  rw [validateMinimumRule_ok]
  cases hstt : inst.minQuantityStatus with
  | known =>
    simp only [hstt] at h
    split_ifs at h with hmin hls
    · cases h
    · obtain ⟨rfl, helig⟩ := hntl h
      exact ⟨rfl, not_le.mp hze, .inr ⟨rfl, not_le.mp hmin, not_lt.mp hls⟩, helig⟩
  | notApplicable =>
    simp only [hstt] at h
    obtain ⟨rfl, helig⟩ := hntl h
    exact ⟨rfl, not_le.mp hze, .inl rfl, helig⟩
  | unknown => simp only [hstt, reduceCtorEq] at h

end Eligible

section Placeable

variable {inst : Instrument} {bbo : BBO} {side : OrderSide} {bps : ℤ} {exec : CloseClip}
   {quantity : Decimal} {div : Decimal → Decimal → Decimal}

/-- What the eligibility of a quantity leaves open. -/
structure HedgePlaceable (div : Decimal → Decimal → Decimal) (instrument : Instrument) (bbo : BBO)
    (side : OrderSide) (protectionBps : ℤ) (execution : CloseClip) (quantity : Decimal) : Prop where
  step : 0 < parsePositiveDecimal instrument.quantityStep
  maximum : instrument.maxQuantityStatus = .known → 0 < parsePositiveDecimal instrument.maxQuantity ∧
    quantity ≤ parsePositiveDecimal instrument.maxQuantity
  priced : ∃ px, hedgeIOCPrice div instrument bbo side protectionBps = .ok px ∧ 0 < px ∧
    OnGrid (parsePositiveDecimal instrument.priceTick) px ∧
    (allowBelowMinNotional execution instrument = false → instrument.minNotionalStatus = .known →
      parsePositiveDecimal instrument.minNotional ≤ quantity * px)

theorem prepareHedgeIOC_ok :
    (∃ prepared, prepareHedgeIOC div inst bbo side bps exec quantity = .ok prepared) ↔
      ∃ px prepared, hedgeIOCPrice div inst bbo side bps = .ok px ∧
        prepareArbitrageOrder inst .limit
          (some (floorToStep div quantity (parsePositiveDecimal inst.quantityStep))) (some px) (some px)
          exec = .ok prepared := by
  unfold prepareHedgeIOC
  constructor
  · rintro ⟨prepared, h⟩
    split at h
    next => cases h
    next px hpx =>
    split at h
    next => cases h
    next prepared hpp => exact ⟨px, prepared, hpx, hpp⟩
  · rintro ⟨px, prepared, hpx, hpp⟩
    exact ⟨prepared, by simp only [hpx, hpp]⟩

/-- A hedge that is judged eligible at the price of the book is accepted as the first IOC order exactly when
its quantity is within the maximum and the protected price is a positive price on the tick at which the
notional is still enough. -/
theorem eligible_hedge_placeable_iff (instrument : Instrument) (combination : ArbitrageCombination)
    (execution : CloseClip) (bbo : BBO) (side : OrderSide) (protectionBps : ℤ) (target quantity : Decimal)
    (htick : 0 < parsePositiveDecimal instrument.priceTick) (hmax : instrument.maxQuantityStatus ≠ .unknown)
    (heligible : executableHedgeQuantity Decimal.div target (parsePositiveDecimal (bboPriceForSide bbo side))
      instrument (allowBelowMinNotionalCombo combination execution instrument) = .ok (quantity, true)) :
    (∃ prepared, prepareHedgeIOC Decimal.div instrument bbo side protectionBps execution quantity = .ok prepared) ↔
      HedgePlaceable Decimal.div instrument bbo side protectionBps execution quantity := by
  obtain ⟨hquantity, hpos, hmin, hnotional⟩ := executableHedgeQuantity_eligible heligible
  have hrule : allowBelowMinNotional execution instrument = false →
      instrument.minNotionalStatus = .notApplicable ∨
        instrument.minNotionalStatus = .known ∧ 0 < parsePositiveDecimal instrument.minNotional := by
    intro hallow
    have hcombo : allowBelowMinNotionalCombo combination execution instrument = false := by
      simp [allowBelowMinNotionalCombo, hallow]
    rw [hcombo] at hnotional
    rcases validateNotionalRule_ok.mp (validateNotionalRule_of_eligible hnotional) with hnone | ⟨hknown, hvalue, -⟩
    · exact .inl hnone
    · exact .inr ⟨hknown, hvalue⟩
  -- rounding once more changes nothing
  have hagain : 0 < parsePositiveDecimal instrument.quantityStep →
      OnGrid (parsePositiveDecimal instrument.quantityStep) quantity ∧
        floorToStep Decimal.div quantity (parsePositiveDecimal instrument.quantityStep) = quantity := by
    intro hstep
    have hgrid : OnGrid (parsePositiveDecimal instrument.quantityStep) quantity :=
      hquantity ▸ onGrid_floorToStep hstep
    exact ⟨hgrid, floorToStep_div_of_onGrid hstep hgrid⟩
  rw [prepareHedgeIOC_ok]
  constructor
  · rintro ⟨px, prepared, hpx, hprep⟩
    obtain ⟨hstepped, -, hmaximum, hprice, hmeas⟩ := prepareOrderMode_limit_ok.mp ⟨prepared, hprep⟩
    rw [(hagain hstepped.2.1).2] at hmaximum hmeas
    refine ⟨hstepped.2.1, fun hknown => ?_, px, hpx, hprice.1, hprice.2.2, fun hallow hknown => ?_⟩
    · rcases validateMaximumRule_ok.mp hmaximum with hnone | ⟨-, hbound⟩
      · rw [hknown] at hnone
        cases hnone
      · exact hbound
    · rcases validateNotionalRule_ok.mp (hmeas hallow) with hnone | ⟨-, -, -, hbound⟩
      · rw [hknown] at hnone
        cases hnone
      · have hvalue : parsePositiveDecimal (some px) = px := if_pos hprice.1
        rwa [hvalue] at hbound
  · rintro ⟨hstep, hmaximum, px, hpx, hpositive, hgrid, hbound⟩
    have hvalue : parsePositiveDecimal (some px) = px := if_pos hpositive
    rw [(hagain hstep).2]
    suffices hprep : ∃ prepared, prepareArbitrageOrder instrument .limit (some quantity) (some px) (some px)
        execution = .ok prepared from ⟨px, hprep.choose, hpx, hprep.choose_spec⟩
    refine prepareOrderMode_limit_ok.mpr ⟨⟨hpos, hstep, (hagain hstep).1⟩, hmin, ?_, ⟨hpositive, htick, hgrid⟩, ?_⟩
    · rw [validateMaximumRule_ok]
      cases hstat : instrument.maxQuantityStatus with
      | known => exact .inr ⟨rfl, hmaximum hstat⟩
      | notApplicable => exact .inl rfl
      | unknown => exact absurd hstat hmax
    · intro hallow
      rw [validateNotionalRule_ok, hvalue]
      rcases hrule hallow with hnone | ⟨hknown, hmin⟩
      · exact .inl hnone
      · exact .inr ⟨hknown, hmin, hpositive, hbound hallow hknown⟩

def hedgeInstrument : Instrument where
  priceTick := some (1 / 10)
  quantityStep := some 1
  maxQuantity := some 5
  maxQuantityStatus := .known
  minNotional := some 100
  minNotionalStatus := .known

def hedgeBook : BBO := { bidPrice := some 100, askPrice := some 101 }

def openClip : CloseClip := { positionEffect := .open, reduceOnly := false, lastCloseClip := false }

def monitored : ArbitrageCombination :=
  { status := .running, askThresholdBps := some 10, bidThresholdBps := some 0, targetNotional := some 1000 }

/-- Selling one is enough at the bid, but not at the protected price; and nothing keeps six within the
maximum. -/
theorem eligible_hedge_refused :
    executableHedgeQuantity Decimal.div 1 (parsePositiveDecimal (bboPriceForSide hedgeBook .sell)) hedgeInstrument
      (allowBelowMinNotionalCombo monitored openClip hedgeInstrument) = .ok (1, true) ∧
    prepareHedgeIOC Decimal.div hedgeInstrument hedgeBook .sell 10 openClip 1 =
      .error (.inr (.notionalBelowMinimum (999 / 10) 100)) ∧
    executableHedgeQuantity Decimal.div 6 (parsePositiveDecimal (bboPriceForSide hedgeBook .buy)) hedgeInstrument
      (allowBelowMinNotionalCombo monitored openClip hedgeInstrument) = .ok (6, true) ∧
    prepareHedgeIOC Decimal.div hedgeInstrument hedgeBook .buy 10 openClip 6 = .error (.inr (.aboveMaximum 6 5)) := by
  refine ⟨?_, ?_, ?_, ?_⟩ <;> decide +kernel

theorem eligible_hedge_placeable_two : HedgePlaceable Decimal.div hedgeInstrument hedgeBook .sell 10 openClip 2 :=
  (eligible_hedge_placeable_iff hedgeInstrument monitored openClip hedgeBook .sell 10 (5 / 2) 2 (by decide +kernel)
    (by decide) (by decide +kernel)).mp ⟨(2, some (999 / 10)), by decide +kernel⟩

end Placeable

/-- What the venue takes as a price: few enough places, and whole or of at most five digits. -/
structure HyperliquidPrice (sizePlaces : ℕ) (value : Decimal) : Prop where
  nonneg : 0 ≤ value
  places : OnGrid (1 / 10 ^ (6 - sizePlaces)) value
  digits : (∃ n : ℤ, value = n) ∨ ∃ k e : ℤ, |k| < 10 ^ 5 ∧ value = k * 10 ^ e

section Hyperliquid

variable {price value : Decimal} {places sz : ℕ} {k : ℤ}

theorem onGrid_decimal {e : ℤ} (h : -places ≤ e) : OnGrid (1 / 10 ^ places) ((k : Decimal) * 10 ^ e) := by
  have hsum : (10 : Decimal) ^ (e + places).toNat = 10 ^ e * 10 ^ places := by
    rw [← zpow_natCast, toNat_of_nonneg (by omega), zpow_add₀ (by norm_num), zpow_natCast]
  refine ⟨k * 10 ^ (e + places).toNat, ?_⟩
  push_cast
  rw [hsum]
  field_simp

variable (hp : places = hyperliquidPlaces price sz)

include hp

theorem HyperliquidPrice.onGrid (h : HyperliquidPrice sz value) :
    OnGrid (1 / 10 ^ places) value ∨ value < 10 ^ log 10 price ∧ OnGrid (1 / 10 ^ places) ((10 : Decimal) ^ log 10 price) := by
  unfold hyperliquidPlaces at hp
  rcases le_total (6 - sz) (4 - log 10 price).toNat with hle | hle
  · rw [hp, min_eq_right hle]
    exact .inl h.places
  rcases h.digits with ⟨n, rfl⟩ | ⟨k, e, hk, rfl⟩
  · have hgr := @onGrid_decimal places n 0 (by omega)
    rw [zpow_zero, mul_one] at hgr
    exact .inl hgr
  rcases le_or_gt (log 10 price) (e + 4) with hlog | hlog
  · exact .inl (onGrid_decimal (by omega))
  · have hgr := @onGrid_decimal places 1 (log 10 price) (by omega)
    rw [cast_one, one_mul] at hgr
    refine .inr ⟨?_, hgr⟩
    have hlt : (k : Decimal) < 10 ^ 5 := by
      exact_mod_cast (le_abs_self k).trans_lt hk
    calc (k : Decimal) * 10 ^ e < 10 ^ 5 * 10 ^ e := mul_lt_mul_of_pos_right hlt (zpow_pos (by norm_num) e)
      _ = 10 ^ (5 + e) := by rw [zpow_add₀ (by norm_num)]; rfl
      _ ≤ 10 ^ log 10 price := zpow_le_zpow_right₀ (by norm_num) (by omega)

end Hyperliquid

end SelfQuant.Trader
