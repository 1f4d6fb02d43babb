import SelfQuant.StepGrid
import SelfQuant.TraderClaim

namespace SelfQuant.Trader

open Decimal

theorem bind_eq_ok {ε α β : Type} {x : Except ε α} {f : α → Except ε β} {b : β} (h : (x >>= f) = .ok b) :
    ∃ a, x = .ok a ∧ f a = .ok b := by
  cases x with
  | error e => cases h
  | ok a => exact ⟨a, rfl, h⟩

inductive ConstraintStatus
  | known
  | notApplicable
  | unknown
  deriving DecidableEq, Repr

inductive ContractType
  | spot
  | perpetual
  deriving DecidableEq, Repr

inductive OrderType
  | limit
  | market
  deriving DecidableEq, Repr

/-- The venues that the code treats in a way of their own. -/
inductive Venue
  | okx
  | gate
  | hyperliquid
  | other
  deriving DecidableEq, Repr

structure Instrument where
  id : Int := 0
  exchange : Venue := .other
  contractType : ContractType := .perpetual
  exchangeSymbol : String := ""
  contractSize : DecimalText := none
  /-- `Metadata["ctMult"]` -/
  ctMult : DecimalText := none
  (priceTick quantityStep : DecimalText)
  minQuantity : DecimalText := none
  minQuantityStatus : ConstraintStatus := .notApplicable
  maxQuantity : DecimalText := none
  maxQuantityStatus : ConstraintStatus := .notApplicable
  minNotional : DecimalText := none
  minNotionalStatus : ConstraintStatus := .notApplicable
  marketQuantityStep : DecimalText := none
  marketQuantityStepStatus : ConstraintStatus := .unknown
  marketMinQuantity : DecimalText := none
  marketMinQuantityStatus : ConstraintStatus := .notApplicable
  marketMaxQuantity : DecimalText := none
  marketMaxQuantityStatus : ConstraintStatus := .notApplicable
  marketMinNotional : DecimalText := none
  marketMinNotionalStatus : ConstraintStatus := .notApplicable
  deriving DecidableEq

/-- `Decimal.Mod`: what a quotient cut off after the point leaves. -/
def Decimal.mod (d d2 : Decimal) : Decimal := d - d2 * (if d / d2 < 0 then ⌈d / d2⌉ else ⌊d / d2⌋)

def floorToStep (div : Decimal → Decimal → Decimal) (value step : Decimal) : Decimal :=
  if 0 < step then ⌊div value step⌋ * step else value

def ceilToStep (div : Decimal → Decimal → Decimal) (value step : Decimal) : Decimal :=
  if 0 < step then ⌈div value step⌉ * step else value

/-- The rounding of `Decimal.Div` leaves quotients of sixteen places as they are. -/
theorem Decimal.div_of_scaled {d d2 : Decimal} {n : ℤ} (h : d / d2 * 10 ^ 16 = n) : div d d2 = d / d2 := by
  have hflr : ∀ n : ℤ, ⌊(n : Decimal) + 1 / 2⌋ = n := by
    norm_num
  have hneg : ⌊-(n : Decimal) + 1 / 2⌋ = -n := by
    rw [← Int.cast_neg, hflr]
  unfold div
  dsimp only
  rw [h, hneg, hflr, Int.cast_neg, neg_neg, ite_self, ← h, mul_div_cancel_right₀ _ (by norm_num)]

section Steps

variable {div : Decimal → Decimal → Decimal} {value step : Decimal}

section

variable (hstep : 0 < step)

include hstep

theorem floorToStep_exact : floorToStep (· / ·) value step = gridFloor step value := if_pos hstep

theorem onGrid_floorToStep : OnGrid step (floorToStep div value step) := by
  rw [floorToStep, if_pos hstep]
  exact ⟨_, rfl⟩

theorem floorToStep_le : floorToStep (· / ·) value step ≤ value := by
  rw [floorToStep_exact hstep]
  exact gridFloor_le hstep

theorem floorToStep_of_onGrid (h : OnGrid step value) : floorToStep (· / ·) value step = value := by
  rw [floorToStep_exact hstep, gridFloor_of_onGrid hstep h]

theorem Decimal.div_mul_self (k : ℤ) : Decimal.div (k * step) step = k := by
  have hquo : (k : Decimal) * step / step = k := mul_div_cancel_right₀ _ hstep.ne'
  rw [@Decimal.div_of_scaled _ _ (k * 10 ^ 16) (by rw [hquo]; push_cast; rfl), hquo]

theorem floorToStep_div_of_onGrid (h : OnGrid step value) : floorToStep Decimal.div value step = value := by
  obtain ⟨k, rfl⟩ := h
  rw [floorToStep, if_pos hstep, Decimal.div_mul_self hstep, Int.floor_intCast]

end

end Steps

def ruleDecimal (value : DecimalText) (status : ConstraintStatus) : Decimal :=
  if status = .known then parsePositiveDecimal value else 0

structure OrderRules where
  step : Decimal
  minQuantity : DecimalText
  minQuantityStatus : ConstraintStatus
  maxQuantity : DecimalText
  maxQuantityStatus : ConstraintStatus
  minNotional : DecimalText
  minNotionalStatus : ConstraintStatus

variable (instrument : Instrument)

def Instrument.rules : OrderType → OrderRules
  | .limit => {
      step := parsePositiveDecimal instrument.quantityStep
      minQuantity := instrument.minQuantity, minQuantityStatus := instrument.minQuantityStatus
      maxQuantity := instrument.maxQuantity, maxQuantityStatus := instrument.maxQuantityStatus
      minNotional := instrument.minNotional, minNotionalStatus := instrument.minNotionalStatus }
  | .market => {
      step := ruleDecimal instrument.marketQuantityStep instrument.marketQuantityStepStatus
      minQuantity := instrument.marketMinQuantity, minQuantityStatus := instrument.marketMinQuantityStatus
      maxQuantity := instrument.marketMaxQuantity, maxQuantityStatus := instrument.marketMaxQuantityStatus
      minNotional := instrument.marketMinNotional, minNotionalStatus := instrument.marketMinNotionalStatus }

inductive PrepareError
  | quantityNotPositive
  | quantityStep (quantity step : Decimal) (orderType : OrderType)
  | belowMinimum (quantity minimum : Decimal)
  | aboveMaximum (quantity maximum : Decimal)
  | limitPriceNotPositive
  | priceTick (price tick : Decimal)
  | notionalBelowMinimum (notional minimum : Decimal)
  | instrumentUnavailable
  deriving DecidableEq

variable (quantity : Decimal)

def validateMinimumRule (value : DecimalText) : ConstraintStatus → Except PrepareError Unit
  | .known =>
    if parsePositiveDecimal value ≤ 0 then .error .instrumentUnavailable
    else if quantity < parsePositiveDecimal value then .error (.belowMinimum quantity (parsePositiveDecimal value))
    else .ok ()
  | .notApplicable => .ok ()
  | .unknown => .error .instrumentUnavailable

def validateMaximumRule (value : DecimalText) : ConstraintStatus → Except PrepareError Unit
  | .known =>
    if parsePositiveDecimal value ≤ 0 then .error .instrumentUnavailable
    else if parsePositiveDecimal value < quantity then .error (.aboveMaximum quantity (parsePositiveDecimal value))
    else .ok ()
  | .notApplicable => .ok ()
  | .unknown => .error .instrumentUnavailable

def validateNotionalRule (referencePrice value : DecimalText) : ConstraintStatus → Except PrepareError Unit
  | .known =>
    if parsePositiveDecimal value ≤ 0 ∨ parsePositiveDecimal referencePrice ≤ 0 then .error .instrumentUnavailable
    else if quantity * parsePositiveDecimal referencePrice < parsePositiveDecimal value then
      .error (.notionalBelowMinimum (quantity * parsePositiveDecimal referencePrice) (parsePositiveDecimal value))
    else .ok ()
  | .notApplicable => .ok ()
  | .unknown => .error .instrumentUnavailable

def canonicalPrice (price : DecimalText) : OrderType → Except PrepareError (Option Decimal)
  | .market => .ok none
  | .limit =>
    match price with
    | none => .error .limitPriceNotPositive
    | some px =>
      let tick := parsePositiveDecimal instrument.priceTick
      if px ≤ 0 then .error .limitPriceNotPositive
      else if tick ≤ 0 ∨ mod px tick ≠ 0 then .error (.priceTick px tick)
      else .ok (some px)

def steppedQuantity (quantity : DecimalText) (step : Decimal) (orderType : OrderType) : Except PrepareError Decimal :=
  match quantity with
  | none => .error .quantityNotPositive
  | some qty =>
    if qty ≤ 0 then .error .quantityNotPositive
    else if step ≤ 0 ∨ mod qty step ≠ 0 then .error (.quantityStep qty step orderType)
    else .ok qty

def prepareOrderMode (orderType : OrderType)
    (quantity price referencePrice : DecimalText) (skipMinNotional : Bool) :
    Except PrepareError (Decimal × Option Decimal) := do
  let rules := instrument.rules orderType
  let qty ← steppedQuantity quantity rules.step orderType
  validateMinimumRule qty rules.minQuantity rules.minQuantityStatus
  validateMaximumRule qty rules.maxQuantity rules.maxQuantityStatus
  let canonical ← canonicalPrice instrument price orderType
  if skipMinNotional then .ok (qty, canonical)
  else
    -- a limit order is measured at its own price
    validateNotionalRule qty (canonical <|> referencePrice) rules.minNotional rules.minNotionalStatus
    .ok (qty, canonical)

/-- What the preparation of an order reads of the execution. -/
structure CloseClip where
  positionEffect : PositionEffect
  (reduceOnly lastCloseClip : Bool)
  deriving DecidableEq

def allowBelowMinNotional (execution : CloseClip) (instrument : Instrument) : Bool :=
  execution.lastCloseClip ∧ execution.positionEffect = .close ∧ execution.reduceOnly ∧
    instrument.contractType = .perpetual

def prepareArbitrageOrder (orderType : OrderType)
    (quantity price referencePrice : DecimalText) (execution : CloseClip) :
    Except PrepareError (Decimal × Option Decimal) :=
  prepareOrderMode instrument orderType quantity price referencePrice (allowBelowMinNotional execution instrument)

section Rules

variable {inst : Instrument} {quantity px step : Decimal} {value ref : DecimalText}
  {status : ConstraintStatus} {orderType : OrderType} {skip : Bool}

theorem Decimal.mod_eq_zero_iff (hstep : 0 < step) (hquantity : 0 < quantity) :
    mod quantity step = 0 ↔ OnGrid step quantity := by
  have hpos : ¬ quantity / step < 0 := not_lt.mpr (div_pos hquantity hstep).le
  rw [mod, if_neg hpos, sub_eq_zero, mul_comm]
  constructor
  · intro h
    exact ⟨_, h⟩
  · intro h
    exact (gridFloor_of_onGrid hstep h).symm

theorem validateMinimumRule_ok : validateMinimumRule quantity value status = .ok () ↔ status = .notApplicable ∨
      status = .known ∧ 0 < parsePositiveDecimal value ∧ parsePositiveDecimal value ≤ quantity := by
  cases status with
  | known =>
    unfold validateMinimumRule
    split_ifs with hze hls
    · simp [hze]
    · simp [hls]
    · simp [not_le.mp hze, not_lt.mp hls]
  | notApplicable | unknown => simp [validateMinimumRule]

theorem validateMaximumRule_ok : validateMaximumRule quantity value status = .ok () ↔ status = .notApplicable ∨
      status = .known ∧ 0 < parsePositiveDecimal value ∧ quantity ≤ parsePositiveDecimal value := by
  cases status with
  | known =>
    unfold validateMaximumRule
    split_ifs with hze hmo
    · simp [hze]
    · simp [hmo]
    · simp [not_le.mp hze, not_lt.mp hmo]
  | notApplicable | unknown => simp [validateMaximumRule]

theorem validateNotionalRule_ok : validateNotionalRule quantity ref value status = .ok () ↔
    status = .notApplicable ∨
      status = .known ∧ 0 < parsePositiveDecimal value ∧ 0 < parsePositiveDecimal ref ∧
        parsePositiveDecimal value ≤ quantity * parsePositiveDecimal ref := by
  cases status with
  | known =>
    unfold validateNotionalRule
    split_ifs with hze hls
    · simp only [false_iff, not_or, not_and, not_le, not_false_eq_true, true_and]
      exact fun hvl href => absurd hze (not_or.mpr ⟨not_le.mpr hvl, not_le.mpr href⟩)
    · simp [hls]
    · rw [not_or, not_le, not_le] at hze
      simp [hze, not_lt.mp hls]
  | notApplicable | unknown => simp [validateNotionalRule]

theorem stepCheck_ok {α : Type} {small off : PrepareError} {value result : α} :
    (if quantity ≤ 0 then .error small else if step ≤ 0 ∨ mod quantity step ≠ 0 then .error off else .ok value) =
      Except.ok result ↔ result = value ∧ 0 < quantity ∧ 0 < step ∧ OnGrid step quantity := by
  by_cases hqty : 0 < quantity
  · rw [if_neg (not_le.mpr hqty)]
    by_cases hstep : 0 < step
    · by_cases hgr : OnGrid step quantity <;>
        simp [hqty, hstep, not_le.mpr hstep, mod_eq_zero_iff hstep hqty, hgr, eq_comm]
    · simp [hstep, not_lt.mp hstep]
  · simp [hqty, not_lt.mp hqty]

theorem steppedQuantity_ok {result : Decimal} : steppedQuantity (some quantity) step orderType = .ok result ↔
    result = quantity ∧ 0 < quantity ∧ 0 < step ∧ OnGrid step quantity := stepCheck_ok

theorem canonicalPrice_ok {result : Option Decimal} :
    canonicalPrice inst (some px) .limit = .ok result ↔
      result = some px ∧ 0 < px ∧ 0 < parsePositiveDecimal inst.priceTick ∧
        OnGrid (parsePositiveDecimal inst.priceTick) px := stepCheck_ok

theorem prepareOrderMode_limit_ok :
    (∃ prepared, prepareOrderMode inst .limit (some quantity) (some px) ref skip = .ok prepared) ↔
      (0 < quantity ∧ 0 < parsePositiveDecimal inst.quantityStep ∧
        OnGrid (parsePositiveDecimal inst.quantityStep) quantity) ∧
      validateMinimumRule quantity inst.minQuantity inst.minQuantityStatus = .ok () ∧
      validateMaximumRule quantity inst.maxQuantity inst.maxQuantityStatus = .ok () ∧
      (0 < px ∧ 0 < parsePositiveDecimal inst.priceTick ∧ OnGrid (parsePositiveDecimal inst.priceTick) px) ∧
      (skip = false → validateNotionalRule quantity (some px) inst.minNotional inst.minNotionalStatus = .ok ()) := by
  constructor
  · rintro ⟨prepared, h⟩
    obtain ⟨qty, hqty, hrs⟩ := bind_eq_ok h
    obtain ⟨_, hmin, hrs⟩ := bind_eq_ok hrs
    obtain ⟨_, hmax, hrs⟩ := bind_eq_ok hrs
    obtain ⟨canonical, hcan, hrs⟩ := bind_eq_ok hrs
    obtain ⟨hqty, hquantity⟩ := steppedQuantity_ok.mp hqty
    obtain ⟨hcan, hpx⟩ := canonicalPrice_ok.mp hcan
    rw [hqty] at hmin hmax hrs
    refine ⟨hquantity, hmin, hmax, hpx, fun hskip => ?_⟩
    rw [hskip, hcan] at hrs
    obtain ⟨_, hntl, -⟩ := bind_eq_ok hrs
    exact hntl
  · rintro ⟨hquantity, hmin, hmax, hpx, hntl⟩
    have hqty : steppedQuantity (some quantity) (parsePositiveDecimal inst.quantityStep) .limit =
        .ok quantity := steppedQuantity_ok.mpr ⟨rfl, hquantity⟩
    have hcan : canonicalPrice inst (some px) .limit = .ok (some px) := canonicalPrice_ok.mpr ⟨rfl, hpx⟩
    have href : (some px <|> ref) = some px := rfl
    refine ⟨(quantity, some px), ?_⟩
    unfold prepareOrderMode
    simp only [Instrument.rules, hqty, hcan, hmin, hmax, href, bind, Except.bind]
    cases skip with
    | false => simp only [Bool.false_eq_true, if_false, hntl rfl]
    | true => rfl

end Rules

end SelfQuant.Trader
