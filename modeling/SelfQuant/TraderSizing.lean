import SelfQuant.TraderInstrument

namespace SelfQuant.Trader

structure ArbitrageLeg where
  instrumentID : Int := 0
  contractType : ContractType := .perpetual
  exchangeSymbol : String := ""
  deriving DecidableEq

structure PairedCombination extends ArbitrageCombination where
  (legA legB : ArbitrageLeg)
  deriving DecidableEq

structure BBO where
  (bidPrice askPrice : DecimalText)
  (bidQuantity askQuantity : DecimalText := none)
  deriving DecidableEq

def bboPriceForSide (bbo : BBO) : OrderSide → DecimalText
  | .sell => bbo.bidPrice
  | .buy => bbo.askPrice

def bboQuantityForSide (bbo : BBO) : OrderSide → DecimalText
  | .sell => bbo.bidQuantity
  | .buy => bbo.askQuantity

inductive SizeError
  | missingBboPrice
  | missingBboQuantity
  | hedgeCapBelowMinimumOpen
  | hedgeCapBelowMinimumClose
  | closeableZero
  | remainingBelowMinimumOpen
  | boundedNotPositive
  | invalidCloseSize
  | quantityStepInvalid
  | quantityFlooredToZero
  | orderNotPrepared (error : PrepareError)
  | invalidQuantity
  | closeQuantityFlooredToZero
  | sizedNotPositive
  | requestedExceedsRemaining
  | requestedExceedsCloseable
  deriving DecidableEq

def require (condition : Prop) [Decidable condition] (error : SizeError) : Except SizeError Unit :=
  if condition then .ok () else .error error

/-- How many units of the base asset one contract is, where the venue counts contracts. -/
def quantityFactor (instrument : Instrument) : Except SizeError (Option Decimal) :=
  if instrument.contractType ≠ .perpetual ∨ (instrument.exchange ≠ .okx ∧ instrument.exchange ≠ .gate) then .ok none
  else
    match instrument.contractSize with
    | none => .error .invalidQuantity
    | some size =>
      if size ≤ 0 then .error .invalidQuantity
      else if instrument.exchange = .okx ∧ 0 < parseDecimal instrument.ctMult then
        .ok (some (size * parseDecimal instrument.ctMult))
      else .ok (some size)

def fromVenueQuantity (instrument : Instrument) (venueQuantity : Decimal) : Except SizeError Decimal :=
  match quantityFactor instrument with
  | .error e => .error e
  | .ok factor => .ok |venueQuantity * factor.getD 1|

variable (div : Decimal → Decimal → Decimal)

def venueQuantityStep (instrument : Instrument) (factor : Decimal) : Decimal :=
  let baseStep := parsePositiveDecimal instrument.quantityStep
  if 0 < baseStep ∧ 0 < factor then div baseStep factor else 0

def toVenueQuantity (instrument : Instrument) (quantity : Decimal) : Except SizeError Decimal :=
  if quantity ≤ 0 then .error .invalidQuantity
  else
    match quantityFactor instrument with
    | .error e => .error e
    | .ok none => .ok quantity
    | .ok (some factor) =>
      let wire := div quantity factor
      let venueStep := venueQuantityStep div instrument factor
      let step := if 0 < venueStep then venueStep else 1
      if (div wire step).den = 1 then .ok wire else .error .invalidQuantity

def topOfBookNotional (instrument : Instrument) (price rawQuantity : DecimalText) : Option Decimal :=
  let px := parsePositiveDecimal price
  if px ≤ 0 then none
  else
    match rawQuantity with
    | none => none
    | some raw =>
      match fromVenueQuantity instrument raw with
      | .error _ => none
      | .ok base => if 0 < base then some (base * px) else none

def instrumentOrderStep (instrument : Instrument) (orderType : OrderType) : Decimal :=
  (instrument.rules orderType).step

/-- The least common multiple of two steps; the source brings their coefficients to one exponent. -/
def commonQuantityStep (a b : Decimal) : Decimal := if 0 < a ∧ 0 < b then gridLcm a b else 0

variable (combination : PairedCombination)

def arbitrageOrderTypes : OrderType × OrderType :=
  match combination.executionMode with
  | .simultaneousMarket =>
    (if combination.legA.contractType = .spot then .limit else .market,
      if combination.legB.contractType = .spot then .limit else .market)
  | .makerThenHedge => (.limit, .limit)

/-- Symbols are ASCII, which `strings.EqualFold` compares without case. -/
def arbitrageOrderType (instrument : Instrument) : OrderType :=
  let (orderTypeA, orderTypeB) := arbitrageOrderTypes combination
  if instrument.id = 0 then
    if instrument.exchangeSymbol.toLower = combination.legA.exchangeSymbol.toLower then orderTypeA else orderTypeB
  else if instrument.id = combination.legA.instrumentID then orderTypeA
  else orderTypeB

def preflightPrice (instrument : Instrument) (orderType : OrderType) (reference : Decimal) : DecimalText :=
  match orderType with
  | .market => none
  | .limit =>
    let tick := parsePositiveDecimal instrument.priceTick
    if 0 < tick then some (floorToStep div reference tick) else none

def prepareSizedOrder (instrument : Instrument) (orderType : OrderType)
    (quantity reference : Decimal) (execution : CloseClip) : Except SizeError Unit :=
  match prepareArbitrageOrder instrument orderType (some quantity)
    (preflightPrice div instrument orderType reference) (some reference) execution with
  | .error e => .error (.orderNotPrepared e)
  | .ok _ => .ok ()

def legPrice (bbo : BBO) (direction : Direction) (leg : Leg) : Decimal :=
  parsePositiveDecimal (bboPriceForSide bbo (arbitrageLegSides direction leg))

variable (instrumentA instrumentB : Instrument)

def pairStep : Decimal :=
  commonQuantityStep (instrumentOrderStep instrumentA (arbitrageOrderTypes combination).1)
    (instrumentOrderStep instrumentB (arbitrageOrderTypes combination).2)

def roundedBase (direction : Direction) (notional priceA priceB step : Decimal) : Decimal :=
  let quantity := floorToStep div (min (div notional priceA) (div notional priceB)) step
  match direction with
  | .bid => floorToStep div (min quantity (arbitrageCloseableBase combination.toArbitrageCombination)) step
  | .ask => quantity

variable (bboA bboB : BBO)

def arbitrageExecutableBase (direction : Direction)
    (effect : PositionEffect) (notional : Decimal) (lastClip : Bool) : Except SizeError Decimal :=
  let priceA := legPrice bboA direction .a
  let priceB := legPrice bboB direction .b
  let step := pairStep combination instrumentA instrumentB
  let quantity := roundedBase div combination direction notional priceA priceB step
  let execution : CloseClip := { positionEffect := effect, reduceOnly := effect = .close, lastCloseClip := lastClip }
  if notional ≤ 0 then .error .invalidCloseSize
  else if priceA ≤ 0 ∨ priceB ≤ 0 then .error .missingBboPrice
  else if step ≤ 0 then .error .quantityStepInvalid
  else if quantity ≤ 0 then .error .quantityFlooredToZero
  else do
    prepareSizedOrder div instrumentA (arbitrageOrderTypes combination).1 quantity priceA execution
    prepareSizedOrder div instrumentB (arbitrageOrderTypes combination).2 quantity priceB execution
    let _ ← toVenueQuantity div instrumentA quantity
    let _ ← toVenueQuantity div instrumentB quantity
    .ok quantity

def arbitrageMaxOrderNotional : Decimal := 1000

def arbitrageRandomNotionalMax : Decimal := 20

def arbitrageMakerDepthFraction : Decimal := 5 / 100

def clampRandom (random : Decimal) : Decimal :=
  if random < 0 then 0
  else if random < arbitrageRandomNotionalMax then random
  else arbitrageRandomNotionalMax - 1 / 100

def legTop (instrument : Instrument) (bbo : BBO) (direction : Direction) (leg : Leg) : Option Decimal :=
  topOfBookNotional instrument (bboPriceForSide bbo (arbitrageLegSides direction leg))
    (bboQuantityForSide bbo (arbitrageLegSides direction leg))

def depthNotional (direction : Direction) (effect : PositionEffect) (random : Decimal) :
    Except SizeError (Decimal × Decimal) :=
  let topA := legTop instrumentA bboA direction .a
  let topB := legTop instrumentB bboB direction .b
  match combination.executionMode with
  | .makerThenHedge =>
    let (makerTop, hedgeTop) := if combination.makerLeg = some .b then (topB, topA) else (topA, topB)
    match makerTop with
    | none => .error .missingBboQuantity
    | some makerTop => .ok (makerTop * arbitrageMakerDepthFraction + random, hedgeTop.getD 0)
  | .simultaneousMarket =>
    match topA, topB with
    | some topA, some topB =>
      let hedgeCap := min topA topB
      if hedgeCap < arbitrageMinOpenNotional then
        .error (if effect = .close then .hedgeCapBelowMinimumClose else .hedgeCapBelowMinimumOpen)
      else .ok (min (hedgeCap * arbitrageMakerDepthFraction + random) hedgeCap, hedgeCap)
    | _, _ => .error .missingBboQuantity

structure ArbitrageSizePlan where
  direction : Direction
  effect : PositionEffect
  reduceOnly : Bool
  (requestedNotional targetBaseQuantity randomNotional hedgeCapNotional legANotional legBNotional : Decimal)
  lastClip : Bool
  deriving DecidableEq

/-- What can be closed: of a combination that is wound down only what it owns. -/
def claimCloseableBase : Decimal :=
  let closeableBase := arbitrageCloseableBase combination.toArbitrageCombination
  if arbitrageFlattening combination.toArbitrageCombination then
    min closeableBase (arbitrageOwnedCloseableBase combination.toArbitrageCombination)
  else closeableBase

def claimCloseable (direction : Direction) : Decimal :=
  let closeableBase := claimCloseableBase combination
  if 0 < closeableBase then
    max (closeableBase * legPrice bboA direction .a) (closeableBase * legPrice bboB direction .b)
  else 0

variable (effect : PositionEffect)

/-- The last close of a combination that is wound down may be smaller than others. -/
def isLastClip (closeable : Decimal) : Bool :=
  arbitrageFlattening combination.toArbitrageCombination ∧ effect = .close ∧ 0 < closeable ∧
    closeable < arbitrageMinOpenNotional

/-- The notional to ask for and the depth to hedge into, before the limits of the position. -/
def rawNotional (direction : Direction) (effect : PositionEffect) (closeable random : Decimal) :
    Except SizeError (Decimal × Decimal) :=
  if isLastClip combination effect closeable then .ok (closeable, 0)
  else
    match depthNotional combination instrumentA instrumentB bboA bboB direction effect random with
    | .error e => .error e
    | .ok (raw, hedgeCap) => .ok (max raw arbitrageMinOpenNotional, hedgeCap)

def boundedNotional (raw remaining closeable : Decimal) : Except SizeError Decimal :=
  let bounded := min raw arbitrageMaxOrderNotional
  if effect = .close then if closeable ≤ 0 then .error .closeableZero else .ok (min bounded closeable)
  else if remaining < arbitrageMinOpenNotional then .error .remainingBelowMinimumOpen
  else .ok (min bounded remaining)

def finalStep : Decimal :=
  commonQuantityStep (instrumentOrderStep instrumentA (arbitrageOrderType combination instrumentA))
    (instrumentOrderStep instrumentB (arbitrageOrderType combination instrumentB))

def finalBase (remaining capPrice base : Decimal) : Except SizeError Decimal :=
  let step := finalStep combination instrumentA instrumentB
  if effect = .close then
    let base := floorToStep div (min base (claimCloseableBase combination)) step
    if base ≤ 0 then .error .closeQuantityFlooredToZero else .ok base
  else
    let maxBase := div remaining capPrice
    let base := if maxBase < base then floorToStep div maxBase step else base
    if base ≤ 0 then .error .sizedNotPositive else .ok base

def sizeArbitrageExecution (direction : Direction)
    (effect : PositionEffect) (remaining closeable random : Decimal) :
    Except SizeError ArbitrageSizePlan :=
  let priceA := legPrice bboA direction .a
  let priceB := legPrice bboB direction .b
  let lastClip := isLastClip combination effect closeable
  do
    require (0 < priceA ∧ 0 < priceB) .missingBboPrice
    let (raw, hedgeCap) ← rawNotional combination instrumentA instrumentB bboA bboB direction effect
      closeable (clampRandom random)
    let bounded ← boundedNotional effect raw remaining closeable
    require (0 < bounded) .boundedNotPositive
    let executable ← arbitrageExecutableBase div combination instrumentA instrumentB bboA bboB direction
      effect bounded lastClip
    let base ← finalBase div combination instrumentA instrumentB effect remaining (max priceA priceB) executable
    let requested := max (base * priceA) (base * priceB)
    require (effect = .close ∨ (requested ≤ remaining ∧ arbitrageMinOpenNotional ≤ remaining))
      .requestedExceedsRemaining
    require (effect ≠ .close ∨ requested ≤ closeable) .requestedExceedsCloseable
    .ok {
      direction, effect
      reduceOnly := effect = .close, requestedNotional := requested, targetBaseQuantity := base
      randomNotional := if lastClip then 0 else clampRandom random
      hedgeCapNotional := hedgeCap, legANotional := base * priceA, legBNotional := base * priceB
      lastClip }

/-- A lot of the venue in units of the base asset. -/
def baseQuantityStep (instrument : Instrument) (venueStep : Decimal) : Except SizeError Decimal :=
  if venueStep ≤ 0 then .error .quantityStepInvalid
  else
    match quantityFactor instrument with
    | .error e => .error e
    | .ok factor => .ok (venueStep * factor.getD 1)

theorem quantityFactor_pos {instrument : Instrument} {factor : Decimal}
    (h : quantityFactor instrument = .ok (some factor)) : 0 < factor := by
  unfold quantityFactor at h
  grind [mul_pos]

/-- A positive number in units of the sixteenth place, rounded. -/
def units (value : Decimal) : ℤ := ⌊value * 10 ^ 16 + 1 / 2⌋

/-- The lot in these units; a lot that is rounded to zero counts as one. -/
def lotUnits (lot : Decimal) : ℤ := if units lot = 0 then 10 ^ 16 else units lot

/-- The quotient of the two is within half a unit of an integer. -/
def Near (wire lot : ℤ) : Prop := ∃ n : ℤ, -lot ≤ 2 * 10 ^ 16 * (wire - n * lot) ∧ 2 * 10 ^ 16 * (wire - n * lot) < lot

theorem units_nonneg {value : Decimal} (h : 0 < value) : 0 ≤ units value := Int.floor_nonneg.mpr (by positivity)

theorem lotUnits_pos {lot : Decimal} (h : 0 < lot) : 0 < lotUnits lot := by
  have hunits := units_nonneg h
  grind [lotUnits]

theorem Decimal.div_eq_units {d d2 : Decimal} (h : 0 ≤ d / d2) : Decimal.div d d2 = units (d / d2) / 10 ^ 16 := by
  rw [Decimal.div, if_neg (not_lt.mpr (by positivity)), units]

theorem Decimal.div_integer_iff {wire lot : ℤ} (hwire : 0 ≤ wire) (hlot : 0 < lot) :
    (Decimal.div (wire / 10 ^ 16) (lot / 10 ^ 16)).den = 1 ↔ Near wire lot := by
  have hpos : (0 : Decimal) < lot := Int.cast_pos.mpr hlot
  have hquo : (wire : Decimal) / 10 ^ 16 / (lot / 10 ^ 16) = wire / lot := by field_simp
  have hscaled : (wire : Decimal) / lot * 10 ^ 16 * lot = wire * 10 ^ 16 := by field_simp
  have hden := Rat.den_div_intCast_eq_one_iff (units (wire / lot)) (10 ^ 16) (by norm_num)
  rw [Int.cast_pow, Int.cast_ofNat] at hden
  rw [div_eq_units (by rw [hquo]; positivity), hquo, hden]
  refine exists_congr fun n => ?_
  rw [units, Int.floor_eq_iff, ← @Int.cast_le Decimal, ← @Int.cast_lt Decimal]
  push_cast
  constructor
  · rintro ⟨hlow, hhigh⟩
    constructor <;> nlinarith
  · rintro ⟨hlow, hhigh⟩
    constructor <;> by_contra hcon <;> nlinarith

/-- The conversions are right for a quantity exactly if, without contracts, it is a multiple of the step, and with
contracts, the rounded quotients tell multiples of the step from others and a multiple has at most sixteen places. -/
theorem venue_quantity_round_trips_iff (instrument : Instrument) (lot step quantity : Decimal)
    (hbase : baseQuantityStep instrument lot = .ok step) (hstep : instrument.quantityStep = some step)
    (hquantity : 0 < quantity) :
    (((∃ wire, toVenueQuantity Decimal.div instrument quantity = .ok wire) ↔ OnGrid step quantity) ∧
      ∀ wire, toVenueQuantity Decimal.div instrument quantity = .ok wire →
        fromVenueQuantity instrument wire = .ok quantity) ↔
    (quantityFactor instrument = .ok none → OnGrid step quantity) ∧
      ∀ factor, quantityFactor instrument = .ok (some factor) →
        (Near (units (quantity / factor)) (lotUnits lot) ↔ OnGrid step quantity) ∧
          (OnGrid step quantity → OnGrid (factor / 10 ^ 16) quantity) := by
  unfold baseQuantityStep at hbase
  split at hbase
  next => cases hbase
  next hpos =>
  rw [not_le] at hpos
  split at hbase
  next => cases hbase
  next factor hf =>
  cases hbase
  cases factor with
  | none => simp [toVenueQuantity, fromVenueQuantity, hf, not_le.mpr hquantity, abs_of_pos hquantity]
  | some factor =>
  have hfactor := quantityFactor_pos hf
  have hwire : Decimal.div quantity factor = units (quantity / factor) / 10 ^ 16 :=
    Decimal.div_eq_units (by positivity)
  have hlot : Decimal.div (lot * factor) factor = units lot / 10 ^ 16 := by
    rw [Decimal.div_eq_units (by positivity), mul_div_cancel_right₀ _ hfactor.ne']
  have hunit : (if 0 < Decimal.div (lot * factor) factor then Decimal.div (lot * factor) factor else 1) =
      lotUnits lot / 10 ^ 16 := by
    rw [hlot, lotUnits]
    rcases (units_nonneg hpos).eq_or_lt with hzero | hunits
    · norm_num [← hzero]
    · rw [if_pos (by positivity), if_neg hunits.ne']
  have hto : toVenueQuantity Decimal.div instrument quantity =
      if (Decimal.div (units (quantity / factor) / 10 ^ 16) (lotUnits lot / 10 ^ 16)).den = 1 then
        .ok (units (quantity / factor) / 10 ^ 16 : Decimal)
      else .error .invalidQuantity := by
    simp only [toVenueQuantity, hf, not_le.mpr hquantity, venueQuantityStep, hstep, parsePositiveDecimal, parseDecimal]
    simp [mul_pos hpos hfactor, hfactor, hunit, hwire]
  have hback : fromVenueQuantity instrument (units (quantity / factor) / 10 ^ 16) = .ok quantity ↔
      OnGrid (factor / 10 ^ 16) quantity := by
    have hunits := units_nonneg (div_pos hquantity hfactor)
    simp only [fromVenueQuantity, hf, Option.getD_some, Except.ok.injEq]
    rw [abs_of_nonneg (by positivity)]
    constructor
    · intro hexact
      exact ⟨units (quantity / factor), by linarith⟩
    · rintro ⟨k, rfl⟩
      have hk : k * (factor / 10 ^ 16) / factor * 10 ^ 16 = k := by field_simp
      have hfloor : ⌊(k : Decimal) + 1 / 2⌋ = k := by norm_num
      rw [units, hk, hfloor]
      ring
  rw [hto, Option.getD_some]
  have hinteger := Decimal.div_integer_iff (units_nonneg (div_pos hquantity hfactor)) (lotUnits_pos hpos)
  simp only [hf, Except.ok.injEq, Option.some.injEq, reduceCtorEq, false_imp_iff, true_and, forall_eq']
  by_cases hnear : Near (units (quantity / factor)) (lotUnits lot)
  · rw [if_pos (hinteger.mpr hnear)]
    simp only [hnear, Except.ok.injEq, exists_eq', forall_eq', true_iff, hback]
    exact and_congr_right fun hgrid => by simp [hgrid]
  · rw [if_neg (hinteger.not.mpr hnear)]
    simp only [hnear, reduceCtorEq, exists_false, false_iff, false_imp_iff, implies_true, and_true]
    exact ⟨fun hoff => ⟨hoff, fun hgrid => absurd hgrid hoff⟩, And.left⟩

def thirds : Instrument := { exchange := .gate, contractSize := some 3, priceTick := none, quantityStep := some 3 }

/-- Without contracts any quantity passes, and with them one that the division rounds to a multiple. -/
theorem unstepped_quantity_passes :
    toVenueQuantity Decimal.div { thirds with exchange := .other } (1 / 2) = .ok (1 / 2) ∧
    toVenueQuantity Decimal.div thirds (3 + 1 / 10 ^ 20) = .ok 1 ∧ fromVenueQuantity thirds 1 = .ok 3 := by
  refine ⟨?_, ?_, ?_⟩ <;> decide +kernel

theorem venue_quantity_round_trips_two :
    (∃ wire, toVenueQuantity Decimal.div thirds 6 = .ok wire) ↔ OnGrid 3 (6 : Decimal) := by
  have hgrid : OnGrid 3 (6 : Decimal) := ⟨2, by norm_num⟩
  have hfactor : quantityFactor thirds = .ok (some 3) := by decide +kernel
  have hnear : Near (units (6 / 3)) (lotUnits 1) := ⟨2, by norm_num [units, lotUnits], by norm_num [units, lotUnits]⟩
  refine ((venue_quantity_round_trips_iff thirds 1 3 6 (by decide +kernel) rfl (by norm_num)).mpr ⟨?_, ?_⟩).1
  · rw [hfactor]
    nofun
  · rintro factor hsome
    cases hfactor.symm.trans hsome
    exact ⟨iff_of_true hnear hgrid, fun _ => ⟨2 * 10 ^ 16, by norm_num⟩⟩

end SelfQuant.Trader
