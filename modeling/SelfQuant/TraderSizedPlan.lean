import SelfQuant.TraderSizing

namespace SelfQuant.Trader

section Steps

variable {a b : Decimal}

theorem commonQuantityStep_pos (h : 0 < commonQuantityStep a b) : 0 < a ∧ 0 < b := by
  by_contra hnot
  rw [commonQuantityStep, if_neg hnot] at h
  exact lt_irrefl 0 h

theorem commonQuantityStep_onGrid (h : 0 < commonQuantityStep a b) :
    OnGrid a (commonQuantityStep a b) ∧ OnGrid b (commonQuantityStep a b) := by
  have hpos := commonQuantityStep_pos h
  rw [commonQuantityStep, if_pos hpos]
  exact ⟨onGrid_gridLcm_left hpos.1, onGrid_gridLcm_right hpos.2⟩

end Steps

variable {combo : PairedCombination} {instA instB : Instrument} {bboA bboB : BBO}
  {dir : Direction} {effect : PositionEffect} {notional rest closeable random base : Decimal}
  {priceA priceB step : Decimal} {lastClip : Bool} {plan : ArbitrageSizePlan}

theorem roundedBase_mul_le (hst : 0 < step) (hA : 0 < priceA) (hB : 0 < priceB) :
    roundedBase (· / ·) combo dir notional priceA priceB step * max priceA priceB ≤ notional := by
  have hle : roundedBase (· / ·) combo dir notional priceA priceB step ≤
      min (notional / priceA) (notional / priceB) := by
    cases dir with
    | ask => exact floorToStep_le hst
    | bid => exact (floorToStep_le hst).trans ((min_le_left _ _).trans (floorToStep_le hst))
  have hleA : _ ≤ notional / priceA := hle.trans (min_le_left _ _)
  have hleB : _ ≤ notional / priceB := hle.trans (min_le_right _ _)
  rcases max_cases priceA priceB with ⟨hmax, -⟩ | ⟨hmax, -⟩
  · rw [hmax]
    exact (le_div_iff₀ hA).mp hleA
  · rw [hmax]
    exact (le_div_iff₀ hB).mp hleB

/-- What the preparation reads of an execution that is sized. -/
def sizedClip (effect : PositionEffect) (lastClip : Bool) : CloseClip :=
  { positionEffect := effect, reduceOnly := effect = .close, lastCloseClip := lastClip }

structure ExecutableBase (div : Decimal → Decimal → Decimal) (combination : PairedCombination)
    (instrumentA instrumentB : Instrument) (bboA bboB : BBO) (direction : Direction)
    (effect : PositionEffect) (notional : Decimal) (lastClip : Bool) (base : Decimal) : Prop where
  priceA : 0 < legPrice bboA direction .a
  priceB : 0 < legPrice bboB direction .b
  step : 0 < pairStep combination instrumentA instrumentB
  positive : 0 < base
  rounded : base = roundedBase div combination direction notional (legPrice bboA direction .a)
    (legPrice bboB direction .b) (pairStep combination instrumentA instrumentB)
  preparedA : prepareSizedOrder div instrumentA (arbitrageOrderTypes combination).1 base
    (legPrice bboA direction .a) (sizedClip effect lastClip) = .ok ()
  preparedB : prepareSizedOrder div instrumentB (arbitrageOrderTypes combination).2 base
    (legPrice bboB direction .b) (sizedClip effect lastClip) = .ok ()

variable {div : Decimal → Decimal → Decimal}

theorem arbitrageExecutableBase_ok
    (h : arbitrageExecutableBase div combo instA instB bboA bboB dir effect notional lastClip = .ok base) :
    ExecutableBase div combo instA instB bboA bboB dir effect notional lastClip base := by
  unfold arbitrageExecutableBase at h
  dsimp only at h
  split_ifs at h with hntl hpx hst hbase
  obtain ⟨_, hA, h⟩ := bind_eq_ok h
  obtain ⟨_, hB, h⟩ := bind_eq_ok h
  obtain ⟨_, -, h⟩ := bind_eq_ok h
  obtain ⟨_, -, h⟩ := bind_eq_ok h
  rw [not_or, not_le, not_le] at hpx
  cases h
  exact ⟨hpx.1, hpx.2, not_le.mp hst, not_le.mp hbase, rfl, hA, hB⟩

theorem sizeArbitrageExecution_ok
    (h : sizeArbitrageExecution div combo instA instB bboA bboB dir effect rest closeable random = .ok plan) :
    ∃ raw bounded executable,
      boundedNotional effect raw rest closeable = .ok bounded ∧
      ExecutableBase div combo instA instB bboA bboB dir effect bounded
        (isLastClip combo effect closeable) executable ∧
      finalBase div combo instA instB effect rest
        (max (legPrice bboA dir .a) (legPrice bboB dir .b)) executable = .ok plan.targetBaseQuantity ∧
      plan.requestedNotional = max (plan.targetBaseQuantity * legPrice bboA dir .a)
        (plan.targetBaseQuantity * legPrice bboB dir .b) ∧
      plan.lastClip = isLastClip combo effect closeable := by
  obtain ⟨_, -, h⟩ := bind_eq_ok h
  obtain ⟨⟨raw, hedgeCap⟩, -, h⟩ := bind_eq_ok h
  obtain ⟨bounded, hbdd, h⟩ := bind_eq_ok h
  obtain ⟨_, -, h⟩ := bind_eq_ok h
  obtain ⟨executable, hxe, h⟩ := bind_eq_ok h
  obtain ⟨base, hbase, h⟩ := bind_eq_ok h
  obtain ⟨_, -, h⟩ := bind_eq_ok h
  obtain ⟨_, -, h⟩ := bind_eq_ok h
  cases h
  exact ⟨raw, bounded, executable, hbdd, arbitrageExecutableBase_ok hxe, hbase, rfl, rfl⟩

theorem boundedNotional_ok {raw bounded : Decimal}
    (h : boundedNotional effect raw rest closeable = .ok bounded) :
    bounded ≤ arbitrageMaxOrderNotional ∧ (effect = .close → 0 < closeable ∧ bounded ≤ closeable) ∧
      (effect ≠ .close → bounded ≤ rest) := by
  unfold boundedNotional at h
  split_ifs at h with hcls hze hsm
  · cases h
    refine ⟨(min_le_left _ _).trans (min_le_right _ _), fun _ => ⟨not_le.mp hze, min_le_right _ _⟩, ?_⟩
    exact fun hop => absurd hcls hop
  · cases h
    refine ⟨(min_le_left _ _).trans (min_le_right _ _), fun hclos => absurd hclos hcls, ?_⟩
    exact fun _ => min_le_right _ _

theorem claimCloseable_pos (h : 0 < claimCloseable combo bboA bboB dir) :
    0 < claimCloseableBase combo ∧ claimCloseable combo bboA bboB dir =
      claimCloseableBase combo * max (legPrice bboA dir .a) (legPrice bboB dir .b) := by
  have hpos : 0 < claimCloseableBase combo := by
    by_contra hnot
    rw [claimCloseable, if_neg hnot] at h
    exact lt_irrefl 0 h
  refine ⟨hpos, ?_⟩
  rw [claimCloseable, if_pos hpos, mul_max_of_nonneg _ _ hpos.le]

/-- Each instrument is given the order type of its leg. -/
def OwnInstruments (combination : PairedCombination) (instrumentA instrumentB : Instrument) : Prop :=
  arbitrageOrderType combination instrumentA = (arbitrageOrderTypes combination).1 ∧
    arbitrageOrderType combination instrumentB = (arbitrageOrderTypes combination).2

section Exact

variable (hbase : ExecutableBase (· / ·) combo instA instB bboA bboB dir effect notional lastClip base)

include hbase

theorem ExecutableBase.onGrid : OnGrid (pairStep combo instA instB) base := by
  rw [hbase.rounded]
  cases dir <;> exact onGrid_floorToStep hbase.step

theorem ExecutableBase.mul_le : base * max (legPrice bboA dir .a) (legPrice bboB dir .b) ≤ notional := by
  rw [hbase.rounded]
  exact roundedBase_mul_le hbase.step hbase.priceA hbase.priceB

theorem ExecutableBase.price_pos : 0 < max (legPrice bboA dir .a) (legPrice bboB dir .b) :=
  lt_max_of_lt_left hbase.priceA

/-- The limits at the end never bind. -/
theorem ExecutableBase.finalBase_eq {target : Decimal}
    (hown : effect = .close → OwnInstruments combo instA instB)
    (hcls : effect = .close → 0 < claimCloseable combo bboA bboB dir ∧ notional ≤ claimCloseable combo bboA bboB dir)
    (hop : effect ≠ .close → notional ≤ rest)
    (h : finalBase (· / ·) combo instA instB effect rest
      (max (legPrice bboA dir .a) (legPrice bboB dir .b)) base = .ok target) :
    target = base ∧ (effect = .close → base ≤ claimCloseableBase combo) := by
  unfold finalBase at h
  dsimp only at h
  by_cases hclos : effect = .close
  · obtain ⟨hpos, hntl⟩ := hcls hclos
    obtain ⟨hbasepos, hcl⟩ := claimCloseable_pos hpos
    have hle : base ≤ claimCloseableBase combo := by
      refine le_of_mul_le_mul_right ?_ hbase.price_pos
      exact hbase.mul_le.trans (hntl.trans_eq hcl)
    rw [if_pos hclos, min_eq_left hle, finalStep, (hown hclos).1, (hown hclos).2, ← pairStep,
      floorToStep_of_onGrid hbase.step hbase.onGrid, if_neg (not_le.mpr hbase.positive)] at h
    exact ⟨(Except.ok.inj h).symm, fun _ => hle⟩
  · have hle : ¬ rest / max (legPrice bboA dir .a) (legPrice bboB dir .b) < base := by
      rw [not_lt, le_div_iff₀ hbase.price_pos]
      exact hbase.mul_le.trans (hop hclos)
    rw [if_neg hclos, if_neg hle, if_neg (not_le.mpr hbase.positive)] at h
    exact ⟨(Except.ok.inj h).symm, fun hcls => absurd hcls hclos⟩

end Exact

structure ArbitrageSizePlan.Executable (plan : ArbitrageSizePlan) (combination : PairedCombination)
    (instrumentA instrumentB : Instrument) (bboA bboB : BBO) (direction : Direction)
    (effect : PositionEffect) (remaining : Decimal) : Prop where
  positive : 0 < plan.targetBaseQuantity
  onGridA : OnGrid (instrumentOrderStep instrumentA (arbitrageOrderTypes combination).1) plan.targetBaseQuantity
  onGridB : OnGrid (instrumentOrderStep instrumentB (arbitrageOrderTypes combination).2) plan.targetBaseQuantity
  requested : plan.requestedNotional = max (plan.targetBaseQuantity * legPrice bboA direction .a)
    (plan.targetBaseQuantity * legPrice bboB direction .b)
  withinOrder : plan.requestedNotional ≤ 1000
  withinRemaining : effect ≠ .close → plan.requestedNotional ≤ remaining
  withinCloseable : effect = .close → plan.requestedNotional ≤ claimCloseable combination bboA bboB direction
  withinCloseableBase : effect = .close → plan.targetBaseQuantity ≤ claimCloseableBase combination
  preparedA : ∃ prepared, prepareArbitrageOrder instrumentA (arbitrageOrderTypes combination).1
    (some plan.targetBaseQuantity) (preflightPrice (· / ·) instrumentA (arbitrageOrderTypes combination).1
      (legPrice bboA direction .a)) (some (legPrice bboA direction .a)) (sizedClip effect plan.lastClip) =
    .ok prepared
  preparedB : ∃ prepared, prepareArbitrageOrder instrumentB (arbitrageOrderTypes combination).2
    (some plan.targetBaseQuantity) (preflightPrice (· / ·) instrumentB (arbitrageOrderTypes combination).2
      (legPrice bboB direction .b)) (some (legPrice bboB direction .b)) (sizedClip effect plan.lastClip) =
    .ok prepared

theorem prepareSizedOrder_ok {inst : Instrument} {orderType : OrderType} {qty ref : Decimal} {exec : CloseClip}
    (h : prepareSizedOrder div inst orderType qty ref exec = .ok ()) :
    ∃ prepared, prepareArbitrageOrder inst orderType (some qty)
      (preflightPrice div inst orderType ref) (some ref) exec = .ok prepared := by
  unfold prepareSizedOrder at h
  split at h
  next => cases h
  next prepared hpp => exact ⟨prepared, hpp⟩

/-- In exact arithmetic a plan that is sized can be placed on both legs and stays within its bounds, if a
close is rounded with the steps of the legs' own order types. -/
theorem sized_plan_executable (combination : PairedCombination) (instrumentA instrumentB : Instrument)
    (bboA bboB : BBO) (direction : Direction) (effect : PositionEffect) (remaining random : Decimal)
    (plan : ArbitrageSizePlan) (hown : effect = .close → OwnInstruments combination instrumentA instrumentB)
    (h : sizeArbitrageExecution (· / ·) combination instrumentA instrumentB bboA bboB direction effect remaining
      (claimCloseable combination bboA bboB direction) random = .ok plan) :
    plan.Executable combination instrumentA instrumentB bboA bboB direction effect remaining := by
  obtain ⟨raw, bounded, executable, hbdd, hbase, hfinal, hreq, hlastClip⟩ := sizeArbitrageExecution_ok h
  obtain ⟨hmax, hclose, hopen⟩ := boundedNotional_ok hbdd
  obtain ⟨htgt, hcl⟩ := hbase.finalBase_eq hown hclose hopen hfinal
  have hcost : plan.requestedNotional ≤ bounded := by
    rw [hreq, htgt, ← mul_max_of_nonneg _ _ hbase.positive.le]
    exact hbase.mul_le
  have hgrid := commonQuantityStep_onGrid hbase.step
  refine ⟨?_, ?_, ?_, hreq, hcost.trans hmax, fun hopening => hcost.trans (hopen hopening),
    fun hclos => hcost.trans (hclose hclos).2, ?_, ?_, ?_⟩
  · rw [htgt]
    exact hbase.positive
  · rw [htgt]
    exact hgrid.1.trans hbase.onGrid
  · rw [htgt]
    exact hgrid.2.trans hbase.onGrid
  · rw [htgt]
    exact hcl
  · rw [htgt, hlastClip]
    exact prepareSizedOrder_ok hbase.preparedA
  · rw [htgt, hlastClip]
    exact prepareSizedOrder_ok hbase.preparedB

/-- A spot and a perpetual market of the same symbol, long one hundred on the first and short on the second. -/
def spotPerpetual : PairedCombination where
  status := .running
  executionMode := .simultaneousMarket
  askThresholdBps := some 10
  bidThresholdBps := some 0
  targetNotional := some 1000
  legABasePosition := some 100
  legBBasePosition := some (-100)
  legA := { instrumentID := 1, contractType := .spot, exchangeSymbol := "BTCUSDT" }
  legB := { instrumentID := 2, contractType := .perpetual, exchangeSymbol := "BTCUSDT" }

def spotInstrument (id : Int) : Instrument :=
  { id, contractType := .spot, exchangeSymbol := "BTCUSDT", priceTick := some 1, quantityStep := some 1 }

def perpetualInstrument (id : Int) : Instrument where
  id
  contractType := .perpetual
  exchangeSymbol := "BTCUSDT"
  priceTick := some 1
  quantityStep := some 3
  marketQuantityStep := some 2
  marketQuantityStepStatus := .known

def deepBook : BBO := { bidPrice := some 10, askPrice := some 10, bidQuantity := some 1040, askQuantity := some 1040 }

/-- Instruments without an id are told apart by their symbols only: the perpetual leg is rounded with the step
of its limit orders, and the quantity of the plan cannot be placed as a market order. -/
theorem same_symbol_plan_unplaceable :
    (sizeArbitrageExecution (· / ·) spotPerpetual (spotInstrument 0) (perpetualInstrument 0) deepBook deepBook
      .bid .close 0 (claimCloseable spotPerpetual deepBook deepBook .bid) 0).map (·.targetBaseQuantity) = .ok 51 ∧
    prepareArbitrageOrder (perpetualInstrument 0) (arbitrageOrderTypes spotPerpetual).2 (some 51)
      (preflightPrice (· / ·) (perpetualInstrument 0) (arbitrageOrderTypes spotPerpetual).2
        (legPrice deepBook .bid .b)) (some (legPrice deepBook .bid .b)) (sizedClip .close false) =
      .error (.quantityStep 51 2 .market) := by
  constructor <;> decide +kernel

def closeFiftyTwo : ArbitrageSizePlan where
  direction := .bid
  effect := .close
  reduceOnly := true
  requestedNotional := 520
  targetBaseQuantity := 52
  randomNotional := 0
  hedgeCapNotional := 10400
  legANotional := 520
  legBNotional := 520
  lastClip := false

theorem sized_plan_executable_closeFiftyTwo :
    closeFiftyTwo.Executable spotPerpetual (spotInstrument 1) (perpetualInstrument 2) deepBook deepBook .bid
      .close 0 := by
  have hown : OwnInstruments spotPerpetual (spotInstrument 1) (perpetualInstrument 2) := ⟨rfl, rfl⟩
  exact sized_plan_executable spotPerpetual (spotInstrument 1) (perpetualInstrument 2) deepBook deepBook .bid
    .close 0 0 closeFiftyTwo (fun _ => hown) (by decide +kernel)

end SelfQuant.Trader
