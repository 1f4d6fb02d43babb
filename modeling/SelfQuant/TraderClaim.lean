import Mathlib.Data.Rat.Floor
import Mathlib.Data.Sign.Basic

namespace SelfQuant.Trader

/-- Values of `decimal.Decimal`: sums, products and comparisons of them are exact. -/
abbrev Decimal := ℚ

/-- `Decimal.Div` rounds to sixteen places, halves away from zero. -/
def Decimal.div (d d2 : Decimal) : Decimal :=
  let scaled := d / d2 * 10 ^ 16
  (if scaled < 0 then -(⌊-scaled + 1 / 2⌋ : Decimal) else (⌊scaled + 1 / 2⌋ : Decimal)) / 10 ^ 16

/-- A text that should hold a number, by the number it holds. -/
abbrev DecimalText := Option Decimal

def parseDecimal (value : DecimalText) : Decimal := value.getD 0

def parsePositiveDecimal (value : DecimalText) : Decimal := if 0 < parseDecimal value then parseDecimal value else 0

/-- `ask` buys leg A and sells leg B, `bid` sells leg A and buys leg B. -/
inductive Direction
  | ask
  | bid
  deriving DecidableEq, Repr

inductive OrderSide
  | buy
  | sell
  deriving DecidableEq, Repr

inductive Leg
  | a
  | b
  deriving DecidableEq, Repr

inductive ExecutionMode
  | makerThenHedge
  | simultaneousMarket
  deriving DecidableEq, Repr

inductive CombinationStatus
  | running
  | closing
  | closed
  | failed
  deriving DecidableEq, Repr

inductive RuntimeState
  | monitoring
  | makerOpen
  | makerCanceling
  | repricing
  | opportunityGone
  | hedging
  | hedgeDeferredDust
  | reconciling
  | backoff
  | positionUncertain
  | manualIntervention
  | closing
  deriving DecidableEq, Repr

inductive RunMode
  | spread
  | oneShot
  deriving DecidableEq, Repr

inductive OneShotPhase
  | buildingTarget
  | waitingExit
  | exiting
  | exited
  deriving DecidableEq, Repr

/-- A row of `trader_arbitrage_combinations`; times are in nanoseconds since the epoch. -/
structure ArbitrageCombination where
  status : CombinationStatus
  executionMode : ExecutionMode := .makerThenHedge
  makerLeg : Option Leg := none
  runtimeState : RuntimeState := .monitoring
  runMode : RunMode := .spread
  entryDirection : Option Direction := none
  oneShotPhase : Option OneShotPhase := none
  positionUncertain : Bool := false
  (askThresholdBps bidThresholdBps targetNotional : DecimalText)
  (legABasePosition legBBasePosition : DecimalText := some 0)
  (legAVenueBaselineBasePosition legBVenueBaselineBasePosition : DecimalText := none)
  venueBaselineCapturedAt : Int := 0
  deriving DecidableEq

def arbitrageMinOpenNotional : Decimal := 20

/-- The first of January of year one, which is what `time.Time` starts as. -/
def zeroTime : Int := -62135596800 * 10 ^ 9

namespace ArbitrageCombination

variable (combination : ArbitrageCombination)

def baselineCaptured : Bool :=
  combination.venueBaselineCapturedAt ≠ zeroTime ∧ combination.venueBaselineCapturedAt ≠ 0

/-- What the account held before the combination; nothing is assumed where that was not captured. -/
def venueBaseline (leg : Leg) : Decimal :=
  if combination.baselineCaptured then
    match leg with
    | .a => parseDecimal combination.legAVenueBaselineBasePosition
    | .b => parseDecimal combination.legBVenueBaselineBasePosition
  else 0

def ownedPosition : Leg → Decimal
  | .a => parseDecimal combination.legABasePosition
  | .b => parseDecimal combination.legBBasePosition

def venuePosition (leg : Leg) : Decimal := combination.venueBaseline leg + combination.ownedPosition leg

end ArbitrageCombination

def arbitrageCloseableBase (combination : ArbitrageCombination) : Decimal :=
  let legAAvailable := combination.venuePosition .a
  let legBAvailable := -combination.venuePosition .b
  if 0 < legAAvailable ∧ 0 < legBAvailable then min legAAvailable legBAvailable
  else if legAAvailable < 0 ∧ legBAvailable < 0 then min |legAAvailable| |legBAvailable|
  else 0

def ownedPairedQuantity (ownedA ownedB : Decimal) : Decimal :=
  if ownedA = 0 ∨ ownedB = 0 ∨ SignType.sign ownedA = SignType.sign ownedB then 0
  else min |ownedA| |ownedB|

def arbitrageOwnedCloseableBase (combination : ArbitrageCombination) : Decimal :=
  ownedPairedQuantity (combination.ownedPosition .a) (combination.ownedPosition .b)

def arbitragePairedCloseDirection (legA legB : Decimal) : Option Direction :=
  if 0 < legA ∧ legB < 0 then some .bid
  else if legA < 0 ∧ 0 < legB then some .ask
  else none

def arbitrageOwnedCloseDirection (combination : ArbitrageCombination) : Option Direction :=
  arbitragePairedCloseDirection (combination.ownedPosition .a) (combination.ownedPosition .b)

def arbitrageVenueReduceDirection (combination : ArbitrageCombination) : Option Direction :=
  arbitragePairedCloseDirection (combination.venuePosition .a) (combination.venuePosition .b)

def arbitrageFlattening (combination : ArbitrageCombination) : Bool :=
  combination.status = .closing ∨ (combination.status = .running ∧ combination.runMode = .oneShot ∧
    combination.oneShotPhase = some .exiting)

def arbitrageLegSides : Direction → Leg → OrderSide
  | .ask, .a => .buy
  | .ask, .b => .sell
  | .bid, .a => .sell
  | .bid, .b => .buy

def remainingDirectionNotional (legABase legBBase target midA midB : Decimal) : Decimal :=
  if 0 < target then
    let used := max (|legABase| * midA) (|legBBase| * midB)
    let remaining := target - used
    if remaining < 0 then 0 else remaining
  else 0

def pairedAskNotional (legA legB : Decimal) : Decimal :=
  if 0 < legA ∧ 0 < legB then min legA legB
  else if legA < 0 ∧ legB < 0 then -min |legA| |legB|
  else 0

/-- The first value of `arbitragePositionNotionals`. -/
def arbitrageVenueNotional (combination : ArbitrageCombination) (legAMid legBMid : Decimal) : Decimal :=
  if 0 < legAMid ∧ 0 < legBMid then
    pairedAskNotional (combination.venuePosition .a * legAMid) (-combination.venuePosition .b * legBMid)
  else 0

def spreadBps (first second : Decimal) : Decimal := (Decimal.div second first - 1) * 10000

def calculateArbitrageSpreads (legABid legAAsk legBBid legBAsk : Decimal) : Option (Decimal × Decimal) :=
  if 0 < legABid ∧ 0 < legAAsk ∧ 0 < legBBid ∧ 0 < legBAsk then
    some (spreadBps legAAsk legBAsk, spreadBps legABid legBBid)
  else none

def executableArbitrageSpreads (combination : ArbitrageCombination)
    (legABid legAAsk legBBid legBAsk : Decimal) : Option (Decimal × Decimal) :=
  match combination.executionMode with
  | .simultaneousMarket =>
    if 0 < legABid ∧ 0 < legAAsk ∧ 0 < legBBid ∧ 0 < legBAsk then
      some (spreadBps legAAsk legBBid, spreadBps legABid legBAsk)
    else none
  | .makerThenHedge =>
    match calculateArbitrageSpreads legABid legAAsk legBBid legBAsk with
    | none => none
    | some (quoteAsk, quoteBid) =>
      if combination.makerLeg = some .a then some (quoteBid, quoteAsk) else some (quoteAsk, quoteBid)

def selectArbitragePositionDirection
    (openSpread closeSpread openThreshold closeThreshold position target : Decimal) : Option Direction :=
  if position < target ∧ openThreshold ≤ openSpread then some .ask
  else if closeSpread ≤ closeThreshold then some .bid
  else none

section Lemmas

variable {combination : ArbitrageCombination} {dir : Direction} {legA legB qty : Decimal}

def OrderSide.signed (quantity : Decimal) : OrderSide → Decimal
  | .buy => quantity
  | .sell => -quantity

theorem OrderSide.abs_signed (side : OrderSide) : |side.signed qty| = |qty| := by
  cases side with
  | buy => rfl
  | sell => exact abs_neg qty

/-- The direction to close a pair in is the one whose trades are opposed to both positions. -/
theorem arbitragePairedCloseDirection_eq_some (hq : 0 < qty) :
    arbitragePairedCloseDirection legA legB = some dir ↔
      legA * (arbitrageLegSides dir .a).signed qty < 0 ∧ legB * (arbitrageLegSides dir .b).signed qty < 0 := by
  unfold arbitragePairedCloseDirection
  cases dir with
  | ask =>
    simp only [arbitrageLegSides, OrderSide.signed, mul_neg, neg_lt_zero, mul_pos_iff_of_pos_right hq,
      mul_neg_iff, hq, hq.not_gt, and_true, and_false, false_or]
    split_ifs with hln hsh
    · simp only [Option.some.injEq, reduceCtorEq, false_iff, not_and]
      exact fun hneg => absurd hneg hln.1.not_gt
    · simp only [hsh, and_self]
    · simp only [false_iff]
      exact hsh
  | bid =>
    simp only [arbitrageLegSides, OrderSide.signed, mul_neg, neg_lt_zero, mul_pos_iff_of_pos_right hq,
      mul_neg_iff, hq, hq.not_gt, and_true, and_false, false_or]
    split_ifs with hln hsh
    · simp only [hln, and_self]
    · simp only [Option.some.injEq, reduceCtorEq, false_iff, not_and]
      exact fun hpos => absurd hpos hsh.1.not_gt
    · simp only [false_iff]
      exact hln

theorem arbitrageCloseableBase_le (leg : Leg) :
    arbitrageCloseableBase combination ≤ |combination.venuePosition leg| := by
  dsimp only [arbitrageCloseableBase]
  split_ifs with hln hsh
  · cases leg with
    | a => exact (min_le_left _ _).trans (le_abs_self _)
    | b => exact (min_le_right _ _).trans (neg_le_abs _)
  · rw [abs_neg]
    cases leg with
    | a => exact min_le_left _ _
    | b => exact min_le_right _ _
  · exact abs_nonneg _

end Lemmas

/-- The column `position_effect`; `unset` is the empty text, which counts as `open`. -/
inductive PositionEffect
  | unset
  | open
  | close
  deriving DecidableEq, Repr

/-- A row of `trader_arbitrage_executions`, as the scheduler asks for it. -/
structure ArbitrageExecution where
  direction : Direction
  positionEffect : PositionEffect
  reduceOnly : Bool
  (requestedNotional targetBaseQuantity triggerLegABid triggerLegAAsk triggerLegBBid : DecimalText)
  triggerLegBAsk : DecimalText
  deriving DecidableEq

namespace ArbitrageExecution

variable (execution : ArbitrageExecution)

def requested : Decimal := parsePositiveDecimal execution.requestedNotional

def targetBase : Decimal := parsePositiveDecimal execution.targetBaseQuantity

def legABid : Decimal := parsePositiveDecimal execution.triggerLegABid

def legAAsk : Decimal := parsePositiveDecimal execution.triggerLegAAsk

def legBBid : Decimal := parsePositiveDecimal execution.triggerLegBBid

def legBAsk : Decimal := parsePositiveDecimal execution.triggerLegBAsk

/-- Both legs are valued at the bids where the direction is `bid`, although leg B is bought then. -/
def priceA : Decimal :=
  match execution.direction with
  | .ask => execution.legAAsk
  | .bid => execution.legABid

def priceB : Decimal :=
  match execution.direction with
  | .ask => execution.legBAsk
  | .bid => execution.legBBid

def notionalOf (quantity : Decimal) : Decimal := max (quantity * execution.priceA) (quantity * execution.priceB)

def implied : Decimal := execution.notionalOf execution.targetBase

def midA : Decimal :=
  let mid := Decimal.div (execution.legABid + execution.legAAsk) 2
  if 0 < mid then mid else execution.priceA

def midB : Decimal :=
  let mid := Decimal.div (execution.legBBid + execution.legBAsk) 2
  if 0 < mid then mid else execution.priceB

def opening : Bool := execution.positionEffect = .open ∨ execution.positionEffect = .unset

def within (limit : Decimal) : Bool := execution.requested ≤ limit ∧ execution.implied ≤ limit

end ArbitrageExecution

/-- What the transaction reads: the locked row of the combination, if there is one, whether one of its
orders is live, and whether the insertion meets a unique index. -/
structure ClaimTables where
  combination : Option ArbitrageCombination
  (hasLiveOrder conflict : Bool := false)

section Checks

variable (combo : ArbitrageCombination) (execution : ArbitrageExecution)

def admitsState : Bool :=
  if combo.positionUncertain then false
  else if combo.runtimeState = .manualIntervention then false
  else if arbitrageFlattening combo then execution.positionEffect = .close ∧ execution.reduceOnly
  else if combo.status ≠ .running then false
  else ¬(combo.runMode = .oneShot ∧ (combo.oneShotPhase = some .waitingExit ∨ combo.oneShotPhase = some .exited))

def admitsOpening : Bool :=
  let remaining := remainingDirectionNotional (combo.ownedPosition .a) (combo.ownedPosition .b)
    (parsePositiveDecimal combo.targetNotional) execution.midA execution.midB
  arbitrageMinOpenNotional ≤ remaining ∧ execution.within remaining

def flatteningCloseableBase : Decimal := min (arbitrageOwnedCloseableBase combo) (arbitrageCloseableBase combo)

def admitsFlattening : Bool :=
  arbitrageOwnedCloseDirection combo = some execution.direction ∧
    arbitrageVenueReduceDirection combo = some execution.direction ∧
    0 < flatteningCloseableBase combo ∧ execution.targetBase ≤ flatteningCloseableBase combo ∧
    execution.within (execution.notionalOf (flatteningCloseableBase combo))

/-- The direction of the execution is not looked at here. -/
def admitsRunningClose : Bool :=
  execution.within (if 0 < arbitrageCloseableBase combo then
    execution.notionalOf (arbitrageCloseableBase combo) else 0)

def admitsSize : Bool :=
  if execution.opening then admitsOpening combo execution
  else if arbitrageFlattening combo then admitsFlattening combo execution
  else admitsRunningClose combo execution

end Checks

def claimArbitrageExecution (tables : ClaimTables) (execution : ArbitrageExecution) : Option ArbitrageExecution :=
  match tables.combination with
  | none => none
  | some combo =>
    if !admitsState combo execution then none
    else if execution.requested ≤ 0 ∨ execution.targetBase ≤ 0 then none
    else if execution.priceA ≤ 0 ∨ execution.priceB ≤ 0 then none
    else if !admitsSize combo execution then none
    else if tables.hasLiveOrder then none
    else if tables.conflict then none
    else some execution

section Inversion

variable {tables : ClaimTables} {combo : ArbitrageCombination} {execution claimed : ArbitrageExecution}
  {qty : Decimal}

theorem claimed_cases (hrow : tables.combination = some combo)
    (h : claimArbitrageExecution tables execution = some claimed) :
    admitsState combo execution ∧ 0 < execution.targetBase ∧ 0 < execution.priceA ∧
      0 < execution.priceB ∧ admitsSize combo execution ∧ claimed = execution := by
  unfold claimArbitrageExecution at h
  rw [hrow] at h
  dsimp only at h
  split_ifs at h with hst hsz hpx hadm hlv hconflict
  simp only [Bool.not_eq_true', Bool.not_eq_false] at hst hadm
  obtain ⟨-, htgt⟩ := not_or.mp hsz
  obtain ⟨ha, hb⟩ := not_or.mp hpx
  exact ⟨hst, not_le.mp htgt, not_le.mp ha, not_le.mp hb, hadm, (Option.some.inj h).symm⟩

theorem le_of_notionalOf_le {bound : Decimal} (ha : 0 < execution.priceA) (hb : 0 < execution.priceB)
    (h : execution.notionalOf qty ≤ execution.notionalOf bound) : qty ≤ bound := by
  obtain ⟨hqa, hqb⟩ := max_le_iff.mp h
  rcases le_max_iff.mp (le_refl (execution.notionalOf bound)) with hle | hle
  · exact le_of_mul_le_mul_right (hqa.trans hle) ha
  · exact le_of_mul_le_mul_right (hqb.trans hle) hb

theorem targetBase_le_of_running (ht : 0 < execution.targetBase) (ha : 0 < execution.priceA)
    (hb : 0 < execution.priceB) (h : admitsRunningClose combo execution) :
    execution.targetBase ≤ arbitrageCloseableBase combo := by
  simp only [admitsRunningClose, ArbitrageExecution.within, decide_eq_true_eq] at h
  obtain ⟨-, himplied⟩ := h
  split_ifs at himplied with hpos
  · exact le_of_notionalOf_le ha hb himplied
  · have hvl : 0 < execution.targetBase * execution.priceA := mul_pos ht ha
    have hle : execution.targetBase * execution.priceA ≤ 0 := (le_max_left _ _).trans himplied
    exact absurd hvl (not_lt.mpr hle)

/-- A close that is let through trades at most what can be closed, and in the right direction while the
combination is wound down. -/
theorem claimed_close (hrow : tables.combination = some combo)
    (h : claimArbitrageExecution tables execution = some claimed)
    (hcls : execution.positionEffect = .close) :
    0 < execution.targetBase ∧ execution.targetBase ≤ arbitrageCloseableBase combo ∧
      (arbitrageFlattening combo → arbitrageVenueReduceDirection combo = some execution.direction) := by
  obtain ⟨-, htgt, ha, hb, hadm, -⟩ := claimed_cases hrow h
  have hopening : execution.opening = false := by
    simp only [ArbitrageExecution.opening, hcls, reduceCtorEq, or_self, decide_false]
  unfold admitsSize at hadm
  rw [hopening, if_neg Bool.false_ne_true] at hadm
  refine ⟨htgt, ?_⟩
  split_ifs at hadm with hfla
  · simp only [admitsFlattening, decide_eq_true_eq] at hadm
    obtain ⟨-, hven, -, hle, -⟩ := hadm
    exact ⟨hle.trans (min_le_right _ _), fun _ => hven⟩
  · exact ⟨targetBase_le_of_running htgt ha hb hadm, fun hf => absurd hf hfla⟩

end Inversion

section Failures

open List

/-- The columns of a combination that count its failures; `next_retry_at` in seconds after the failure, unless it is
`infinity`. -/
structure FailureRow where
  (consecutiveFailures repeatedFailureCount : ℕ := 0)
  lastFailureKey : String := ""
  circuitOpen : Bool := false
  nextRetry : Option ℕ := some 0
  runtimeState : RuntimeState := .monitoring

/-- The update of a running combination, none when a value leaves the range of `int4`. -/
def recordArbitrageFailure (row : FailureRow) (failureKey : String) : Option FailureRow :=
  let repeats := row.lastFailureKey = failureKey ∧ 5 ≤ row.repeatedFailureCount + 1
  let updated := { row with
    consecutiveFailures := row.consecutiveFailures + 1
    repeatedFailureCount := if row.lastFailureKey = failureKey then row.repeatedFailureCount + 1 else 1
    lastFailureKey := failureKey
    circuitOpen := row.circuitOpen || repeats }
  if 2 ^ 31 ≤ row.consecutiveFailures + 1 then none
  else if row.circuitOpen ∨ repeats then some { updated with nextRetry := none, runtimeState := .manualIntervention }
  -- the cast comes before the clamp
  else if 2 ^ 31 ≤ 2 * 2 ^ row.consecutiveFailures then none
  else some { updated with nextRetry := some (min 60 (2 * 2 ^ row.consecutiveFailures)), runtimeState := .backoff }

def recordFailures (keys : List String) : Option FailureRow := keys.foldlM recordArbitrageFailure {}

def FiveInARow (keys : List String) : Prop := ∃ key, replicate 5 key <:+: keys

structure FailureRow.Counts (keys : List String) (row : FailureRow) : Prop where
  consecutive : row.consecutiveFailures = keys.length
  repeated : ∀ n key, replicate n key <:+ keys ↔ n = 0 ∨ key = row.lastFailureKey ∧ n ≤ row.repeatedFailureCount
  circuit : row.circuitOpen ↔ FiveInARow keys
  retry : ¬FiveInARow keys → keys ≠ [] → row.nextRetry = some (min 60 (2 ^ keys.length))

variable {keys : List String} {key : String} {row row' : FailureRow}

theorem replicate_suffix_concat {n : ℕ} {other : String} :
    replicate n other <:+ keys ++ [key] ↔ n = 0 ∨ other = key ∧ replicate (n - 1) other <:+ keys := by
  cases n with
  | zero => simp
  | succ n => simp [replicate_succ', suffix_concat_iff, append_singleton_inj, and_comm]

namespace FailureRow.Counts

variable (h : row.Counts keys)

include h

theorem fiveInARow_concat :
    FiveInARow (keys ++ [key]) ↔ row.circuitOpen ∨ row.lastFailureKey = key ∧ 5 ≤ row.repeatedFailureCount + 1 := by
  rw [h.circuit]
  constructor
  · rintro ⟨other, hfive⟩
    rcases infix_concat_iff.mp hfive with hend | hin
    · obtain hz | ⟨rfl, hsuffix⟩ := replicate_suffix_concat.mp hend
      · cases hz
      · have := (h.repeated _ _).mp hsuffix
        right
        grind
    · exact .inl ⟨other, hin⟩
  · rintro (⟨other, hin⟩ | ⟨rfl, hcnt⟩)
    · exact ⟨other, hin.trans (prefix_append _ _).isInfix⟩
    · refine ⟨row.lastFailureKey, (replicate_suffix_concat.mpr (.inr ⟨rfl, ?_⟩)).isInfix⟩
      exact (h.repeated _ _).mpr (.inr ⟨rfl, by omega⟩)

theorem record_counts (hrow : recordArbitrageFailure row key = some row') : row'.Counts (keys ++ [key]) := by
  have hfive := @fiveInARow_concat _ key _ h
  have hlen := h.consecutive
  have hrepeated : ∀ n other, replicate n other <:+ keys ++ [key] ↔ n = 0 ∨ other = key ∧
      n ≤ if row.lastFailureKey = key then row.repeatedFailureCount + 1 else 1 := by
    intro n other
    rw [replicate_suffix_concat, h.repeated]
    grind
  unfold recordArbitrageFailure at hrow
  dsimp only at hrow
  split at hrow
  next => cases hrow
  split at hrow
  next hop =>
    cases hrow
    exact ⟨by simp [hlen], hrepeated, by simp [hfive], fun hnot => absurd (hfive.mpr hop) hnot⟩
  split at hrow
  next => cases hrow
  cases hrow
  refine ⟨by simp [hlen], hrepeated, by simp [hfive], fun _ _ => ?_⟩
  simp only [length_append, length_singleton, hlen, pow_succ']

theorem record_isSome : (recordArbitrageFailure row key).isSome ↔
    keys.length + 1 < 2 ^ 31 ∧ (keys.length < 30 ∨ FiveInARow (keys ++ [key])) := by
  have hcast : 2 ^ 31 ≤ 2 * 2 ^ keys.length ↔ 30 ≤ keys.length := by
    rw [← pow_succ', Nat.pow_le_pow_iff_right (by norm_num)]
    omega
  simp only [recordArbitrageFailure, h.consecutive, hcast, h.fiveInARow_concat, apply_ite Option.isSome,
    Option.isSome_none, Option.isSome_some]
  grind

end FailureRow.Counts

theorem recordFailures_concat :
    recordFailures (keys ++ [key]) = (recordFailures keys).bind (recordArbitrageFailure · key) := by
  simp [recordFailures, foldlM_append]

theorem counts_of_run (hrun : recordFailures keys = some row) : row.Counts keys := by
  induction keys using reverseRecOn generalizing row with
  | nil =>
    cases hrun
    exact ⟨rfl, by simp, by simp [FiveInARow], fun _ h => absurd rfl h⟩
  | append_singleton keys key ih =>
    rw [recordFailures_concat] at hrun
    obtain ⟨before, hbefore, hrow⟩ := Option.bind_eq_some_iff.mp hrun
    exact (ih hbefore).record_counts hrow

/-- Failures are recorded, the circuit opens on the fifth in a row and until then the delay doubles, exactly for at
most thirty of them or a circuit that opens by the next. -/
theorem failures_recorded_iff (keys : List String) :
    (∃ row, recordFailures keys = some row ∧ row.Counts keys) ↔
      keys.length ≤ 30 ∨ FiveInARow (keys.take 31) ∧ keys.length < 2 ^ 31 := by
  suffices hsome : (recordFailures keys).isSome ↔ keys.length ≤ 30 ∨ FiveInARow (keys.take 31) ∧ keys.length < 2 ^ 31 by
    rw [← hsome, Option.isSome_iff_exists]
    exact exists_congr fun row => and_iff_left_of_imp counts_of_run
  induction keys using reverseRecOn with
  | nil => simp [recordFailures]
  | append_singleton keys key ih =>
    have hstep : (recordFailures (keys ++ [key])).isSome ↔ (recordFailures keys).isSome ∧
        keys.length + 1 < 2 ^ 31 ∧ (keys.length < 30 ∨ FiveInARow (keys ++ [key])) := by
      rw [recordFailures_concat]
      cases hrun : recordFailures keys with
      | none => simp
      | some row => simp [(counts_of_run hrun).record_isSome]
    have hmono : FiveInARow (keys.take 31) → FiveInARow (keys ++ [key]) := by
      rintro ⟨other, hin⟩
      exact ⟨other, hin.trans ((keys.take_prefix 31).trans (keys.prefix_append [key])).isInfix⟩
    rw [hstep, ih, length_append, length_singleton]
    -- the 31st failure is the last that can open the circuit in time
    rcases lt_or_ge keys.length 31 with hlt | hge
    · have hall : (keys ++ [key]).take 31 = keys ++ [key] := take_of_length_le (by simp; omega)
      grind
    · rw [take_append_of_le_length hge]
      grind

theorem failure_unrecorded : recordFailures ((replicate 15 ["a", "b"]).flatten ++ ["a"]) = none := by
  rw [← Option.isNone_iff_eq_none]
  decide +kernel

end Failures

end SelfQuant.Trader
