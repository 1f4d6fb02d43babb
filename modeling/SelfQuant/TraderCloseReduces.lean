import SelfQuant.TowardsZero
import SelfQuant.TraderClaim

namespace SelfQuant.Trader

/-- The choice in `ArbitrageScheduler.evaluate` for a combination that is not wound down, once the quotes
are fresh and nothing locks it. -/
def evaluateSignal (combination : ArbitrageCombination) (aBid aAsk bBid bAsk : Decimal) :
    Option (Direction × PositionEffect) :=
  match executableArbitrageSpreads combination aBid aAsk bBid bAsk with
  | none => none
  | some (ask, bid) =>
    let legAMid := Decimal.div (aBid + aAsk) 2
    let legBMid := Decimal.div (bBid + bAsk) 2
    let target := parseDecimal combination.targetNotional
    let remaining := remainingDirectionNotional (combination.ownedPosition .a)
      (combination.ownedPosition .b) target legAMid legBMid
    if combination.runMode = .oneShot then
      if combination.oneShotPhase = some .waitingExit then none
      else if remaining < arbitrageMinOpenNotional then none
      else combination.entryDirection.map (·, .open)
    else
      match selectArbitragePositionDirection ask bid (parseDecimal combination.askThresholdBps)
        (parseDecimal combination.bidThresholdBps) (arbitrageVenueNotional combination legAMid legBMid)
        target with
      | none => none
      | some .ask => some (.ask, .open)
      -- Whether there is a pair to sell is left to the sizing and to the claim.
      | some .bid => some (.bid, .close)

namespace ArbitrageCombination

def traded (combination : ArbitrageCombination) (execution : ArbitrageExecution) : ArbitrageCombination :=
  { combination with
    legABasePosition := some (combination.ownedPosition .a +
      (arbitrageLegSides execution.direction .a).signed execution.targetBase)
    legBBasePosition := some (combination.ownedPosition .b +
      (arbitrageLegSides execution.direction .b).signed execution.targetBase) }

def ReducedBy (combination : ArbitrageCombination) (execution : ArbitrageExecution) : Prop :=
  ∀ leg, TowardsZero (combination.venuePosition leg) ((combination.traded execution).venuePosition leg)

end ArbitrageCombination

open ArbitrageCombination

variable {tables : ClaimTables} {combo last : ArbitrageCombination} {execution claimed : ArbitrageExecution}

theorem venuePosition_traded (leg : Leg) : (combo.traded execution).venuePosition leg =
    combo.venuePosition leg + (arbitrageLegSides execution.direction leg).signed execution.targetBase := by
  cases leg with
  | a | b => exact (add_assoc _ _ _).symm

theorem reducedBy_iff (hpos : 0 < execution.targetBase)
    (hle : execution.targetBase ≤ arbitrageCloseableBase combo) : combo.ReducedBy execution ↔
      arbitrageVenueReduceDirection combo = some execution.direction := by
  have hst (leg : Leg) :
      TowardsZero (combo.venuePosition leg) ((combo.traded execution).venuePosition leg) ↔
        combo.venuePosition leg * (arbitrageLegSides execution.direction leg).signed execution.targetBase < 0 := by
    have hhd : |(arbitrageLegSides execution.direction leg).signed execution.targetBase| ≤
        |combo.venuePosition leg| := by
      rw [OrderSide.abs_signed, abs_of_pos hpos]
      exact hle.trans (arbitrageCloseableBase_le leg)
    rw [venuePosition_traded]
    exact TowardsZero.add_iff hhd
  unfold arbitrageVenueReduceDirection
  rw [arbitragePairedCloseDirection_eq_some hpos]
  constructor
  · intro h
    exact ⟨(hst .a).mp (h .a), (hst .b).mp (h .b)⟩
  · rintro ⟨ha, hb⟩ leg
    cases leg with
    | a => exact (hst .a).mpr ha
    | b => exact (hst .b).mpr hb

/-- A claimed close reduces both legs while the combination is wound down; while it is running, it does so
if and only if its direction is the one that closes the pair. -/
theorem claimed_close_reduces (hrow : tables.combination = some combo)
    (h : claimArbitrageExecution tables execution = some claimed)
    (hclose : execution.positionEffect = .close) : combo.ReducedBy execution ↔
      arbitrageFlattening combo ∨ arbitrageVenueReduceDirection combo = some execution.direction := by
  obtain ⟨hpos, hle, hflat⟩ := claimed_close hrow h hclose
  rw [reducedBy_iff hpos hle]
  constructor
  · exact .inr
  · rintro (hf | hd)
    · exact hflat hf
    · exact hd

def windingDown : ArbitrageCombination :=
  { status := .closing, askThresholdBps := some 10, bidThresholdBps := some (-10),
    targetNotional := some 1000, legABasePosition := some 5, legBBasePosition := some (-5) }

def shortBaseline : ArbitrageCombination :=
  { status := .running, askThresholdBps := some 10, bidThresholdBps := some (-10),
    targetNotional := some 1000, legAVenueBaselineBasePosition := some (-10),
    legBVenueBaselineBasePosition := some 10, venueBaselineCapturedAt := 1 }

def closeOne : ArbitrageExecution :=
  { direction := .bid, positionEffect := .close, reduceOnly := true, requestedNotional := some 100,
    targetBaseQuantity := some 1, triggerLegABid := some 100, triggerLegAAsk := some 101,
    triggerLegBBid := some 99, triggerLegBAsk := some 100 }

theorem claimed_close_reduces_windingDown : windingDown.ReducedBy closeOne := by
  have hrow : (ClaimTables.mk (some windingDown) false false).combination = some windingDown := rfl
  exact (claimed_close_reduces hrow (show _ = some closeOne by decide +kernel) rfl).mpr (.inl (by decide +kernel))

/-- The scheduler closes with a bid, the claim is let through, and both legs are further from zero than
before. -/
theorem short_pair_close_enlarges :
    evaluateSignal shortBaseline 100 101 99 100 = some (.bid, .close) ∧
      claimArbitrageExecution ⟨some shortBaseline, false, false⟩ closeOne = some closeOne ∧
      (shortBaseline.venuePosition .a, shortBaseline.venuePosition .b) = (-10, 10) ∧
      ((shortBaseline.traded closeOne).venuePosition .a, (shortBaseline.traded closeOne).venuePosition .b) =
        (-11, 11) ∧
      ¬shortBaseline.ReducedBy closeOne := by
  refine ⟨by decide +kernel, by decide +kernel, by decide +kernel, by decide +kernel, fun h => ?_⟩
  exact absurd (h .a) (by decide +kernel)

/-- Closes that are claimed while a combination is wound down and then filled, one after the other. In
between, everything about the combination may change but the positions of its legs. -/
inductive WindDown : ArbitrageCombination → ArbitrageCombination → Prop
  | one {tables : ClaimTables} {combo : ArbitrageCombination} {execution claimed : ArbitrageExecution}
      (hrow : tables.combination = some combo) (hflat : arbitrageFlattening combo)
      (h : claimArbitrageExecution tables execution = some claimed) :
      WindDown combo (combo.traded execution)
  | next {first last combo : ArbitrageCombination} {tables : ClaimTables}
      {execution claimed : ArbitrageExecution} (run : WindDown first last)
      (same : combo.venuePosition = last.venuePosition) (hrow : tables.combination = some combo)
      (hflat : arbitrageFlattening combo)
      (h : claimArbitrageExecution tables execution = some claimed) :
      WindDown first (combo.traded execution)

section

variable (hrow : tables.combination = some combo) (hflat : arbitrageFlattening combo)
  (h : claimArbitrageExecution tables execution = some claimed)

include hrow hflat h

theorem close_of_flattening : execution.positionEffect = .close := by
  have hst := (claimed_cases hrow h).1
  unfold admitsState at hst
  split_ifs at hst
  exact (of_decide_eq_true hst).1

theorem flattening_reduces : combo.ReducedBy execution := by
  obtain ⟨hpos, hle, hdir⟩ := claimed_close hrow h (close_of_flattening hrow hflat h)
  exact (reducedBy_iff hpos hle).mpr (hdir hflat)

end

/-- However many closes it takes, winding down never opens a reverse position. -/
theorem windDown_towardsZero (run : WindDown combo last) (leg : Leg) :
    TowardsZero (combo.venuePosition leg) (last.venuePosition leg) := by
  induction run with
  | one hrow hflat h => exact flattening_reduces hrow hflat h leg
  | next _ same hrow hflat h ih =>
    have hst := flattening_reduces hrow hflat h leg
    rw [congrFun same leg] at hst
    exact ih.trans hst

theorem windDown_windingDown : TowardsZero (windingDown.venuePosition .a)
    (((windingDown.traded closeOne).traded closeOne).venuePosition .a) := by
  have hrow (combo) : (ClaimTables.mk (some combo) false false).combination = some combo := rfl
  refine windDown_towardsZero (.next (.one (hrow _) ?_ (show _ = some closeOne from ?_)) rfl (hrow _) ?_
    (show _ = some closeOne from ?_)) .a <;> decide +kernel

end SelfQuant.Trader
