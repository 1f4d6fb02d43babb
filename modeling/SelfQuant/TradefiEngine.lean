import SelfQuant.StepAlong
import SelfQuant.TowardsZero
import Mathlib.Data.List.Dedup

namespace SelfQuant.Tradefi

open List Int

/-- A leg that passes `leg_ok`. -/
structure LegSpec where
  multiplier : Int
  multiplierScale : Nat
  (minNative lot maxPosition : Int)
  multiplier_pos : 0 < multiplier
  scale_le : multiplierScale ≤ 18
  min_pos : 0 < minNative
  lot_pos : 0 < lot
  lot_dvd : lot ∣ minNative

namespace LegSpec

def scaledProduct (leg : LegSpec) (native : Int) : Int := (native * leg.multiplier).tdiv (10 ^ leg.multiplierScale)

/-- Zero where scaling the delta would overflow. -/
def hedgeNativeFor (leg : LegSpec) (netDelta : Int) : Int :=
  if leg.multiplierScale ≠ 0 ∧ netDelta ≠ 0 ∧ (2 ^ 63 - 1) / |netDelta| < 10 ^ leg.multiplierScale then 0
  else
    let raw := (-netDelta * 10 ^ leg.multiplierScale).tdiv leg.multiplier
    let aligned := raw.tdiv leg.lot * leg.lot
    if |aligned| < leg.minNative then 0 else aligned

/-- What the scale cuts off the two products adds up to less than one, and not against their sum. -/
def AddsUp (leg : LegSpec) (native quantity : Int) : Prop :=
  let cut := (native * leg.multiplier).tmod (10 ^ leg.multiplierScale) +
    (quantity * leg.multiplier).tmod (10 ^ leg.multiplierScale)
  |cut| < 10 ^ leg.multiplierScale ∧ 0 ≤ cut * (native + quantity)

variable {leg : LegSpec} {netDelta : Int}

theorem tdiv_eq_iff {k x q : Int} (hk : 0 < k) : x.tdiv k = q ↔ |x - k * q| < k ∧ 0 ≤ (x - k * q) * x := by
  wlog hx : 0 ≤ x generalizing x q
  · have hneg := @this (-x) (-q) (by omega)
    have hopp : -x - k * -q = -(x - k * q) := by linarith
    rwa [Int.neg_tdiv, neg_inj, hopp, abs_neg, neg_mul_neg] at hneg
  rw [tdiv_eq_ediv_of_nonneg hx, Int.ediv_eq_iff_of_pos hk, abs_lt]
  constructor
  · rintro ⟨hlow, hhigh⟩
    exact ⟨⟨by linarith, by linarith⟩, mul_nonneg (by linarith) hx⟩
  · rintro ⟨⟨hlow, hhigh⟩, hsame⟩
    refine ⟨?_, by linarith⟩
    by_contra hcut
    have hzero : x = 0 := by nlinarith
    have hq : 0 < q := by nlinarith
    nlinarith

theorem scaledProduct_add_iff {native quantity : Int} : leg.scaledProduct (native + quantity) =
    leg.scaledProduct native + leg.scaledProduct quantity ↔ leg.AddsUp native quantity := by
  have hk : (0 : Int) < 10 ^ leg.multiplierScale := by positivity
  have hnative := Int.mul_tdiv_add_tmod (native * leg.multiplier) (10 ^ leg.multiplierScale)
  have hquantity := Int.mul_tdiv_add_tmod (quantity * leg.multiplier) (10 ^ leg.multiplierScale)
  have hcut : (native + quantity) * leg.multiplier -
        10 ^ leg.multiplierScale * (leg.scaledProduct native + leg.scaledProduct quantity) =
      (native * leg.multiplier).tmod (10 ^ leg.multiplierScale) +
        (quantity * leg.multiplier).tmod (10 ^ leg.multiplierScale) := by
    unfold scaledProduct
    linarith
  rw [scaledProduct, tdiv_eq_iff hk, hcut, AddsUp, ← mul_assoc]
  exact and_congr_right fun _ => mul_nonneg_iff_of_pos_right leg.multiplier_pos

theorem scaledProduct_neg (native : Int) : leg.scaledProduct (-native) = -leg.scaledProduct native := by
  rw [scaledProduct, neg_mul, Int.neg_tdiv, scaledProduct]

theorem hedgeNativeFor_neg : leg.hedgeNativeFor (-netDelta) = -leg.hedgeNativeFor netDelta := by
  simp only [hedgeNativeFor, abs_neg, neg_ne_zero, neg_mul, Int.neg_tdiv]
  split
  next => rfl
  next => split <;> rfl

theorem hedgeNativeFor_spec (hmin : 0 < leg.scaledProduct leg.minNative) (h : leg.hedgeNativeFor netDelta ≠ 0) :
    leg.lot ∣ leg.hedgeNativeFor netDelta ∧ leg.minNative ≤ |leg.hedgeNativeFor netDelta| ∧
      TowardsZero netDelta (netDelta + leg.scaledProduct (leg.hedgeNativeFor netDelta)) := by
  wlog hneg : netDelta ≤ 0 generalizing netDelta
  · -- the other sign by symmetry
    have hodd := @this (-netDelta) (by rwa [hedgeNativeFor_neg, neg_ne_zero]) (by omega)
    rw [hedgeNativeFor_neg, dvd_neg, abs_neg, scaledProduct_neg] at hodd
    exact ⟨hodd.1, hodd.2.1, hodd.2.2.symm.imp (fun h => by omega) fun h => by omega⟩
  have hm := leg.multiplier_pos
  have hfac : (0 : Int) < 10 ^ leg.multiplierScale := by positivity
  unfold hedgeNativeFor at h ⊢
  split at h
  next => exact absurd rfl h
  next hft =>
  rw [if_neg hft]
  dsimp only at h ⊢
  split at h
  next => exact absurd rfl h
  next hlrg =>
  rw [if_neg hlrg]
  have hraw : 0 ≤ -netDelta * 10 ^ leg.multiplierScale := mul_nonneg (by omega) hfac.le
  rw [tdiv_eq_ediv_of_nonneg hraw, tdiv_eq_ediv_of_nonneg (ediv_nonneg hraw hm.le)] at hlrg ⊢
  have hle := Int.ediv_mul_le (-netDelta * 10 ^ leg.multiplierScale / leg.multiplier) leg.lot_pos.ne'
  have hcovered := Int.ediv_mul_le (-netDelta * 10 ^ leg.multiplierScale) hm.ne'
  have hnn := mul_nonneg (ediv_nonneg (ediv_nonneg hraw hm.le) leg.lot_pos.le) leg.lot_pos.le
  refine ⟨dvd_mul_left _ _, not_lt.mp hlrg, .inr ?_⟩
  rw [abs_of_nonneg hnn, not_lt] at hlrg
  generalize -netDelta * 10 ^ leg.multiplierScale / leg.multiplier / leg.lot * leg.lot = quantity at *
  have hproduct := mul_le_mul_of_nonneg_right hlrg hm.le
  rw [scaledProduct, tdiv_eq_ediv_of_nonneg (mul_nonneg leg.min_pos.le hm.le)] at hmin
  rw [scaledProduct, tdiv_eq_ediv_of_nonneg (mul_nonneg hnn hm.le)]
  have hmo := Int.ediv_le_ediv hfac hproduct
  have hls := Int.ediv_le_of_le_mul hfac ((mul_le_mul_of_nonneg_right hle hm.le).trans hcovered)
  exact ⟨by omega, by omega⟩

end LegSpec

/-- What `start` asks of the tolerance and the minimum order of each leg. -/
structure PairSpec where
  (maker hedge : LegSpec)
  deltaTolerance : Int
  tolerance_nonneg : 0 ≤ deltaTolerance
  lt_maker : deltaTolerance < maker.scaledProduct maker.minNative
  lt_hedge : deltaTolerance < hedge.scaledProduct hedge.minNative

inductive HedgeAction
  | accept | hedge | unwind | halt
  deriving DecidableEq

structure HedgePlan where
  action : HedgeAction
  nativeQuantity : Int := 0
  residual : Int

inductive Phase
  | waitingFreshBbo | quoting | hedgePending | emergencyUnwind | halted
  | other
  deriving DecidableEq

structure Engine where
  spec : PairSpec
  (makerNative hedgeNative : Int)
  phase : Phase := .quoting
  fresh : Bool := true

namespace Engine

variable (e : Engine)

def netDelta : Int := e.spec.maker.scaledProduct e.makerNative + e.spec.hedge.scaledProduct e.hedgeNative

def plan : HedgePlan :=
  if |e.netDelta| ≤ e.spec.deltaTolerance then { action := .accept, residual := e.netDelta }
  else
    let hedgeNative := e.spec.hedge.hedgeNativeFor e.netDelta
    if e.phase ≠ .emergencyUnwind ∧ hedgeNative ≠ 0 then
      let hedgeChange := e.spec.hedge.scaledProduct hedgeNative
      if e.spec.hedge.maxPosition < |e.spec.hedge.scaledProduct e.hedgeNative + hedgeChange| then
        { action := .halt, residual := e.netDelta }
      else { action := .hedge, nativeQuantity := hedgeNative, residual := e.netDelta + hedgeChange }
    else
      let unwindNative := e.spec.maker.hedgeNativeFor e.netDelta
      if unwindNative ≠ 0 then
        { action := .unwind, nativeQuantity := unwindNative
          residual := e.netDelta + e.spec.maker.scaledProduct unwindNative }
      else { action := .halt, residual := e.netDelta }

def onMakerFill (signedNative : Int) : Engine :=
  let e := { e with makerNative := e.makerNative + signedNative }
  if e.phase = .halted then e
  else
    { e with phase :=
        match e.plan.action with
        | .hedge => .hedgePending
        | .unwind => .emergencyUnwind
        | .halt => .halted
        | .accept => if e.fresh then .quoting else e.phase }

def onHedgeFill (signedNative : Int) : Engine := { e with hedgeNative := e.hedgeNative + signedNative }

def noteHalted : Engine := { e with phase := .halted }

theorem onMakerFill_native (signedNative : Int) :
    (e.onMakerFill signedNative).makerNative = e.makerNative + signedNative ∧
    (e.onMakerFill signedNative).hedgeNative = e.hedgeNative ∧ (e.onMakerFill signedNative).spec = e.spec := by
  unfold onMakerFill
  dsimp only
  split <;> exact ⟨rfl, rfl, rfl⟩

/-- A fill of a quantity on one leg does to the exposure what the plan says of it. -/
structure Shrinks (e : Engine) (leg : LegSpec) (native : Int) (filled : Engine) (plan : HedgePlan) : Prop where
  lots : leg.lot ∣ plan.nativeQuantity
  minimum : leg.minNative ≤ |plan.nativeQuantity|
  towards : TowardsZero e.netDelta plan.residual
  /-- The residual is exact if and only if truncation cuts nothing more off the sum. -/
  exact_iff : filled.netDelta = plan.residual ↔ leg.AddsUp native (leg.hedgeNativeFor e.netDelta)

theorem plan_shrinks :
    (e.plan.action = .hedge → e.Shrinks e.spec.hedge e.hedgeNative (e.onHedgeFill e.plan.nativeQuantity) e.plan) ∧
    (e.plan.action = .unwind →
      e.Shrinks e.spec.maker e.makerNative (e.onMakerFill e.plan.nativeQuantity) e.plan) := by
  have htol := e.spec.tolerance_nonneg
  unfold plan
  split
  next => exact ⟨nofun, nofun⟩
  next =>
  dsimp only
  split
  next h =>
    split
    next => exact ⟨nofun, nofun⟩
    next =>
      obtain ⟨hlots, hmin, htowards⟩ := LegSpec.hedgeNativeFor_spec (htol.trans_lt e.spec.lt_hedge) h.2
      refine ⟨fun _ => ⟨hlots, hmin, htowards, ?_⟩, nofun⟩
      rw [← LegSpec.scaledProduct_add_iff]
      simp only [onHedgeFill, netDelta]
      constructor <;> intro <;> omega
  next =>
  split
  next h =>
    obtain ⟨hlots, hmin, htowards⟩ := LegSpec.hedgeNativeFor_spec (htol.trans_lt e.spec.lt_maker) h
    refine ⟨nofun, fun _ => ⟨hlots, hmin, htowards, ?_⟩⟩
    obtain ⟨hmaker, hhedge, hspec⟩ := e.onMakerFill_native (e.spec.maker.hedgeNativeFor e.netDelta)
    rw [← LegSpec.scaledProduct_add_iff, netDelta, hmaker, hhedge, hspec]
    dsimp only [netDelta]
    constructor <;> intro <;> omega
  next => exact ⟨nofun, nofun⟩

def fractional : Engine :=
  ⟨⟨⟨1, 0, 1, 1, 9, by decide, by decide, by decide, by decide, by decide⟩,
    ⟨15, 1, 1, 1, 9, by decide, by decide, by decide, by decide, by decide⟩, 0, by decide, by decide, by decide⟩,
    3, 1, .quoting, true⟩

/-- Truncation takes a half from the position before and after, but nothing from the order. -/
theorem fractional_residual_missed : fractional.plan.action = .hedge ∧ fractional.plan.residual = 1 ∧
    (fractional.onHedgeFill fractional.plan.nativeQuantity).netDelta = 2 := by decide

end Engine

/-- `placed` tells whether the order that a maker fill calls for goes out, or its slot has one already. -/
structure Fill where
  maker : Bool
  tradeKey : Nat
  buy : Bool
  quantity : Int
  placed : Bool := true

def Fill.signed (fill : Fill) (maker : Bool) : Int :=
  if fill.maker ≠ maker then 0 else if fill.buy then fill.quantity else -fill.quantity

structure Strategy where
  engine : Engine
  trades : List Nat := []
  (halted hedgeRecovery : Bool := false)
  (completedCycles stopAfterHedgeCycles : Nat := 0)

namespace Strategy

variable (s : Strategy) (fill : Fill)

def halt : Strategy := { s with halted := true, engine := s.engine.noteHalted }

def filled : Engine :=
  if fill.maker then s.engine.onMakerFill (fill.signed true) else s.engine.onHedgeFill (fill.signed false)

variable {s : Strategy} {fill : Fill} {fills : List Fill}

end Strategy

end SelfQuant.Tradefi
