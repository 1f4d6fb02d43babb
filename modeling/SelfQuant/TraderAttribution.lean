import Mathlib.Data.List.TakeWhile
import SelfQuant.TraderCostReplay

namespace SelfQuant.Trader

open List Leg Function

def Leg.askSign : Leg → Decimal
  | .a => 1
  | .b => -1

structure AttributedLeg where
  costs : ArbitrageLegCost := {}
  venuePosition : Decimal

def attributedQuantity (leg : AttributedLeg) (fill : ArbitrageMetricFill) (askSign : Decimal) : Decimal :=
  let askQuantity := fill.signed * askSign
  let venueAskPosition := leg.venuePosition * askSign
  if 0 < askQuantity then
    let neutralized := min askQuantity (max (-venueAskPosition) 0)
    askQuantity - neutralized
  else if askQuantity < 0 then
    let owned := leg.costs.position * askSign
    if 0 < owned then min |askQuantity| owned else 0
  else 0

variable (div : Decimal → Decimal → Decimal)

def applyAttributedArbitrageFill (askSign : Decimal)
    (leg : AttributedLeg) (fill : ArbitrageMetricFill) : AttributedLeg :=
  let attributed := attributedQuantity leg fill askSign
  { costs :=
      if h : 0 < attributed then applyArbitrageFill div leg.costs { fill with quantity := attributed, positive := h }
      else leg.costs
    venuePosition := leg.venuePosition + fill.signed }

def attributedReplay (leg : Leg) (baseline : Decimal) (fills : List ArbitrageMetricFill) : AttributedLeg :=
  fills.foldl (applyAttributedArbitrageFill div leg.askSign) { venuePosition := baseline }

/-- Both legs after the fills up to a time; the first later fill ends the replay. -/
def replayArbitrageCosts (fills : List ArbitrageMetricFill)
    (cutoff : Option Int) (baseline : Leg → Decimal) (leg : Leg) : ArbitrageLegCost :=
  let counted := fills.takeWhile fun fill => cutoff.all (fill.executedAt ≤ ·)
  (counted.foldl (fun legs fill => update legs fill.leg
    (applyAttributedArbitrageFill div fill.leg.askSign (legs fill.leg) fill))
    (fun leg => ({ venuePosition := baseline leg } : AttributedLeg)) leg).costs

namespace AttributedLeg

def own (state : AttributedLeg) (leg : Leg) : Decimal := leg.askSign * state.costs.position

def held (state : AttributedLeg) (leg : Leg) : Decimal := leg.askSign * state.venuePosition

end AttributedLeg

variable (div : Decimal → Decimal → Decimal) (leg : Leg) (state : AttributedLeg) (base : Decimal)
  (fills : List ArbitrageMetricFill) (fill : ArbitrageMetricFill)

theorem Leg.askSign_ne_zero : leg.askSign ≠ 0 := by
  cases leg with
  | a => exact one_ne_zero
  | b => exact neg_ne_zero.mpr one_ne_zero

def askQuantity (leg : Leg) (fill : ArbitrageMetricFill) : Decimal := leg.askSign * fill.signed

theorem askQuantity_ne_zero : askQuantity leg fill ≠ 0 := mul_ne_zero leg.askSign_ne_zero fill.signed_ne_zero

theorem askSign_mul_part (qty : Decimal) :
    leg.askSign * fill.side.signed qty = if 0 < askQuantity leg fill then qty else -qty := by
  have hfi := fill.positive
  have hsds : askQuantity leg fill = leg.askSign * fill.side.signed fill.quantity := rfl
  split_ifs with hask
  · cases leg <;> cases hsi : fill.side <;>
      simp only [hsds, hsi, askSign, OrderSide.signed] at hask ⊢ <;> linarith
  · cases leg <;> cases hsi : fill.side <;>
      simp only [hsds, hsi, askSign, OrderSide.signed] at hask ⊢ <;> linarith

/-- What of a fill counts as owned, in ask-signed terms: an opening fill pays back what the account lacks
first, a closing one takes at most what is owned. -/
def ownChange (own held quantity : Decimal) : Decimal :=
  if 0 < quantity then quantity - min quantity (max (-held) 0)
  else -min (-quantity) (max own 0)

theorem attributedQuantity_eq : attributedQuantity state fill leg.askSign =
    |ownChange (state.own leg) (state.held leg) (askQuantity leg fill)| := by
  have hask : fill.signed * leg.askSign = askQuantity leg fill := mul_comm _ _
  have hhd : state.venuePosition * leg.askSign = state.held leg := mul_comm _ _
  have hown : state.costs.position * leg.askSign = state.own leg := mul_comm _ _
  have hne := askQuantity_ne_zero leg fill
  unfold attributedQuantity ownChange
  rw [hask, hhd, hown]
  dsimp only
  split_ifs with hop hcls howned
  · exact (abs_of_nonneg (sub_nonneg.mpr (min_le_left _ _))).symm
  · rw [max_eq_left howned.le, abs_neg, abs_of_neg hcls, abs_of_pos (lt_min (neg_pos.mpr hcls) howned)]
  · rw [max_eq_right (not_lt.mp howned), min_eq_right (neg_pos.mpr hcls).le, neg_zero, abs_zero]
  · exact absurd (lt_of_le_of_ne (not_lt.mp hop) hne) hcls

theorem own_apply : (applyAttributedArbitrageFill div leg.askSign state fill).own leg =
    state.own leg + ownChange (state.own leg) (state.held leg) (askQuantity leg fill) := by
  have hqty := attributedQuantity_eq leg state fill
  have hpart := askSign_mul_part leg fill (attributedQuantity state fill leg.askSign)
  have hchange : leg.askSign * fill.side.signed (attributedQuantity state fill leg.askSign) =
      ownChange (state.own leg) (state.held leg) (askQuantity leg fill) := by
    rw [hpart, hqty]
    unfold ownChange
    split_ifs with hop
    · exact abs_of_nonneg (sub_nonneg.mpr (min_le_left _ _))
    · have hnn : 0 ≤ min (-askQuantity leg fill) (max (state.own leg) 0) :=
        le_min (neg_nonneg.mpr (not_lt.mp hop)) (le_max_right _ _)
      rw [abs_neg, abs_of_nonneg hnn]
  unfold applyAttributedArbitrageFill AttributedLeg.own
  dsimp only
  split_ifs with hpos
  · rw [position_applyArbitrageFill, mul_add]
    exact congrArg (leg.askSign * state.costs.position + ·) hchange
  · have hze : attributedQuantity state fill leg.askSign = 0 := by
      rw [hqty] at hpos ⊢
      exact le_antisymm (not_lt.mp hpos) (abs_nonneg _)
    have hno : ownChange (state.own leg) (state.held leg) (askQuantity leg fill) = 0 :=
      abs_eq_zero.mp (hqty.symm.trans hze)
    exact (add_eq_left.mpr hno).symm

theorem held_apply : (applyAttributedArbitrageFill div leg.askSign state fill).held leg =
    state.held leg + askQuantity leg fill := mul_add _ _ _

section Change

variable {own held qty : Decimal}

theorem add_ownChange_of_held (hown : 0 ≤ own) (hhd : 0 ≤ held) :
    own + ownChange own held qty = max (own + qty) 0 := by
  unfold ownChange
  rw [max_eq_right (neg_nonpos.mpr hhd), max_eq_left hown]
  split_ifs with hop
  · rw [min_eq_right hop.le, sub_zero, max_eq_left (add_nonneg hown hop.le)]
  · rcases le_total (-qty) own with hle | hle
    · rw [min_eq_left hle, neg_neg, max_eq_left (by linarith)]
    · rw [min_eq_right hle, max_eq_right (by linarith), add_neg_cancel]

theorem ownChange_of_short (hhd : held < 0) : ownChange 0 held qty = max (held + qty) 0 := by
  unfold ownChange
  rw [max_eq_left (neg_pos.mpr hhd).le, max_self]
  split_ifs with hop
  · rcases le_total qty (-held) with hle | hle
    · rw [min_eq_left hle, sub_self, max_eq_right (by linarith)]
    · rw [min_eq_right hle, max_eq_left (by linarith), sub_neg_eq_add, add_comm]
  · rw [min_eq_right (by linarith), neg_zero, max_eq_right (by linarith)]

theorem ownChange_bounds (hown : 0 ≤ own) (hle : own ≤ max held 0) :
    0 ≤ own + ownChange own held qty ∧ own + ownChange own held qty ≤ max (held + qty) 0 := by
  rcases le_or_gt 0 held with hhd | hsh
  · rw [max_eq_left hhd] at hle
    rw [add_ownChange_of_held hown hhd]
    exact ⟨le_max_right _ _, max_le_max (by linarith) le_rfl⟩
  · rw [max_eq_right hsh.le] at hle
    obtain rfl := le_antisymm hle hown
    rw [ownChange_of_short hsh, zero_add]
    exact ⟨le_max_right _ _, le_rfl⟩

theorem ownChange_of_all (h : own = max held 0) : own + ownChange own held qty = max (held + qty) 0 := by
  rcases le_or_gt 0 held with hhd | hsh
  · rw [max_eq_left hhd] at h
    rw [h, add_ownChange_of_held hhd hhd]
  · rw [max_eq_right hsh.le] at h
    rw [h, ownChange_of_short hsh, zero_add]

end Change

theorem attributedReplay_append : attributedReplay div leg base (fills ++ [fill]) =
    applyAttributedArbitrageFill div leg.askSign (attributedReplay div leg base fills) fill := by
  simp [attributedReplay]

theorem own_append :
    (attributedReplay div leg base (fills ++ [fill])).own leg =
      (attributedReplay div leg base fills).own leg +
        ownChange ((attributedReplay div leg base fills).own leg)
          ((attributedReplay div leg base fills).held leg) (askQuantity leg fill) := by
  rw [attributedReplay_append, own_apply]

theorem held_replay : (attributedReplay div leg base fills).held leg = leg.askSign * (base + netQuantity fills) := by
  induction fills using reverseRecOn with
  | nil => exact congrArg (leg.askSign * ·) (add_zero base).symm
  | append_singleton fills fill ih =>
    rw [attributedReplay_append, held_apply, ih, netQuantity_append, ← add_assoc]
    exact (mul_add _ _ _).symm

theorem own_replay_empty : (attributedReplay div leg base []).own leg = 0 := mul_zero _

theorem own_replay_bounds : 0 ≤ (attributedReplay div leg base fills).own leg ∧
      (attributedReplay div leg base fills).own leg ≤ max ((attributedReplay div leg base fills).held leg) 0 := by
  induction fills using reverseRecOn with
  | nil =>
    rw [own_replay_empty]
    exact ⟨le_rfl, le_max_right _ _⟩
  | append_singleton fills fill ih =>
    rw [own_append, attributedReplay_append, held_apply]
    exact ownChange_bounds ih.1 ih.2

theorem own_replay_all (hbl : leg.askSign * base ≤ 0) : (attributedReplay div leg base fills).own leg =
      max ((attributedReplay div leg base fills).held leg) 0 := by
  induction fills using reverseRecOn with
  | nil =>
    rw [own_replay_empty]
    exact (max_eq_right hbl).symm
  | append_singleton fills fill ih =>
    rw [own_append, attributedReplay_append, held_apply]
    exact ownChange_of_all ih

/-- With `own` and `v` the ask-signed positions of the combination and of the account: `own` is between zero
and `v`; it is all of `v` where the account started on the other side; and where the account was never
short, it follows the fills down to zero. -/
theorem attribution_within_account (div : Decimal → Decimal → Decimal) (leg : Leg) (baseline : Decimal)
    (fills : List ArbitrageMetricFill) :
    (0 ≤ leg.askSign * (attributedReplay div leg baseline fills).costs.position ∧
      leg.askSign * (attributedReplay div leg baseline fills).costs.position ≤
        max (leg.askSign * (baseline + netQuantity fills)) 0) ∧
    (leg.askSign * baseline ≤ 0 →
      leg.askSign * (attributedReplay div leg baseline fills).costs.position =
        max (leg.askSign * (baseline + netQuantity fills)) 0) ∧
    (0 ≤ leg.askSign * baseline →
      (∀ earlier, earlier <+: fills → 0 ≤ leg.askSign * (baseline + netQuantity earlier)) →
      ∀ fill, leg.askSign * (attributedReplay div leg baseline (fills ++ [fill])).costs.position =
        max (leg.askSign * (attributedReplay div leg baseline fills).costs.position +
          leg.askSign * fill.signed) 0) := by
  have hheld := held_replay div leg baseline fills
  have hbounds := own_replay_bounds div leg baseline fills
  rw [hheld] at hbounds
  refine ⟨hbounds, fun hbl => ?_, fun _ hnever fill => ?_⟩
  · have hall := own_replay_all div leg baseline fills hbl
    rw [hheld] at hall
    exact hall
  · have hlong : 0 ≤ (attributedReplay div leg baseline fills).held leg := by
      rw [hheld]
      exact hnever fills prefix_rfl
    have hnext := own_append div leg baseline fills fill
    rw [add_ownChange_of_held hbounds.1 hlong] at hnext
    exact hnext

theorem five_pos : (0 : Decimal) < 5 := by decide

def boughtFive : ArbitrageMetricFill := { leg := .a, side := .buy, quantity := 5, price := 100, positive := five_pos }

/-- From an account that was short by three, and bought twice from one that was long by four. -/
theorem attribution_within_account_boughtFive :
    (a.askSign * -3 ≤ 0 ∧
      a.askSign * (attributedReplay Decimal.div .a (-3) [boughtFive]).costs.position =
        max (a.askSign * (-3 + netQuantity [boughtFive])) 0) ∧
    (0 ≤ a.askSign * 4 ∧
      a.askSign * (attributedReplay Decimal.div .a 4 ([boughtFive] ++ [boughtFive])).costs.position =
        max (a.askSign * (attributedReplay Decimal.div .a 4 [boughtFive]).costs.position +
          a.askSign * boughtFive.signed) 0) := by
  have hshort : a.askSign * -3 ≤ 0 := by decide +kernel
  have hlong : 0 ≤ a.askSign * 4 := by decide +kernel
  refine ⟨⟨hshort, (attribution_within_account Decimal.div .a (-3) [boughtFive]).2.1 hshort⟩, hlong, ?_⟩
  refine (attribution_within_account Decimal.div .a 4 [boughtFive]).2.2 hlong (fun earlier hpre => ?_) boughtFive
  have hall : ∀ earlier ∈ [boughtFive].inits, 0 ≤ a.askSign * (4 + netQuantity earlier) := by decide +kernel
  exact hall earlier ((mem_inits earlier [boughtFive]).mpr hpre)

/-- A replay of both legs is one of each leg's own fills and claims at most what the account holds. -/
theorem replayArbitrageCosts_within (cutoff : Option Int) (base : Leg → Decimal) :
    let counted := (fills.takeWhile fun fill => cutoff.all (fill.executedAt ≤ ·)).filter (·.leg = leg)
    let costs := replayArbitrageCosts div fills cutoff base leg
    costs = (attributedReplay div leg (base leg) counted).costs ∧ 0 ≤ leg.askSign * costs.position ∧
      leg.askSign * costs.position ≤ max (leg.askSign * (base leg + netQuantity counted)) 0 := by
  intro counted costs
  have heq : costs = (attributedReplay div leg (base leg) counted).costs := by
    refine congrArg AttributedLeg.costs ?_
    unfold counted
    induction fills.takeWhile (fun fill => cutoff.all (fill.executedAt ≤ ·)) using reverseRecOn with
    | nil => rfl
    | append_singleton taken fill ih =>
      rw [foldl_append, foldl_cons, foldl_nil, filter_append]
      by_cases hleg : fill.leg = leg
      · subst hleg
        rw [update_self, ih, filter_cons_of_pos (by simp), filter_nil, attributedReplay_append]
      · rw [update_of_ne (symm hleg), ih, filter_cons_of_neg (by simpa using hleg), filter_nil, append_nil]
  rw [heq, ← held_replay div]
  exact ⟨rfl, own_replay_bounds div leg (base leg) counted⟩

def applyLegFill (legs : Leg → AttributedLeg) (fill : ArbitrageMetricFill) : Leg → AttributedLeg :=
  update legs fill.leg (applyAttributedArbitrageFill div fill.leg.askSign (legs fill.leg) fill)

def settle (legs : Leg → AttributedLeg) (cursor time : Int) : Decimal × Decimal :=
  let elapsed : Decimal := (time - cursor : Int) / 10 ^ 9
  let paired := min |(legs .a).costs.position| |(legs .b).costs.position|
  let mark := div ((legs .a).costs.average + (legs .b).costs.average) 2
  if cursor ≤ time ∧ 0 < paired ∧ 0 < mark then (paired * mark * elapsed, elapsed) else 0

/-- The loop over the fills; what it has added up so far is left to the caller. -/
def exposureFrom (start finish : Int) : List ArbitrageMetricFill → (Leg → AttributedLeg) → Int → Decimal × Decimal
  | [], legs, cursor => settle div legs cursor finish
  | fill :: fills, legs, cursor =>
    if fill.executedAt < start then exposureFrom start finish fills (applyLegFill div legs fill) cursor
    else if finish < fill.executedAt then settle div legs cursor finish
    else settle div legs cursor fill.executedAt +
      exposureFrom start finish fills (applyLegFill div legs fill) (max cursor fill.executedAt)

def replayArbitrageExposure (start finish : Int) (baseline : Leg → Decimal) : Decimal × Decimal :=
  if finish < start then 0
  else exposureFrom div start finish fills (fun leg => { venuePosition := baseline leg }) start

section

variable {legs : Leg → AttributedLeg} {cursor start mid finish : Int}

theorem settle_add (hmid : cursor ≤ mid) (hfin : mid ≤ finish) :
    settle div legs cursor finish = settle div legs cursor mid + settle div legs mid finish := by
  have hwidth : finish - cursor = mid - cursor + (finish - mid) := by omega
  simp only [settle, hmid, hfin, hmid.trans hfin, true_and]
  split_ifs
  · rw [hwidth, Int.cast_add, add_div, mul_add, Prod.mk_add_mk]
  · exact (add_zero 0).symm

theorem exposureFrom_start (hsta : start ≤ mid) (hmid : mid ≤ cursor) (hfin : mid ≤ finish) :
    exposureFrom div start finish fills legs cursor = exposureFrom div mid finish fills legs cursor := by
  induction fills generalizing legs cursor with
  | nil => rfl
  | cons fill fills ih =>
    have hnx := hmid.trans (le_max_left cursor fill.executedAt)
    simp only [exposureFrom]
    by_cases hbefore : fill.executedAt < mid
    · have hno : settle div legs cursor fill.executedAt = 0 := if_neg fun h => by omega
      rw [if_pos hbefore, if_neg (by omega : ¬finish < fill.executedAt), hno, zero_add,
        max_eq_left (by omega), ih hmid, ite_self]
    · rw [if_neg hbefore, if_neg (by omega), ih hnx]

theorem exposureFrom_add (hsta : start ≤ mid) (hmid : cursor ≤ mid) (hfin : mid ≤ finish) :
    exposureFrom div start finish fills legs cursor =
      exposureFrom div start mid fills legs cursor + exposureFrom div mid finish fills legs mid := by
  induction fills generalizing legs cursor with
  | nil => exact settle_add div hmid hfin
  | cons fill fills ih =>
    simp only [exposureFrom]
    rcases lt_trichotomy fill.executedAt mid with hlt | heq | hgt
    · rw [if_pos hlt, if_neg (by omega : ¬finish < _), if_neg (by omega : ¬mid < _), ih hmid, ih (max_le hmid hlt.le)]
      split_ifs
      · rfl
      · exact (add_assoc _ _ _).symm
    · have hno : settle div legs mid mid = 0 := by simp [settle]
      simp only [heq, if_neg hsta.not_gt, if_neg hfin.not_gt, lt_irrefl, if_false, max_eq_right hmid, max_self]
      rw [hno, zero_add, ih le_rfl, add_assoc]
    · simp only [if_neg (hsta.trans hgt.le).not_gt, if_pos hgt, if_neg hgt.not_gt]
      split_ifs
      · exact settle_add div hmid hfin
      · rw [settle_add div hmid hgt.le, max_eq_right (by omega), max_eq_right hgt.le,
          exposureFrom_start div fills hsta hgt.le hfin, add_assoc]

/-- A fill at the cut counts in both windows, with no width in the one it opens. -/
theorem exposure_additive (baseline : Leg → Decimal) (hmid : start ≤ mid) (hfinish : mid ≤ finish) :
    replayArbitrageExposure div fills start finish baseline =
      replayArbitrageExposure div fills start mid baseline +
        replayArbitrageExposure div fills mid finish baseline := by
  unfold replayArbitrageExposure
  rw [if_neg (hmid.trans hfinish).not_gt, if_neg hmid.not_gt, if_neg hfinish.not_gt]
  exact exposureFrom_add div fills hmid hmid hfinish

theorem exposure_additive_boughtFive : let fills := [boughtFive, { boughtFive with leg := .b, side := .sell }]
    replayArbitrageExposure Decimal.div fills (-1) 1 0 = replayArbitrageExposure Decimal.div fills (-1) 0 0 +
      replayArbitrageExposure Decimal.div fills 0 1 0 :=
  exposure_additive Decimal.div _ 0 (by decide) (by decide)

end

end SelfQuant.Trader
