import SelfQuant.TraderClaim

namespace SelfQuant.Trader

open List
open SignType (coe_neg_one coe_one sign)

/-- A fill as it is read back for the cost replay, which refuses quantities that are not positive. -/
structure ArbitrageMetricFill where
  leg : Leg
  side : OrderSide
  (quantity price : Decimal)
  executedAt : Int := 0
  positive : 0 < quantity

def ArbitrageMetricFill.signed (fill : ArbitrageMetricFill) : Decimal := fill.side.signed fill.quantity

structure ArbitrageLegCost where
  (position average realized : Decimal := 0)

/-- The division is a parameter: `Decimal.div` rounds, `(· / ·)` does not. -/
def applyArbitrageFill (div : Decimal → Decimal → Decimal) (state : ArbitrageLegCost)
    (fill : ArbitrageMetricFill) : ArbitrageLegCost :=
  let signed := fill.signed
  if state.position = 0 then { state with position := signed, average := fill.price }
  else if sign state.position = sign signed then
    let total := |state.position| + |signed|
    { state with
      position := state.position + signed
      average := div (state.average * |state.position| + fill.price * |signed|) total }
  else
    let closed := min |state.position| |signed|
    let realized := state.realized + (fill.price - state.average) * closed * (sign state.position : Decimal)
    let next := state.position + signed
    if next = 0 then { position := 0, average := 0, realized }
    else if sign next ≠ sign state.position then { position := next, average := fill.price, realized }
    else { position := next, average := state.average, realized }

variable (div : Decimal → Decimal → Decimal) (state : ArbitrageLegCost) (fills : List ArbitrageMetricFill)
  (fill : ArbitrageMetricFill) (mark : Decimal)

theorem ArbitrageMetricFill.signed_ne_zero : fill.signed ≠ 0 := by
  have hpos := fill.positive
  unfold signed
  cases fill.side with
  | buy => exact ne_of_gt hpos
  | sell => exact neg_ne_zero.mpr (ne_of_gt hpos)

section Signs

variable {p q : Decimal}

theorem sign_eq_sign_iff (hp : p ≠ 0) (hq : q ≠ 0) : sign p = sign q ↔ 0 < p * q := by
  rcases lt_or_gt_of_ne hp with hp | hp <;> rcases lt_or_gt_of_ne hq with hq | hq
  · simp [sign_neg hp, sign_neg hq, mul_pos_of_neg_of_neg hp hq]
  · simp [sign_neg hp, sign_pos hq, (mul_neg_of_neg_of_pos hp hq).not_gt]
  · simp [sign_pos hp, sign_neg hq, (mul_neg_of_pos_of_neg hp hq).not_gt]
  · simp [sign_pos hp, sign_pos hq, mul_pos hp hq]

theorem closed_mul_sign (h : p * q < 0) : min |p| |q| * (sign p : Decimal) = if 0 ≤ p * (p + q) then -q else p := by
  rcases mul_neg_iff.mp h with ⟨hp, hq⟩ | ⟨hp, hq⟩
  · have hsi : 0 ≤ p * (p + q) ↔ 0 ≤ p + q := mul_nonneg_iff_of_pos_left hp
    rw [sign_pos hp, abs_of_pos hp, abs_of_neg hq, coe_one, mul_one]
    split_ifs with hle
    · exact min_eq_right (by linarith [hsi.mp hle])
    · exact min_eq_left (by linarith [not_le.mp (mt hsi.mpr hle)])
  · have hsi : 0 ≤ p * (p + q) ↔ 0 ≤ -(p + q) := by
      rw [← neg_mul_neg]
      exact mul_nonneg_iff_of_pos_left (neg_pos.mpr hp)
    rw [sign_neg hp, abs_of_neg hp, abs_of_pos hq, coe_neg_one, mul_neg_one]
    split_ifs with hle
    · rw [min_eq_right (by linarith [hsi.mp hle])]
    · rw [min_eq_left (by linarith [not_le.mp (mt hsi.mpr hle)]), neg_neg]

end Signs

/-- What a fill can do: it opens a position, increases it, closes all of it, closes a part of it, or closes
it and opens one on the other side. -/
theorem applyArbitrageFill_cases : (state.position = 0 ∧ applyArbitrageFill div state fill =
      ⟨fill.signed, fill.price, state.realized⟩) ∨
    (0 < state.position * fill.signed ∧ applyArbitrageFill div state fill =
      ⟨state.position + fill.signed,
        div (state.average * |state.position| + fill.price * |fill.signed|)
          (|state.position| + |fill.signed|), state.realized⟩) ∨
    (state.position * fill.signed < 0 ∧ state.position + fill.signed = 0 ∧
      applyArbitrageFill div state fill = ⟨0, 0, state.realized + (fill.price - state.average) * state.position⟩) ∨
    (state.position * fill.signed < 0 ∧ 0 < state.position * (state.position + fill.signed) ∧
      applyArbitrageFill div state fill =
        ⟨state.position + fill.signed, state.average, state.realized + (fill.price - state.average) * -fill.signed⟩) ∨
    (state.position * fill.signed < 0 ∧ state.position * (state.position + fill.signed) < 0 ∧
      applyArbitrageFill div state fill =
        ⟨state.position + fill.signed, fill.price,
          state.realized + (fill.price - state.average) * state.position⟩) := by
  have hq := fill.signed_ne_zero
  by_cases hp : state.position = 0
  · exact .inl ⟨hp, by unfold applyArbitrageFill; rw [if_pos hp]⟩
  right
  have hsign := sign_eq_sign_iff hp hq
  by_cases hsm : 0 < state.position * fill.signed
  · exact .inl ⟨hsm, by unfold applyArbitrageFill; rw [if_neg hp, if_pos (hsign.mpr hsm)]⟩
  right
  have hopp : state.position * fill.signed < 0 := lt_of_le_of_ne (not_lt.mp hsm) (mul_ne_zero hp hq)
  have hcld := closed_mul_sign hopp
  unfold applyArbitrageFill
  rw [if_neg hp, if_neg (mt hsign.mp hsm)]
  simp only [mul_assoc, hcld]
  by_cases hze : state.position + fill.signed = 0
  · have hsum : -fill.signed = state.position := by linarith
    refine .inl ⟨hopp, hze, ?_⟩
    rw [if_pos hze, hze, mul_zero, if_pos le_rfl, hsum]
  right
  have hnx := sign_eq_sign_iff hze hp
  rw [mul_comm] at hnx
  rw [if_neg hze]
  by_cases hkt : 0 < state.position * (state.position + fill.signed)
  · exact .inl ⟨hopp, hkt, by rw [if_neg (not_not.mpr (hnx.mpr hkt)), if_pos hkt.le]⟩
  · have hflip : state.position * (state.position + fill.signed) < 0 :=
      lt_of_le_of_ne (not_lt.mp hkt) (mul_ne_zero hp hze)
    exact .inr ⟨hopp, hflip, by rw [if_pos (mt hnx.mp hkt), if_neg (not_le.mpr hflip)]⟩

theorem position_applyArbitrageFill :
    (applyArbitrageFill div state fill).position = state.position + fill.signed := by
  obtain ⟨hp, h⟩ | ⟨-, h⟩ | ⟨-, hze, h⟩ | ⟨-, -, h⟩ | ⟨-, -, h⟩ := applyArbitrageFill_cases div state fill
  · rw [h, hp, zero_add]
  · rw [h]
  · rw [h, hze]
  · rw [h]
  · rw [h]

/-- What the leg is worth at a mark price: what was realized, and what closing the rest would bring. -/
def ArbitrageLegCost.worth (state : ArbitrageLegCost) (mark : Decimal) : Decimal :=
  state.realized + state.position * (mark - state.average)

theorem weighted_cost {p q a b : Decimal} (h : 0 < p * q) :
    (p + q) * ((a * |p| + b * |q|) / (|p| + |q|)) = p * a + q * b := by
  rcases mul_pos_iff.mp h with ⟨hp, hq⟩ | ⟨hp, hq⟩
  · rw [abs_of_pos hp, abs_of_pos hq]
    field_simp
  · have hne : -p + -q ≠ 0 := by linarith
    rw [abs_of_neg hp, abs_of_neg hq]
    field_simp
    ring

theorem worth_applyArbitrageFill :
    (applyArbitrageFill (· / ·) state fill).worth mark = state.worth mark + fill.signed * (mark - fill.price) := by
  obtain ⟨hp, h⟩ | ⟨hsm, h⟩ | ⟨-, hze, h⟩ | ⟨-, -, h⟩ | ⟨-, -, h⟩ := applyArbitrageFill_cases (· / ·) state fill
  · rw [h]
    simp only [ArbitrageLegCost.worth, hp]
    ring
  · have hcost := weighted_cost (a := state.average) (b := fill.price) hsm
    rw [h]
    simp only [ArbitrageLegCost.worth, mul_sub, hcost]
    ring
  · have hq : fill.signed = -state.position := by linarith
    rw [h]
    simp only [ArbitrageLegCost.worth, hq]
    ring
  · rw [h]
    simp only [ArbitrageLegCost.worth]
    ring
  · rw [h]
    simp only [ArbitrageLegCost.worth]
    ring

def legCosts (div : Decimal → Decimal → Decimal) (fills : List ArbitrageMetricFill) : ArbitrageLegCost :=
  fills.foldl (applyArbitrageFill div) {}

def netQuantity (fills : List ArbitrageMetricFill) : Decimal := (fills.map ArbitrageMetricFill.signed).sum

/-- Of fills with the last one first: those since the sum was last zero or changed its sign. -/
def recentOf : List ArbitrageMetricFill → List ArbitrageMetricFill
  | [] => []
  | fill :: earlier =>
    let before := netQuantity earlier
    if before ≠ 0 ∧ sign before = sign (before + fill.signed) then fill :: recentOf earlier
    else [fill]

def recentFills (fills : List ArbitrageMetricFill) : List ArbitrageMetricFill := recentOf fills.reverse

theorem netQuantity_append : netQuantity (fills ++ [fill]) = netQuantity fills + fill.signed := by
  simp [netQuantity]

theorem netQuantity_reverse : netQuantity fills.reverse = netQuantity fills := by
  unfold netQuantity
  rw [map_reverse, sum_reverse]

theorem recentFills_append : recentFills (fills ++ [fill]) =
      if netQuantity fills ≠ 0 ∧ sign (netQuantity fills) = sign (netQuantity fills + fill.signed) then
        fill :: recentFills fills
      else [fill] := by
  unfold recentFills
  rw [reverse_append, reverse_singleton, singleton_append, recentOf, netQuantity_reverse]

theorem legCosts_append : legCosts div (fills ++ [fill]) = applyArbitrageFill div (legCosts div fills) fill := by
  simp [legCosts]

theorem position_legCosts : (legCosts div fills).position = netQuantity fills := by
  induction fills using reverseRecOn with
  | nil => rfl
  | append_singleton fills fill ih =>
    rw [legCosts_append, position_applyArbitrageFill, ih, netQuantity_append]

theorem worth_legCosts :
    (legCosts (· / ·) fills).worth mark = (fills.map fun fill => fill.signed * (mark - fill.price)).sum := by
  induction fills using reverseRecOn with
  | nil => simp [legCosts, ArbitrageLegCost.worth]
  | append_singleton fills fill ih =>
    rw [legCosts_append, worth_applyArbitrageFill, ih]
    simp

def Spanned (fills : List ArbitrageMetricFill) (price : Decimal) : Prop :=
  ∃ low ∈ fills, ∃ high ∈ fills, low.price ≤ price ∧ price ≤ high.price

theorem Spanned.singleton : Spanned [fill] fill.price :=
  ⟨fill, mem_singleton_self fill, fill, mem_singleton_self fill, le_rfl, le_rfl⟩

variable {fills}

theorem Spanned.cons {price : Decimal} (h : Spanned fills price) : Spanned (fill :: fills) price := by
  obtain ⟨low, hlow, high, hhg, hbds⟩ := h
  exact ⟨low, mem_cons_of_mem _ hlow, high, mem_cons_of_mem _ hhg, hbds⟩

theorem Spanned.weighted {a b w v : Decimal} (ha : Spanned fills a) (hb : Spanned fills b) (hw : 0 < w)
    (hv : 0 < v) : Spanned fills ((a * w + b * v) / (w + v)) := by
  wlog hle : a ≤ b generalizing a b w v
  · rw [add_comm (a * w), add_comm w]
    exact this hb ha hv hw (le_of_not_ge hle)
  have hsum : 0 < w + v := add_pos hw hv
  obtain ⟨low, hlow, -, -, hbel, -⟩ := ha
  obtain ⟨-, -, high, hhg, -, habv⟩ := hb
  refine ⟨low, hlow, high, hhg, ?_, ?_⟩
  · rw [le_div_iff₀ hsum]
    nlinarith
  · rw [div_le_iff₀ hsum]
    nlinarith

theorem average_legCosts (h : netQuantity fills ≠ 0) :
    Spanned (recentFills fills) (legCosts (· / ·) fills).average := by
  induction fills using reverseRecOn with
  | nil => exact absurd rfl h
  | append_singleton fills fill ih =>
    rw [netQuantity_append] at h
    rw [legCosts_append, recentFills_append]
    have hpos := position_legCosts (· / ·) fills
    have hcases := applyArbitrageFill_cases (· / ·) (legCosts (· / ·) fills) fill
    rw [hpos] at hcases
    have hsty (hp : netQuantity fills ≠ 0)
        (hkt : 0 < netQuantity fills * (netQuantity fills + fill.signed)) :
        netQuantity fills ≠ 0 ∧ sign (netQuantity fills) = sign (netQuantity fills + fill.signed) :=
      ⟨hp, (sign_eq_sign_iff hp h).mpr hkt⟩
    obtain ⟨hp, heq⟩ | ⟨hsm, heq⟩ | ⟨-, hze, -⟩ | ⟨hopp, hkt, heq⟩ | ⟨hopp, hflip, heq⟩ := hcases
    · rw [heq, if_neg fun hboth => hboth.1 hp]
      exact Spanned.singleton fill
    · have hp : netQuantity fills ≠ 0 := left_ne_zero_of_mul hsm.ne'
      have hkt : 0 < netQuantity fills * (netQuantity fills + fill.signed) := by nlinarith [sq_nonneg (netQuantity fills)]
      rw [heq, if_pos (hsty hp hkt)]
      refine Spanned.weighted ((ih hp).cons fill) ?_ (abs_pos.mpr hp) (abs_pos.mpr fill.signed_ne_zero)
      exact ⟨fill, mem_cons_self, fill, mem_cons_self, le_rfl, le_rfl⟩
    · exact absurd hze h
    · have hp : netQuantity fills ≠ 0 := left_ne_zero_of_mul hopp.ne
      rw [heq, if_pos (hsty hp hkt)]
      exact (ih hp).cons fill
    · rw [heq, if_neg fun hboth => hflip.not_gt ((sign_eq_sign_iff hboth.1 h).mp hboth.2)]
      exact Spanned.singleton fill

/-- The cost replay neither makes nor loses money. -/
theorem cost_replay_conserves (fills : List ArbitrageMetricFill) (mark : Decimal) :
    (legCosts (· / ·) fills).realized +
        (legCosts (· / ·) fills).position * (mark - (legCosts (· / ·) fills).average) =
      (fills.map fun fill => fill.signed * (mark - fill.price)).sum ∧
    (legCosts (· / ·) fills).position = (fills.map ArbitrageMetricFill.signed).sum ∧
    ((legCosts (· / ·) fills).position ≠ 0 →
      ∃ low ∈ recentFills fills, ∃ high ∈ recentFills fills,
        low.price ≤ (legCosts (· / ·) fills).average ∧ (legCosts (· / ·) fills).average ≤ high.price) := by
  have hpos := position_legCosts (· / ·) fills
  refine ⟨worth_legCosts fills mark, hpos, fun hne => ?_⟩
  rw [hpos] at hne
  exact average_legCosts hne

def flippedFills : List ArbitrageMetricFill :=
  [{ leg := .a, side := .buy, quantity := 2, price := 100, positive := by decide },
    { leg := .a, side := .sell, quantity := 5, price := 110, positive := by decide }]

theorem cost_replay_conserves_flipped : (legCosts (· / ·) flippedFills).position ≠ 0 ∧
    ∃ low ∈ recentFills flippedFills, ∃ high ∈ recentFills flippedFills,
      low.price ≤ (legCosts (· / ·) flippedFills).average ∧ (legCosts (· / ·) flippedFills).average ≤ high.price := by
  have hne : (legCosts (· / ·) flippedFills).position ≠ 0 := by decide +kernel
  exact ⟨hne, (cost_replay_conserves flippedFills 0).2.2 hne⟩

end SelfQuant.Trader
