import SelfQuant.MdsBookBridge

namespace SelfQuant.Mds

open Function List

/-- A side of a book without bounds: the quantity at each price, zero where there is none. -/
abbrev Depth := Int → Int

def Ahead : Side → Int → Int → Prop
  | .bid, price, other => other < price
  | .ask, price, other => price < other

structure IsBest (side : Side) (m : Depth) (level : Level) : Prop where
  quantity : level.quantity = m level.price
  positive : 0 < level.quantity
  first : ∀ price, 0 < m price → ¬Ahead side price level.price

structure PriceWindow where
  (base tick : Int)
  capacity : Nat
deriving DecidableEq

namespace PriceWindow

variable {w : PriceWindow} {side : Side} {price other : Int} {i j : Nat}

def priceAt (w : PriceWindow) (i : Nat) : Int := (w.base + i) * w.tick

def Contains (w : PriceWindow) (price : Int) : Prop := ∃ i, i < w.capacity ∧ price = w.priceAt i

/-- Behind every price of the window. -/
def Behind (w : PriceWindow) : Side → Int → Prop
  | .bid, price => price < w.base * w.tick
  | .ask, price => (w.base + w.capacity) * w.tick ≤ price

theorem priceAt_lt_iff (ht : 0 < w.tick) : w.priceAt i < w.priceAt j ↔ i < j := by
  unfold priceAt
  rw [mul_lt_mul_iff_left₀ ht]
  omega

theorem priceAt_inj (ht : 0 < w.tick) (h : w.priceAt i = w.priceAt j) : i = j := by
  have h1 := priceAt_lt_iff (w := w) (i := i) (j := j) ht
  have h2 := priceAt_lt_iff (w := w) (i := j) (j := i) ht
  omega

theorem Behind.not_ahead (hb : w.Behind side price) (ht : 0 < w.tick) (hc : w.Contains other) :
    ¬Ahead side price other := by
  obtain ⟨i, hi, rfl⟩ := hc
  cases side with
  | bid =>
    have : w.base * w.tick ≤ w.priceAt i := mul_le_mul_of_nonneg_right (by omega) ht.le
    exact fun h => absurd (show w.priceAt i < price from h) (by simp only [Behind] at hb; omega)
  | ask =>
    have : w.priceAt i ≤ (w.base + w.capacity) * w.tick := mul_le_mul_of_nonneg_right (by omega) ht.le
    exact fun h => absurd (show price < w.priceAt i from h) (by simp only [Behind] at hb; omega)

theorem ticks_outside {ticks : Int} (hout : ¬w.Contains (ticks * w.tick)) :
    ticks < w.base ∨ w.base + w.capacity ≤ ticks := by
  by_contra hin
  refine hout ⟨(ticks - w.base).toNat, by omega, ?_⟩
  rw [priceAt, show w.base + ((ticks - w.base).toNat : Int) = ticks by omega]

theorem behind_of_not_contains (ht : 0 < w.tick) (hgr : price % w.tick = 0) (hout : ¬w.Contains price)
    (hc : w.Contains other) (ha : ¬Ahead side price other) : w.Behind side price := by
  obtain ⟨i, hi, rfl⟩ := hc
  obtain ⟨ticks, rfl⟩ := Int.dvd_of_emod_eq_zero hgr
  rw [mul_comm] at hout ha ⊢
  have hrg := ticks_outside hout
  cases side with
  | bid =>
    have hle : ticks ≤ w.base + i := by
      have : ¬(w.base + i) * w.tick < ticks * w.tick := ha
      rw [mul_lt_mul_iff_left₀ ht] at this
      omega
    exact mul_lt_mul_of_pos_right (by omega) ht
  | ask =>
    have hle : w.base + i ≤ ticks := by
      have : ¬ticks * w.tick < (w.base + i) * w.tick := ha
      rw [mul_lt_mul_iff_left₀ ht] at this
      omega
    exact mul_le_mul_of_nonneg_right (by omega) ht.le

end PriceWindow

structure ReferenceBook where
  lastUpdateId : Nat
  depth : Side → Depth

namespace ReferenceBook

def setLevel (depth : Side → Depth) (side : Side) (level : Level) : Side → Depth :=
  update depth side (update (depth side) level.price level.quantity)

def setLevels (depth : Side → Depth) (side : Side) (levels : List Level) : Side → Depth :=
  levels.foldl (fun depth level => setLevel depth side level) depth

def load (snapshot : DepthSnapshot) : ReferenceBook :=
  let depth := setLevels (fun _ _ => 0) .bid (snapshot.bids.filter (·.quantity > 0))
  ⟨snapshot.lastUpdateId, setLevels depth .ask (snapshot.asks.filter (·.quantity > 0))⟩

def apply (r : ReferenceBook) (update : DepthUpdate) : ReferenceBook :=
  if update.finalUpdateId ≤ r.lastUpdateId then r
  else ⟨update.finalUpdateId, setLevels (setLevels r.depth .bid update.bids) .ask update.asks⟩

variable {depth : Side → Depth} {side other : Side} {level : Level} {levels : List Level} {price : Int}

theorem setLevel_self : setLevel depth side level side price =
    if price = level.price then level.quantity else depth side price := by
  unfold setLevel
  rw [update_self]
  split
  next h => rw [h, update_self]
  next h => rw [update_of_ne h]

theorem setLevels_cons : setLevels depth side (level :: levels) =
    setLevels (setLevel depth side level) side levels := rfl

theorem setLevels_other (h : other ≠ side) : setLevels depth side levels other = depth other := by
  induction levels generalizing depth with
  | nil => rfl
  | cons level levels ih =>
    rw [setLevels_cons, ih, setLevel, update_of_ne h]

theorem setLevels_congr {depth' : Side → Depth} (h : depth side = depth' side) (price : Int) :
    setLevels depth side levels side price = setLevels depth' side levels side price := by
  induction levels generalizing depth depth' with
  | nil => exact congrFun h price
  | cons level levels ih =>
    rw [setLevels_cons, setLevels_cons]
    refine ih ?_
    rw [setLevel, setLevel, update_self, update_self, h]

theorem setLevels_pos (h : 0 < setLevels depth side levels side price) :
    (∃ level ∈ levels, level.price = price ∧ 0 < level.quantity) ∨ 0 < depth side price := by
  induction levels generalizing depth with
  | nil => exact .inr h
  | cons level levels ih =>
    rw [setLevels_cons] at h
    obtain ⟨level', hmem, hpx⟩ | hpos := ih h
    · exact .inl ⟨level', mem_cons_of_mem _ hmem, hpx⟩
    · rw [setLevel_self] at hpos
      split at hpos
      next he => exact .inl ⟨level, mem_cons_self .., he.symm, hpos⟩
      next => exact .inr hpos

theorem setLevels_keeps (hq : ∀ level ∈ levels, 0 < level.quantity) (h : 0 < depth side price) :
    0 < setLevels depth side levels side price := by
  induction levels generalizing depth with
  | nil => exact h
  | cons level levels ih =>
    rw [setLevels_cons]
    refine ih (forall_mem_cons.mp hq).2 ?_
    rw [setLevel_self]
    split
    next => exact hq level (mem_cons_self ..)
    next => exact h

theorem setLevels_mem_pos (hq : ∀ level ∈ levels, 0 < level.quantity) (h : level ∈ levels) :
    0 < setLevels depth side levels side level.price := by
  induction levels generalizing depth with
  | nil => cases h
  | cons first levels ih =>
    have hrs : ∀ level ∈ levels, 0 < level.quantity := (forall_mem_cons.mp hq).2
    rw [setLevels_cons]
    obtain rfl | hmem := mem_cons.mp h
    · refine setLevels_keeps hrs ?_
      rw [setLevel_self, if_pos rfl]
      exact hq level (mem_cons_self ..)
    · exact ih hrs hmem

end ReferenceBook

end SelfQuant.Mds
