import Mathlib.Data.Rat.Floor

namespace SelfQuant

section Grid

variable {K : Type*} [Field K] {step coarse value : K}

def OnGrid (step value : K) : Prop := ∃ k : ℤ, value = k * step

theorem OnGrid.trans (hcoarse : OnGrid step coarse) (h : OnGrid coarse value) : OnGrid step value := by
  obtain ⟨j, rfl⟩ := hcoarse
  obtain ⟨k, rfl⟩ := h
  exact ⟨k * j, by rw [Int.cast_mul, mul_assoc]⟩

variable [LinearOrder K] [FloorRing K]

def gridFloor (step value : K) : K := ⌊value / step⌋ * step

variable [IsStrictOrderedRing K]

theorem gridFloor_le (hst : 0 < step) : gridFloor step value ≤ value :=
  (mul_le_mul_of_nonneg_right (Int.floor_le _) hst.le).trans_eq (div_mul_cancel₀ value hst.ne')

theorem gridFloor_of_onGrid (hst : 0 < step) (h : OnGrid step value) : gridFloor step value = value := by
  obtain ⟨k, rfl⟩ := h
  rw [gridFloor, mul_div_cancel_right₀ _ hst.ne', Int.floor_intCast]

end Grid

def gridLcm (a b : ℚ) : ℚ := Nat.lcm (a.num.natAbs * b.den) (b.num.natAbs * a.den) / (a.den * b.den)

section Lcm

variable {a b : ℚ}

theorem natAbs_num_div_den (ha : 0 < a) : (a.num.natAbs : ℚ) / a.den = a := by
  rw [← Int.cast_natCast, Int.natAbs_of_nonneg (Rat.num_nonneg.mpr ha.le), Rat.num_div_den]

theorem gridLcm_comm : gridLcm a b = gridLcm b a := by
  rw [gridLcm, gridLcm, Nat.lcm_comm, mul_comm (a.den : ℚ)]

theorem onGrid_gridLcm_left (ha : 0 < a) : OnGrid a (gridLcm a b) := by
  obtain ⟨k, hk⟩ := Nat.dvd_lcm_left (a.num.natAbs * b.den) (b.num.natAbs * a.den)
  have hb : (b.den : ℚ) ≠ 0 := Nat.cast_ne_zero.mpr b.den_nz
  refine ⟨k, ?_⟩
  calc gridLcm a b = (a.num.natAbs * b.den * k : ℕ) / (a.den * b.den) := by rw [gridLcm, hk]
    _ = (a.num.natAbs : ℚ) / a.den * (b.den / b.den) * k := by
      push_cast
      ring
    _ = (k : ℤ) * a := by
      rw [natAbs_num_div_den ha, div_self hb, mul_one, mul_comm, Int.cast_natCast]

theorem onGrid_gridLcm_right (hb : 0 < b) : OnGrid b (gridLcm a b) := by
  rw [gridLcm_comm]
  exact onGrid_gridLcm_left hb

end Lcm

end SelfQuant
