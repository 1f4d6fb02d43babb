import SelfQuant.MdsAggRecord
import Mathlib.Algebra.Order.BigOperators.Group.List

namespace SelfQuant.Mds.Agg

open List Option

def uint64Max : Nat := 2 ^ 64 - 1

def uint32Max : Nat := 2 ^ 32 - 1

def int32Max : Int := 2 ^ 31 - 1

def ageUs (nowNs ingressNs : Nat) : Nat := if nowNs ≥ ingressNs then (nowNs - ingressNs) / 1000 else uint64Max

def clampU32 (value : Nat) : Nat := if value > uint32Max then uint32Max else value

def saturatingAdd (left right : Int) : Int :=
  if right > 0 ∧ left > int64Max - right then int64Max
  else if right < 0 ∧ left < int64Min - right then int64Min
  else left + right

def pow10 : Nat → Option Int
  | 0 => some 1
  | exponent + 1 => (pow10 exponent).bind fun value => if value > int64Max / 10 then none else some (value * 10)

def toInt64 (converted : Int) : Option Int :=
  if converted < int64Min ∨ converted > int64Max then none else some converted

/-- The division is exact or refused, and needs no check of the range. -/
def rescale (input : Int) (source target : UInt8) : Option Int :=
  if source ≤ target then (pow10 (target - source).toNat).bind fun factor => toInt64 (input * factor)
  else (pow10 (source - target).toNat).bind fun factor =>
    if input.tmod factor ≠ 0 then none else some (input.tdiv factor)

def roundedDiv (roundUp : Bool) (numerator divisor : Int) : Int :=
  if roundUp ∧ numerator > 0 ∧ numerator.tmod divisor ≠ 0 then numerator.tdiv divisor + 1
  else numerator.tdiv divisor

/-- The power of ten for a positive exponent, which is cast to a byte; one for any other. -/
def power (exponent : Int) : Option Int := if exponent > 0 then pow10 (exponent.toNat % 256) else some 1

def multiplyScaled (price : Int) (priceScale : UInt8) (fx : Int) (fxScale outputScale : UInt8)
    (roundUp : Bool) : Option Int :=
  let exponent : Int := priceScale.toNat + fxScale.toNat - outputScale.toNat
  (power exponent).bind fun divisor => (power (-exponent)).bind fun multiplier =>
    toInt64 (roundedDiv roundUp (price * fx * multiplier) divisor)

def crossBps (bid ask : Int) : Int :=
  if bid ≤ ask ∨ ask ≤ 0 then 0
  else
    let value := ((bid - ask) * 10000).tdiv ask
    if value > int32Max then int32Max else value

variable {a b x y factor : Int} {n : Nat} {ps fs os source target : UInt8} {up : Bool}

theorem saturatingAdd_eq_min (hmax : a ≤ int64Max) (hb : 0 ≤ b) : saturatingAdd a b = min (a + b) int64Max := by
  unfold saturatingAdd
  split
  next h => omega
  next h =>
  omega

theorem saturatingAdd_nonneg (ha : 0 ≤ a) (hb : 0 ≤ b) : 0 ≤ saturatingAdd a b := by
  unfold saturatingAdd
  split
  next => decide
  omega

theorem foldl_saturatingAdd {quantities : List Int} (ha : 0 ≤ a) (hmax : a ≤ int64Max)
    (hq : ∀ q ∈ quantities, 0 ≤ q) :
    quantities.foldl saturatingAdd a = min (a + quantities.sum) int64Max := by
  induction quantities generalizing a with
  | nil =>
    simp only [foldl_nil, sum_nil, add_zero]
    omega
  | cons q quantities ih =>
    have hq0 := hq q mem_cons_self
    have hrs : ∀ q ∈ quantities, 0 ≤ q := (forall_mem_cons.mp hq).2
    have hsum : 0 ≤ quantities.sum := sum_nonneg hrs
    rw [foldl_cons, saturatingAdd_eq_min hmax hq0, ih (by omega) (by omega) hrs, sum_cons]
    omega

theorem pow10_pos (h : pow10 n = some factor) : 0 < factor := by
  induction n generalizing factor with
  | zero =>
    cases h
    omega
  | succ n ih =>
    obtain ⟨value, hvl, hfac⟩ := bind_eq_some_iff.mp h
    have hpos := ih hvl
    split at hfac
    next => cases hfac
    cases hfac
    omega

theorem power_pos {exponent : Int} (h : power exponent = some factor) : 0 < factor := by
  unfold power at h
  split at h
  next => exact pow10_pos h
  cases h
  omega

theorem toInt64_eq_some (h : toInt64 x = some y) : y = x ∧ y ≤ int64Max := by
  unfold toInt64 at h
  split at h
  next => cases h
  next hrg =>
  cases h
  omega

theorem rescale_factor : ∃ factor : Int, 0 < factor ∧ ((∀ x y, rescale x source target = some y → y = x * factor) ∨
      ∀ x y, rescale x source target = some y → x = y * factor) := by
  unfold rescale
  split
  next =>
    cases hfac : pow10 (target - source).toNat with
    | none => exact ⟨1, one_pos, .inl fun x y h => by cases h⟩
    | some factor => exact ⟨factor, pow10_pos hfac, .inl fun x y h => (toInt64_eq_some h).1⟩
  next =>
    cases hfac : pow10 (source - target).toNat with
    | none => exact ⟨1, one_pos, .inl fun x y h => by cases h⟩
    | some factor =>
      refine ⟨factor, pow10_pos hfac, .inr fun x y h => ?_⟩
      dsimp only [bind_some] at h
      split at h
      next => cases h
      next hex =>
      have hy := some.inj h
      have hmod : x.tmod factor = 0 := by omega
      rw [← hy, Int.tdiv_mul_cancel (Int.dvd_of_tmod_eq_zero hmod)]

theorem rescale_lt (hx : rescale a source target = some x) (hy : rescale b source target = some y)
    (h : a < b) : x < y := by
  obtain ⟨factor, hpos, hmul | hdiv⟩ := rescale_factor
  · rw [hmul a x hx, hmul b y hy]
    exact mul_lt_mul_of_pos_right h hpos
  · rw [hdiv a x hx, hdiv b y hy] at h
    exact lt_of_mul_lt_mul_right h (le_of_lt hpos)

theorem rescale_zero (h : rescale 0 source target = some x) : x = 0 := by
  obtain ⟨factor, hpos, hmul | hdiv⟩ := rescale_factor
  · rw [hmul 0 x h, zero_mul]
  · have := hdiv 0 x h
    rcases mul_eq_zero.mp this.symm with hx | hfac
    · exact hx
    · omega

theorem rescale_pos (h : rescale a source target = some x) (ha : 0 < a) : 0 < x := by
  obtain ⟨factor, hpos, hmul | hdiv⟩ := rescale_factor
  · rw [hmul a x h]
    exact mul_pos ha hpos
  · rw [hdiv a x h] at ha
    exact (mul_pos_iff_of_pos_right hpos).mp ha

theorem rescale_nonneg (h : rescale a source target = some x) (ha : 0 ≤ a) : 0 ≤ x := by
  rcases lt_or_eq_of_le ha with hpos | rfl
  · exact le_of_lt (rescale_pos h hpos)
  · rw [rescale_zero h]

theorem roundedDiv_floor (ha : 0 ≤ a) : roundedDiv false a b = a / b := by
  unfold roundedDiv
  rw [if_neg (fun h => Bool.false_ne_true h.1), Int.tdiv_eq_ediv_of_nonneg ha]

theorem roundedDiv_ceil (hd : 0 < b) (ha : 0 < a) :
    a ≤ roundedDiv true a b * b ∧ (roundedDiv true a b - 1) * b < a := by
  have hdiv := Int.mul_ediv_add_emod a b
  have hlt := Int.emod_lt_of_pos a hd
  have hnn := Int.emod_nonneg a (ne_of_gt hd)
  unfold roundedDiv
  rw [Int.tdiv_eq_ediv_of_nonneg (le_of_lt ha), Int.tmod_eq_emod_of_nonneg (le_of_lt ha)]
  split
  next h =>
    rw [add_mul, Int.add_sub_cancel, mul_comm (a / b) b]
    omega
  next h =>
    have hex : a % b = 0 := by
      by_contra hne
      exact h ⟨rfl, ha, hne⟩
    rw [sub_mul, mul_comm (a / b) b]
    omega

theorem roundedDiv_mono (hd : 0 < factor) (ha : 0 < a) (h : a ≤ b) :
    roundedDiv up a factor ≤ roundedDiv up b factor := by
  cases up with
  | false =>
    rw [roundedDiv_floor (by omega), roundedDiv_floor (by omega)]
    exact Int.ediv_le_ediv hd h
  | true =>
    have hb := (roundedDiv_ceil hd (by omega : 0 < b)).1
    have hlow := (roundedDiv_ceil hd ha).2
    by_contra hlt
    have hst : roundedDiv true b factor * factor ≤ (roundedDiv true a factor - 1) * factor :=
      mul_le_mul_of_nonneg_right (by omega) (le_of_lt hd)
    omega

theorem roundedDiv_pos (hd : 0 < factor) (ha : 0 < a) : 0 < roundedDiv true a factor := by
  by_contra hneg
  have hrch := (roundedDiv_ceil hd ha).1
  have hbel : roundedDiv true a factor * factor ≤ 0 := mul_nonpos_of_nonpos_of_nonneg (by omega) (le_of_lt hd)
  omega

theorem roundedDiv_nonneg (hd : 0 < factor) (ha : 0 < a) : 0 ≤ roundedDiv up a factor := by
  cases up with
  | false =>
    rw [roundedDiv_floor (by omega)]
    exact Int.ediv_nonneg (by omega) (by omega)
  | true => exact le_of_lt (roundedDiv_pos hd ha)

theorem multiplyScaled_factors : ∃ multiplier divisor : Int,
    0 < multiplier ∧ 0 < divisor ∧ ∀ x fx y, multiplyScaled x ps fx fs os up = some y →
      y = roundedDiv up (x * fx * multiplier) divisor := by
  by_cases h : ∃ x fx y, multiplyScaled x ps fx fs os up = some y
  · obtain ⟨x, fx, y, h⟩ := h
    obtain ⟨divisor, hdiv, h⟩ := bind_eq_some_iff.mp h
    obtain ⟨multiplier, hmult, -⟩ := bind_eq_some_iff.mp h
    refine ⟨multiplier, divisor, power_pos hmult, power_pos hdiv, fun x fx y h => ?_⟩
    unfold multiplyScaled at h
    dsimp only at h
    rw [hdiv, hmult] at h
    exact (toInt64_eq_some h).1
  · exact ⟨1, 1, one_pos, one_pos, fun x fx y hso => absurd ⟨x, fx, y, hso⟩ h⟩

section Conversion

variable {fx : Int} (hfx : 0 < fx) (ha : 0 < a) (hx : multiplyScaled a ps fx fs os up = some x)

include hfx ha hx

theorem multiplyScaled_mono (hy : multiplyScaled b ps fx fs os up = some y) (h : a ≤ b) : x ≤ y := by
  obtain ⟨multiplier, divisor, hm, hd, heq⟩ := multiplyScaled_factors
  rw [heq a fx x hx, heq b fx y hy]
  apply roundedDiv_mono hd (mul_pos (mul_pos ha hfx) hm)
  have hscd := mul_le_mul_of_nonneg_right h (le_of_lt hfx)
  exact mul_le_mul_of_nonneg_right hscd (le_of_lt hm)

theorem multiplyScaled_nonneg : 0 ≤ x := by
  obtain ⟨multiplier, divisor, hm, hd, heq⟩ := multiplyScaled_factors
  rw [heq a fx x hx]
  exact roundedDiv_nonneg hd (mul_pos (mul_pos ha hfx) hm)

theorem multiplyScaled_pos (hup : up = true) : 0 < x := by
  obtain ⟨multiplier, divisor, hm, hd, heq⟩ := multiplyScaled_factors
  rw [heq a fx x hx, hup]
  exact roundedDiv_pos hd (mul_pos (mul_pos ha hfx) hm)

end Conversion

theorem crossBps_nonneg (bid ask : Int) : 0 ≤ crossBps bid ask := by
  unfold crossBps
  split
  next => exact le_refl 0
  next h =>
  dsimp only
  split
  next => decide
  next => exact Int.tdiv_nonneg (by omega) (by omega)

end SelfQuant.Mds.Agg
