import Mathlib.Data.BitVec

/-!
Sets of numbers kept as the bits of an array of machine words, and the scans for the first and the
last member.
-/

namespace SelfQuant.BitScan

open List Function Nat

variable {w bit : Nat} {words : Nat → BitVec w} {i j n : Nat} {x : BitVec w} {α : Type}

def isSet (words : Nat → BitVec w) (i : Nat) : Bool := (words (i / w)).getLsbD (i % w)

def setBit (words : Nat → BitVec w) (i : Nat) : Nat → BitVec w :=
  update words (i / w) (words (i / w) ||| (1#w <<< (i % w)))

def clearBit (words : Nat → BitVec w) (i : Nat) : Nat → BitVec w :=
  update words (i / w) (words (i / w) &&& ~~~(1#w <<< (i % w)))

/-- The first bit of the first of `n` words that is not zero. -/
def firstSet (words : Nat → BitVec w) (n : Nat) : Option Nat :=
  (range n).findSome? fun word => if words word ≠ 0 then some (word * w + (words word).ctz.toNat) else none

/-- The last bit of the last of `n` words that is not zero. -/
def lastSet (words : Nat → BitVec w) (n : Nat) : Option Nat :=
  (range n).reverse.findSome? fun word =>
    if words word ≠ 0 then some (word * w + (w - 1) - (words word).clz.toNat) else none

theorem getLsbD_bit (hj : j < w) : (1#w <<< i).getLsbD j = decide (j = i) := by
  rw [BitVec.getLsbD_shiftLeft, decide_eq_true hj, BitVec.getLsbD_one]
  by_cases h : j < i
  · simp [h, Nat.ne_of_lt h]
  · have hw : 0 < w := by omega
    simp only [h, decide_false, Bool.not_false, Bool.true_and, hw, decide_true]
    by_cases he : j = i
    · simp [he]
    · simp only [he, decide_false, decide_eq_false_iff_not]
      omega

theorem isSet_update (word : BitVec w) : isSet (update words (i / w) word) j =
      if j / w = i / w then word.getLsbD (j % w) else isSet words j := by
  unfold isSet
  by_cases h : j / w = i / w
  · rw [if_pos h, h, update_self]
  · rw [if_neg h, update_of_ne h]

theorem eq_of_div_mod (hd : j / w = i / w) (hm : j % w = i % w) : j = i := by
  rw [← div_add_mod j w, ← div_add_mod i w, hd, hm]

theorem isSet_setBit (hw : 0 < w) : isSet (setBit words i) j = (decide (j = i) || isSet words j) := by
  unfold setBit
  rw [isSet_update]
  split
  next h =>
    rw [BitVec.getLsbD_or, getLsbD_bit (mod_lt _ hw), Bool.or_comm]
    congr 1
    · rw [decide_eq_decide]
      exact ⟨eq_of_div_mod h, fun he => by rw [he]⟩
    · rw [isSet, h]
  next h =>
    have hne : j ≠ i := fun he => h (by rw [he])
    simp [hne]

theorem isSet_clearBit (hw : 0 < w) : isSet (clearBit words i) j = (decide (j ≠ i) && isSet words j) := by
  unfold clearBit
  rw [isSet_update]
  split
  next h =>
    have hlt := mod_lt j hw
    rw [BitVec.getLsbD_and, BitVec.getLsbD_not, getLsbD_bit hlt, decide_eq_true hlt, Bool.true_and, Bool.and_comm]
    congr 1
    · rw [← decide_not, decide_eq_decide]
      exact not_congr ⟨eq_of_div_mod h, fun he => by rw [he]⟩
    · rw [isSet, h]
  next h =>
    have hne : j ≠ i := fun he => h (by rw [he])
    simp [hne]

theorem isSet_word {word : Nat} (hb : bit < w) : isSet words (word * w + bit) = (words word).getLsbD bit := by
  have hw : 0 < w := by omega
  unfold isSet
  rw [mul_comm, mul_add_div hw, div_eq_of_lt hb, add_zero, mul_add_mod, mod_eq_of_lt hb]

theorem not_isSet_of_zero (h : words (i / w) = 0) : isSet words i = false := by
  rw [isSet, h]
  exact BitVec.getLsbD_zero

theorem ctz_lt (h : x ≠ 0) : x.ctz.toNat < w := by
  by_contra hge
  have := BitVec.getLsbD_true_ctz_of_ne_zero h
  rw [BitVec.getLsbD_of_ge _ _ (by omega)] at this
  cases this

theorem findSome?_range {f : Nat → Option α} {a : α}
    (h : (range n).findSome? f = some a) : ∃ k, k < n ∧ f k = some a ∧ ∀ j, j < k → f j = none := by
  induction n with
  | zero => cases h
  | succ n ih =>
    rw [range_succ, findSome?_append] at h
    cases hn : (range n).findSome? f with
    | some b =>
      rw [hn] at h
      obtain ⟨k, hk, hfk, hbef⟩ := ih (hn.trans h)
      exact ⟨k, by omega, hfk, hbef⟩
    | none =>
      rw [hn, findSome?_singleton] at h
      refine ⟨n, by omega, h, fun j hj => ?_⟩
      exact findSome?_eq_none_iff.mp hn j (mem_range.mpr hj)

theorem findSome?_range_reverse {f : Nat → Option α} {a : α}
    (h : (range n).reverse.findSome? f = some a) :
    ∃ k, k < n ∧ f k = some a ∧ ∀ j, k < j → j < n → f j = none := by
  induction n with
  | zero => cases h
  | succ n ih =>
    rw [range_succ, reverse_append, reverse_singleton, singleton_append, findSome?_cons] at h
    cases hn : f n with
    | some b =>
      rw [hn] at h
      exact ⟨n, by omega, hn.trans h, fun j hj hjn => by omega⟩
    | none =>
      rw [hn] at h
      obtain ⟨k, hk, hfk, haft⟩ := ih h
      refine ⟨k, by omega, hfk, fun j hj hjn => ?_⟩
      obtain rfl | hlt := eq_or_lt_of_le (le_of_lt_succ hjn)
      · exact hn
      · exact haft j hj hlt

theorem firstSet_eq_some (h : firstSet words n = some i) : isSet words i ∧ ∀ j, isSet words j → i ≤ j := by
  obtain ⟨word, _, hso, hno⟩ := findSome?_range h
  split at hso
  next hz =>
    obtain rfl := Option.some.inj hso
    have hbit := ctz_lt hz
    refine ⟨by rw [isSet_word hbit]; exact BitVec.getLsbD_true_ctz_of_ne_zero hz, fun j hj => ?_⟩
    have hdiv := div_add_mod j w
    obtain hlt | heq | hgt := lt_trichotomy (j / w) word
    · have hze := hno _ hlt
      split at hze
      next => cases hze
      next hne =>
      rw [not_isSet_of_zero (not_not.mp hne)] at hj
      cases hj
    · by_contra hlt
      have hm : j % w < (words word).ctz.toNat := by
        rw [heq, mul_comm] at hdiv
        omega
      rw [isSet, heq, BitVec.getLsbD_false_of_lt_ctz hm] at hj
      cases hj
    · have hnx : (word + 1) * w ≤ j / w * w := mul_le_mul_right w hgt
      rw [mul_comm (j / w) w, add_mul] at hnx
      omega
  next => cases hso

theorem firstSet_eq_none (h : firstSet words n = none) (hi : i / w < n) : isSet words i = false := by
  have hwd := findSome?_eq_none_iff.mp h (i / w) (mem_range.mpr hi)
  split at hwd
  next => cases hwd
  next hz => exact not_isSet_of_zero (not_not.mp hz)

theorem getLsbD_after_clz (h : w - x.clz.toNat ≤ bit) : x.getLsbD bit = false := by
  have hlt := BitVec.toNat_lt_two_pow_sub_clz (x := x)
  have hpow : x.toNat < 2 ^ bit := lt_of_lt_of_le hlt (Nat.pow_le_pow_right (by omega) h)
  exact testBit_lt_two_pow hpow

theorem clz_lt (h : x ≠ 0) : x.clz.toNat < w := by
  by_contra hge
  refine h (BitVec.eq_of_getLsbD_eq fun i _ => ?_)
  rw [getLsbD_after_clz (by omega)]
  exact BitVec.getLsbD_zero.symm

theorem lastSet_eq_some (h : lastSet words n = some i) : isSet words i ∧ ∀ j, j / w < n → isSet words j → j ≤ i := by
  obtain ⟨word, _, hso, hno⟩ := findSome?_range_reverse h
  split at hso
  next hz =>
    have hbit := clz_lt hz
    have hi : word * w + (w - 1 - (words word).clz.toNat) = i := by
      have := Option.some.inj hso
      omega
    subst hi
    refine ⟨?_, fun j hjn hj => ?_⟩
    · rw [isSet_word (by omega)]
      exact BitVec.getLsbD_true_clz_of_ne_zero (by omega) hz
    · have hdiv := div_add_mod j w
      have hmod := mod_lt j (show 0 < w by omega)
      obtain hlt | heq | hgt := lt_trichotomy (j / w) word
      · have hnx : (j / w + 1) * w ≤ word * w := mul_le_mul_right w hlt
        rw [add_mul, mul_comm (j / w) w] at hnx
        omega
      · by_contra hlt
        have hm : w - (words word).clz.toNat ≤ j % w := by
          rw [heq, mul_comm] at hdiv
          omega
        rw [isSet, heq, getLsbD_after_clz hm] at hj
        cases hj
      · have hze := hno _ hgt hjn
        split at hze
        next => cases hze
        next hne =>
        rw [not_isSet_of_zero (not_not.mp hne)] at hj
        cases hj
  next => cases hso

theorem lastSet_eq_none (h : lastSet words n = none) (hi : i / w < n) : isSet words i = false := by
  have hwd := findSome?_eq_none_iff.mp h (i / w) (mem_reverse.mpr (mem_range.mpr hi))
  split at hwd
  next => cases hwd
  next hz => exact not_isSet_of_zero (not_not.mp hz)

theorem getLsbD_lowBits {k : Nat} (hk : k < w) : (1#w <<< k - 1#w).getLsbD bit = decide (bit < k) := by
  have hpow : 2 ^ k < 2 ^ w := Nat.pow_lt_pow_right (by omega) hk
  have hpos : 0 < 2 ^ k := Nat.two_pow_pos k
  have hone : (1#w).toNat = 1 := by
    exact mod_eq_of_lt (Nat.one_lt_two_pow (by omega))
  have hsub : (2 ^ w - 1 + 2 ^ k) % 2 ^ w = 2 ^ k - 1 := by
    rw [show 2 ^ w - 1 + 2 ^ k = (2 ^ k - 1) + 2 ^ w by omega, add_mod_right]
    exact mod_eq_of_lt (by omega)
  rw [← BitVec.twoPow_eq, BitVec.getLsbD, BitVec.toNat_sub, BitVec.toNat_twoPow,
    mod_eq_of_lt hpow, hone, hsub, testBit_two_pow_sub_one]

end SelfQuant.BitScan
