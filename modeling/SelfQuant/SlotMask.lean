import Mathlib.Data.BitVec
import Mathlib.Algebra.BigOperators.Ring.Finset

/-!
Sets of slots kept as the bits of one machine word.
-/

namespace SelfQuant.SlotMask

open List BitVec Bool

variable {w i k : Nat} {slots : List Nat} {mask other : BitVec w}

def ofSlots (w : Nat) (slots : List Nat) : BitVec w := slots.foldl (fun mask slot => mask ||| twoPow w slot) 0

def popcount (mask : BitVec w) : Nat := (range w).countP mask.getLsbD

theorem ofSlots_concat (slot : Nat) : ofSlots w (slots ++ [slot]) = ofSlots w slots ||| twoPow w slot := by
  unfold ofSlots
  rw [foldl_append]
  rfl

theorem getLsbD_foldl : (slots.foldl (fun mask slot => mask ||| twoPow w slot) mask).getLsbD i =
    (mask.getLsbD i || decide (i < w ∧ i ∈ slots)) := by
  induction slots generalizing mask with
  | nil => simp
  | cons slot slots ih =>
    rw [foldl_cons, ih, getLsbD_or, getLsbD_twoPow, Bool.or_assoc]
    congr 1
    rw [Bool.eq_iff_iff]
    simp only [or_eq_true, and_eq_true, decide_eq_true_eq, mem_cons]
    constructor
    · rintro (⟨hw, rfl⟩ | ⟨hw, hmem⟩)
      · exact ⟨hw, .inl rfl⟩
      · exact ⟨hw, .inr hmem⟩
    · rintro ⟨hw, rfl | hmem⟩
      · exact .inl ⟨hw, rfl⟩
      · exact .inr ⟨hw, hmem⟩

theorem getLsbD_ofSlots : (ofSlots w slots).getLsbD i = decide (i < w ∧ i ∈ slots) := by
  unfold ofSlots
  rw [getLsbD_foldl]
  simp

theorem getLsbD_ofSlots_iff : (ofSlots w slots).getLsbD i = true ↔ i < w ∧ i ∈ slots := by
  rw [getLsbD_ofSlots, decide_eq_true_iff]

theorem lt_of_getLsbD (h : mask.getLsbD i = true) : i < w := by
  by_contra hw
  rw [getLsbD_of_ge mask i (by omega)] at h
  cases h

theorem toNat_lt_two_pow_iff : mask.toNat < 2 ^ k ↔ ∀ j, mask.getLsbD j = true → j < k := by
  constructor
  · intro h j hj
    by_contra hk
    have hle : 2 ^ k ≤ 2 ^ j := Nat.pow_le_pow_right (by omega) (by omega)
    rw [getLsbD, Nat.testBit_lt_two_pow (by omega)] at hj
    cases hj
  · intro h
    apply Nat.lt_pow_two_of_testBit
    intro j hj
    cases hbit : mask.toNat.testBit j with
    | false => rfl
    | true =>
      have := h j hbit
      omega

theorem and_not_eq_zero_iff : mask &&& ~~~other = 0 ↔ ∀ j, mask.getLsbD j = true → other.getLsbD j = true := by
  constructor
  · intro h j hj
    have hw := lt_of_getLsbD hj
    have hbit : (mask &&& ~~~other).getLsbD j = (0 : BitVec w).getLsbD j := by rw [h]
    rw [getLsbD_and, hj] at hbit
    simpa [hw] using hbit
  · intro h
    apply eq_of_getLsbD_eq
    intro j hw
    rw [getLsbD_and, ofNat_eq_ofNat, getLsbD_zero]
    cases hj : mask.getLsbD j with
    | false => rfl
    | true => simp [h j hj]

theorem eq_zero_iff : mask = 0 ↔ ∀ j, mask.getLsbD j = false := by
  constructor
  · rintro rfl j
    simp
  · intro h
    apply eq_of_getLsbD_eq
    intro j hw
    rw [h j, ofNat_eq_ofNat, getLsbD_zero]

theorem ofSlots_eq_zero_iff (h : ∀ slot ∈ slots, slot < w) : ofSlots w slots = 0 ↔ slots = [] := by
  rw [eq_zero_iff]
  constructor
  · intro hclr
    apply eq_nil_iff_forall_not_mem.mpr
    intro slot hsl
    have hbit := hclr slot
    rw [getLsbD_ofSlots, decide_eq_false_iff_not] at hbit
    exact hbit ⟨h slot hsl, hsl⟩
  · rintro rfl j
    rw [getLsbD_ofSlots]
    simp

theorem length_le (hnd : slots.Nodup) (hlt : ∀ slot ∈ slots, slot < k) : slots.length ≤ k := by
  have hsub : slots.Subperm (range k) := subperm_of_subset hnd fun slot hsl => mem_range.mpr (hlt slot hsl)
  have hle := hsub.length_le
  rwa [length_range] at hle

theorem popcount_eq_length (hnd : slots.Nodup) (h : ∀ j, mask.getLsbD j = true ↔ j ∈ slots) :
    popcount mask = slots.length := by
  unfold popcount
  rw [countP_eq_length_filter]
  apply Perm.length_eq
  rw [perm_ext_iff_of_nodup (nodup_range.filter _) hnd]
  intro j
  rw [mem_filter, mem_range, h]
  constructor
  · exact fun hj => hj.2
  · exact fun hj => ⟨lt_of_getLsbD ((h j).mpr hj), hj⟩

theorem popcount_ofSlots (hnd : slots.Nodup) (h : ∀ slot ∈ slots, slot < w) :
    popcount (ofSlots w slots) = slots.length := by
  apply popcount_eq_length hnd
  intro j
  rw [getLsbD_ofSlots_iff]
  exact ⟨fun hj => hj.2, fun hj => ⟨h j hj, hj⟩⟩

theorem getLsbD_clear (j : Nat) : (mask &&& ~~~twoPow w i).getLsbD j = (mask.getLsbD j && decide (j ≠ i)) := by
  by_cases hj : j < w
  · by_cases he : i = j
    · subst he
      simp [hj]
    · simp [hj, Ne.symm he]
  · rw [getLsbD_of_ge _ j (by omega), getLsbD_of_ge _ j (by omega)]
    rfl

theorem popcount_clear (h : mask.getLsbD i = true) : popcount (mask &&& ~~~twoPow w i) + 1 = popcount mask := by
  have hmem : i ∈ (range w).filter mask.getLsbD := mem_filter.mpr ⟨mem_range.mpr (lt_of_getLsbD h), h⟩
  have hnd : ((range w).filter mask.getLsbD).Nodup := nodup_range.filter _
  have hclr : popcount (mask &&& ~~~twoPow w i) = (((range w).filter mask.getLsbD).erase i).length := by
    apply popcount_eq_length (hnd.erase i)
    intro j
    rw [getLsbD_clear, hnd.mem_erase_iff, mem_filter, mem_range, and_eq_true, decide_eq_true_iff]
    exact ⟨fun hj => ⟨hj.2, lt_of_getLsbD hj.1, hj.1⟩, fun hj => ⟨hj.2.2, hj.1⟩⟩
  have hpos := length_pos_of_mem hmem
  rw [hclr, length_erase_of_mem hmem, popcount, countP_eq_length_filter]
  omega

theorem sum_slots {n : Nat} {slots : List Nat} (f : Nat → Int) (hnd : slots.Nodup)
    (hlt : ∀ slot ∈ slots, slot < n) :
    ∑ i : Fin n, (if i.val ∈ slots then f i else 0) = (slots.map f).sum := by
  induction slots with
  | nil => simp
  | cons slot slots ih =>
    obtain ⟨hnew, hnd⟩ := nodup_cons.mp hnd
    have hsl : slot < n := hlt slot mem_cons_self
    have hspl : ∀ i : Fin n, (if i.val ∈ slot :: slots then f i else 0) =
        (if i = ⟨slot, hsl⟩ then f i else 0) + if i.val ∈ slots then f i else 0 := by
      intro i
      by_cases hi : i.val = slot
      · have hi' : i = ⟨slot, hsl⟩ := Fin.ext hi
        rw [if_pos (hi ▸ mem_cons_self), if_pos hi', if_neg (hi ▸ hnew), add_zero]
      · have hi' : i ≠ ⟨slot, hsl⟩ := fun h => hi (congrArg Fin.val h)
        rw [if_neg hi']
        simp [hi]
    rw [Finset.sum_congr rfl fun i _ => hspl i, Finset.sum_add_distrib, Finset.sum_ite_eq',
      if_pos (Finset.mem_univ _), ih hnd (forall_mem_cons.mp hlt).2,
      map_cons, sum_cons]

end SelfQuant.SlotMask
