import Mathlib.Order.Lattice
import Mathlib.Logic.Equiv.Basic

/-!
Binary heaps as sequences of keys. `key i` is the key at place `i`, the heap has `n` places and the
parent of place `i` is place `(i - 1) / 2`.
-/

namespace SelfQuant.BinaryHeap

open Equiv

variable {κ : Type} [LinearOrder κ] {key key' : Nat → κ} {n m i j child : Nat}

def parent (i : Nat) : Nat := (i - 1) / 2

/-- No key is before the key of its parent. -/
def Ordered (key : Nat → κ) (n : Nat) : Prop := ∀ i, 0 < i → i < n → key (parent i) ≤ key i

/-- The key at place `i` may be anything; around it the heap is in order. -/
structure OrderedBut (key : Nat → κ) (n i : Nat) : Prop where
  others : ∀ j, 0 < j → j < n → j ≠ i → parent j ≠ i → key (parent j) ≤ key j
  around : 0 < i → ∀ j, 0 < j → j < n → parent j = i → key (parent i) ≤ key j

def Above (key : Nat → κ) (i : Nat) : Prop := 0 < i → key (parent i) ≤ key i

def Below (key : Nat → κ) (n i : Nat) : Prop := ∀ j, 0 < j → j < n → parent j = i → key i ≤ key j

theorem OrderedBut.ordered (h : OrderedBut key n i) (ha : Above key i) (hb : Below key n i) :
    Ordered key n := by
  intro j hj hjn
  by_cases hji : j = i
  · subst hji
    exact ha hj
  · by_cases hp : parent j = i
    · rw [hp]
      exact hb j hj hjn hp
    · exact h.others j hj hjn hji hp

theorem parent_lt (hi : 0 < i) : parent i < i := by
  unfold parent
  omega

theorem OrderedBut.ordered_of_le (h : OrderedBut key n i) (hi : n ≤ i) : Ordered key n := by
  intro j hj hjn
  have := parent_lt hj
  exact h.others j hj hjn (by omega) (by omega)

theorem Ordered.replace (h : Ordered key n) (hi : i < n) (hm : m ≤ n)
    (hk : ∀ j, j < m → j ≠ i → key' j = key j) : OrderedBut key' m i := by
  refine ⟨fun j hj hjm hji hp => ?_, fun hpos j hj hjm hp => ?_⟩
  · have := parent_lt hj
    rw [hk j hjm hji, hk (parent j) (by omega) hp]
    exact h j hj (by omega)
  · have hup := parent_lt hpos
    have hdn := parent_lt hj
    rw [hk j hjm (by omega), hk (parent i) (by omega) (by omega)]
    have hch := h j hj (by omega)
    rw [hp] at hch
    exact (h i hpos hi).trans hch

theorem Ordered.push (h : Ordered key n) (hk : ∀ j, j < n → key' j = key j) :
    OrderedBut key' (n + 1) n ∧ Below key' (n + 1) n := by
  have hleaf : ∀ j, 0 < j → j < n + 1 → parent j ≠ n := by
    intro j hj hjn
    have := parent_lt hj
    omega
  refine ⟨⟨fun j hj hjn hne _ => ?_, fun _ j hj hjn hp => absurd hp (hleaf j hj hjn)⟩,
    fun j hj hjn hp => absurd hp (hleaf j hj hjn)⟩
  have := parent_lt hj
  rw [hk j (by omega), hk (parent j) (by omega)]
  exact h j hj (by omega)

theorem Ordered.root_le (h : Ordered key n) (hi : i < n) : key 0 ≤ key i := by
  induction i using Nat.strongRecOn with
  | ind i ih =>
    by_cases hz : i = 0
    · rw [hz]
    · have hlt := parent_lt (Nat.pos_of_ne_zero hz)
      exact (ih (parent i) hlt (by omega)).trans (h i (by omega) hi)

omit [LinearOrder κ] in
theorem swap_cases (k : Nat) : (key ∘ swap i j) k = if k = i then key j else if k = j then key i else key k := by
  rw [Function.comp_apply, swap_apply_def]
  split
  next => rfl
  next => split <;> rfl

theorem OrderedBut.swap_up (h : OrderedBut key n i) (hb : Below key n i) (hi : 0 < i)
    (hlt : key i < key (parent i)) : OrderedBut (key ∘ swap i (parent i)) n (parent i) ∧
      Below (key ∘ swap i (parent i)) n (parent i) := by
  have hpi := parent_lt hi
  have hne : parent i ≠ i := by omega
  -- the brother of `i` and what stands under `i` are after the old parent
  have hbrother : ∀ j, 0 < j → j < n → j ≠ i → parent j = parent i → key (parent i) ≤ key j := by
    intro j hj hjn hji hp
    have := h.others j hj hjn hji (by rw [hp]; exact hne)
    rwa [hp] at this
  have hgrand : 0 < parent i → parent (parent i) < parent i := parent_lt
  have habv : 0 < parent i → parent i < n → key (parent (parent i)) ≤ key (parent i) := by
    intro hpos hin
    exact h.others (parent i) hpos hin hne (by omega)
  refine ⟨⟨fun j hj hjn hji hp => ?_, fun hpos j hj hjn hp => ?_⟩, fun j hj hjn hp => ?_⟩
  · have hjne : j ≠ i := by
      rintro rfl
      exact hp rfl
    rw [swap_cases, swap_cases, if_neg hp, if_neg hjne, if_neg hji]
    by_cases hpj : parent j = i
    · rw [if_pos hpj]
      exact h.around hi j hj hjn hpj
    · rw [if_neg hpj]
      exact h.others j hj hjn hjne hpj
  · have hjlow : parent i < j := by
      rw [← hp] at hpos ⊢
      unfold parent at hpos ⊢
      omega
    rw [swap_cases, swap_cases, if_neg (by omega), if_neg (by omega), if_neg (show j ≠ parent i by omega)]
    by_cases hjne : j = i
    · rw [if_pos hjne]
      exact habv hpos (by omega)
    · rw [if_neg hjne]
      exact (habv hpos (by omega)).trans (hbrother j hj hjn hjne hp)
  · rw [swap_cases, swap_cases, if_neg hne, if_pos rfl]
    by_cases hjne : j = i
    · rw [if_pos hjne]
      exact hlt.le
    · have hjp : j ≠ parent i := by
        rintro rfl
        omega
      rw [if_neg hjne, if_neg hjp]
      exact hlt.le.trans (hbrother j hj hjn hjne hp)

theorem OrderedBut.swap_down (h : OrderedBut key n i) (hc : child < n) (hpos : 0 < child)
    (hp : parent child = i) (hfst : ∀ j, 0 < j → j < n → parent j = i → key child ≤ key j)
    (hlt : key child < key i) :
    OrderedBut (key ∘ swap i child) n child ∧ Above (key ∘ swap i child) child := by
  have hic : i < child := hp ▸ parent_lt hpos
  refine ⟨⟨fun j hj hjn hjc hpj => ?_, fun _ j hj hjn hpj => ?_⟩, fun _ => ?_⟩
  · rw [swap_cases, swap_cases, if_neg hpj, if_neg hjc]
    by_cases hji : j = i
    · have hpi : parent j ≠ i := by
        unfold parent
        omega
      rw [if_pos hji, if_neg hpi, hji]
      exact h.around (by omega) child hpos hc hp
    · rw [if_neg hji]
      by_cases hpi : parent j = i
      · rw [if_pos hpi]
        exact hfst j hj hjn hpi
      · rw [if_neg hpi]
        exact h.others j hj hjn hji hpi
  · have hji : j ≠ i := by
      unfold parent at hpj
      omega
    have hjc : j ≠ child := by
      unfold parent at hpj
      omega
    rw [swap_cases, swap_cases, if_pos hp, if_neg hji, if_neg hjc]
    have hunder := h.others j hj hjn hji (by omega)
    rwa [hpj] at hunder
  · rw [swap_cases, swap_cases, if_pos hp, if_neg (by omega), if_pos rfl]
    exact hlt.le

end SelfQuant.BinaryHeap
