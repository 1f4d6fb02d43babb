import Mathlib.Algebra.Order.Ring.Int
import Mathlib.Data.List.Nodup

namespace SelfQuant

open Function

variable {α : Type} {heap : List α} {pos pos' : α → Nat} {a b x : α} {i j : Nat}

/-- `pos` tells where each member of `heap` stands. -/
def Tracks (heap : List α) (pos : α → Nat) : Prop := ∀ i x, heap[i]? = some x → pos x = i

theorem Tracks.nodup (h : Tracks heap pos) : heap.Nodup := by
  rw [List.nodup_iff_getElem?_ne_getElem?]
  intro i j hij hj he
  rw [List.getElem?_eq_getElem hj] at he
  have hi := h _ _ he
  have hj := h _ _ (List.getElem?_eq_getElem hj)
  omega

theorem Tracks.congr (h : Tracks heap pos) (hp : ∀ x ∈ heap, pos' x = pos x) : Tracks heap pos' := by
  intro i x hx
  rw [hp x (List.mem_of_getElem? hx)]
  exact h i x hx

def exchange (heap : List α) (i j : Nat) (a b : α) : List α := (heap.set i b).set j a

theorem exchange_perm (hi : heap[i]? = some a) (hj : heap[j]? = some b) : (exchange heap i j a b).Perm heap := by
  obtain ⟨hil, rfl⟩ := getElem?_eq_some_iff.mp hi
  obtain ⟨hjl, rfl⟩ := getElem?_eq_some_iff.mp hj
  exact List.set_set_perm hil hjl

theorem exchange_getElem? (hi : heap[i]? = some a) (hj : heap[j]? = some b) (k : Nat) :
    (exchange heap i j a b)[k]? = if k = j then some a else if k = i then some b else heap[k]? := by
  have hil : i < heap.length := (List.getElem?_eq_some_iff.mp hi).1
  have hjl : j < heap.length := (List.getElem?_eq_some_iff.mp hj).1
  unfold exchange
  by_cases hk : k = j
  · subst hk
    simp [hjl]
  · by_cases hki : k = i
    · subst hki
      simp [hil, Ne.symm hk, hk]
    · simp [Ne.symm hk, Ne.symm hki, hk, hki]

theorem Tracks.dropLast (h : Tracks heap pos) : Tracks heap.dropLast pos := by
  intro i x hx
  rw [List.getElem?_dropLast] at hx
  split at hx
  next => exact h i x hx
  next => cases hx

variable [DecidableEq α]

theorem Tracks.exchange (h : Tracks heap pos) (hi : heap[i]? = some a) (hj : heap[j]? = some b) :
    Tracks (exchange heap i j a b) (update (update pos b i) a j) := by
  intro k x hx
  rw [exchange_getElem? hi hj] at hx
  split at hx
  next hk =>
    cases hx
    rw [update_self, hk]
  next hkj =>
    split at hx
    next hki =>
      cases hx
      have hne : b ≠ a := by
        rintro rfl
        have := h _ _ hi
        have := h _ _ hj
        omega
      rw [update_of_ne hne, update_self, hki]
    next hki =>
      have hxk := h k x hx
      have hxa : x ≠ a := by
        rintro rfl
        have := h _ _ hi
        omega
      have hxb : x ≠ b := by
        rintro rfl
        have := h _ _ hj
        omega
      rw [update_of_ne hxa, update_of_ne hxb, hxk]

theorem Tracks.push (h : Tracks heap pos) (hx : x ∉ heap) : Tracks (heap ++ [x]) (update pos x heap.length) := by
  intro i y hy
  rw [List.getElem?_append] at hy
  split at hy
  next hlt =>
    have hne : y ≠ x := by
      rintro rfl
      exact hx (List.mem_of_getElem? hy)
    rw [update_of_ne hne]
    exact h i y hy
  next hge =>
    obtain ⟨hi, rfl⟩ := getElem?_eq_some_iff.mp hy
    simp only [List.length_singleton] at hi
    simp only [List.getElem_singleton, update_self]
    omega

end SelfQuant
