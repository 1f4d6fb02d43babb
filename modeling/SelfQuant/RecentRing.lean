import Mathlib.Algebra.Order.Ring.Int
import Mathlib.Data.List.Basic

namespace SelfQuant

open List Nat

variable {α : Type} {n wrap count next : Nat} {ring history : List α} {x : α}

/-- A circular buffer of `n` cells holds the last `n` values of `history`. The write counter
wraps at `wrap`. -/
structure Recalls (n wrap : Nat) (ring : List α) (count next : Nat) (history : List α) : Prop where
  length : ring.length = n
  count : count = min n history.length
  next : next = history.length % wrap
  cell : ∀ k, k < history.length → history.length ≤ k + n → ring[k % n]? = history[k]?

section

variable [DecidableEq ι] {f : ι → Option α} {i j : ι}

theorem update_eq_some {o : Option α} :
    Function.update f i o j = some x ↔ j = i ∧ o = some x ∨ j ≠ i ∧ f j = some x := by
  by_cases hj : j = i <;> simp [hj]

theorem of_update_none (h : Function.update f i none j = some x) : j ≠ i ∧ f j = some x := by
  simpa using update_eq_some.mp h

end

theorem mod_ne_of_window {a b : Nat} (hab : a < b) (hw : b < a + n) : a % n ≠ b % n := by
  intro he
  have hd := sub_mod_eq_zero_of_mod_eq he.symm
  rw [mod_eq_of_lt (by omega)] at hd
  omega

theorem exists_mod_in_window {i : Nat} (hi : i < n) (base : Nat) : ∃ k, base ≤ k ∧ k < base + n ∧ k % n = i := by
  have hn : 0 < n := by omega
  refine ⟨base + (i + (n - base % n)) % n, by omega, ?_, ?_⟩
  · have := mod_lt (i + (n - base % n)) hn
    omega
  · have hb := mod_add_div base n
    have hlt := mod_lt base hn
    rw [add_mod_mod, show base + (i + (n - base % n)) = i + n * (base / n + 1) by
      rw [mul_add]; omega, add_mul_mod_self_left, mod_eq_of_lt hi]

theorem Recalls.push (h : Recalls n wrap ring count next history) (hn : 0 < n) (hw : n ∣ wrap) :
    Recalls n wrap (ring.set (next % n) x) (if count < n then count + 1 else count)
      ((next + 1) % wrap) (history ++ [x]) := by
  have hnx : next % n = history.length % n := by rw [h.next, mod_mod_of_dvd _ hw]
  refine ⟨by simp [h.length], ?_, ?_, ?_⟩
  · rw [h.count, length_append, length_singleton]
    split <;> omega
  · rw [h.next, length_append, length_singleton, mod_add_mod]
  · intro k hk hkn
    rw [length_append, length_singleton] at hk hkn
    rw [hnx]
    by_cases he : k = history.length
    · subst he
      have hb : history.length % n < ring.length := by rw [h.length]; exact mod_lt _ hn
      simp [hb]
    · have hne := mod_ne_of_window (n := n) (show k < history.length by omega) (by omega)
      rw [getElem?_set_ne (symm hne), getElem?_append_left (by omega)]
      exact h.cell k (by omega) (by omega)

theorem Recalls.mem_take_iff (h : Recalls n wrap ring count next history) :
    x ∈ ring.take count ↔ x ∈ history.drop (history.length - n) := by
  rw [mem_iff_getElem?, mem_iff_getElem?]
  constructor
  · rintro ⟨i, hi⟩
    have hic : i < count := by
      by_contra hc
      rw [getElem?_eq_none (by rw [length_take]; omega)] at hi
      cases hi
    rw [getElem?_take_of_lt hic] at hi
    have hcnt := h.count
    obtain ⟨k, hba, hkn, hk⟩ := exists_mod_in_window (n := n) (by omega : i < n) (history.length - n)
    have hkl : k < history.length := by
      by_cases hb : n ≤ history.length
      · omega
      · rw [mod_eq_of_lt (by omega)] at hk
        omega
    refine ⟨k - (history.length - n), ?_⟩
    rw [getElem?_drop, show history.length - n + (k - (history.length - n)) = k by omega,
      ← h.cell k hkl (by omega), hk]
    exact hi
  · rintro ⟨i, hi⟩
    rw [getElem?_drop] at hi
    have hlt : history.length - n + i < history.length := by
      by_contra hc
      rw [getElem?_eq_none (by omega)] at hi
      simp at hi
    have hn : 0 < n := by omega
    refine ⟨(history.length - n + i) % n, ?_⟩
    have hm : (history.length - n + i) % n < count := by
      rw [h.count]
      have := mod_lt (history.length - n + i) hn
      have := mod_le (history.length - n + i) n
      omega
    rw [getElem?_take_of_lt hm, h.cell _ hlt (by omega)]
    exact hi

end SelfQuant
