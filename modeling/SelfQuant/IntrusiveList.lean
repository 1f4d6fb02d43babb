import Mathlib.Algebra.Order.Ring.Int
import Mathlib.Data.List.Nodup

namespace SelfQuant

open List

variable {α : Type} {next next' prev prev' : α → α} {before before' after after' a : α} {xs ys : List α}

/-- The members of a list are chained by `next` and `prev`; `before` and `after` stand at its
two ends. -/
def Linked (next prev : α → α) : α → List α → α → Prop
  | _, [], _ => True
  | before, a :: rest, after => prev a = before ∧ next a = rest.headD after ∧ Linked next prev a rest after

theorem headD_append : (xs ++ ys).headD a = xs.headD (ys.headD a) := by
  cases xs <;> rfl

theorem linked_append : Linked next prev before (xs ++ ys) after ↔
    Linked next prev before xs (ys.headD after) ∧ Linked next prev (xs.getLastD before) ys after := by
  induction xs generalizing before with
  | nil => simp [Linked]
  | cons x xs ih => simp only [cons_append, Linked, ih, headD_append, getLastD_cons, and_assoc]

variable [DecidableEq α]

section

variable (h : Linked next prev before xs after) (hd : xs.Nodup)

include h hd

theorem Linked.retail (hn : ∀ x ∈ xs, next' x = if xs.getLast? = some x then after' else next x)
    (hp : ∀ x ∈ xs, prev' x = prev x) : Linked next' prev' before xs after' := by
  induction xs generalizing before with
  | nil => trivial
  | cons x xs ih =>
    obtain ⟨hx, hd⟩ := nodup_cons.mp hd
    obtain ⟨h₁, h₂, h₃⟩ := h
    refine ⟨(hp x (by simp)).trans h₁, ?_, ih h₃ hd (fun y hy => ?_) fun y hy => hp y (by simp [hy])⟩
    · have hnx := hn x (by simp)
      cases xs with
      | nil => simpa using hnx
      | cons y ys =>
        rw [if_neg] at hnx
        · exact hnx.trans h₂
        · exact fun he => hx (mem_of_getLast? he)
    · rw [hn y (by simp [hy])]
      cases xs with
      | nil => cases hy
      | cons z zs => rw [getLast?_cons_cons]

theorem Linked.rehead (hp : ∀ x ∈ xs, prev' x = if xs.head? = some x then before' else prev x)
    (hn : ∀ x ∈ xs, next' x = next x) : Linked next' prev' before' xs after := by
  cases xs with
  | nil => trivial
  | cons x xs =>
    obtain ⟨hx, hd⟩ := nodup_cons.mp hd
    obtain ⟨_, h₂, h₃⟩ := h
    refine ⟨by simpa using hp x (by simp), (hn x (by simp)).trans h₂, h₃.retail hd ?_ ?_⟩
    · intro y hy
      rw [hn y (by simp [hy])]
      split
      next hla =>
        obtain ⟨pre, rfl⟩ := getLast?_eq_some_iff.mp hla
        exact ((linked_append.mp h₃).2.2.1)
      next => rfl
    · intro y hy
      have hne : x ≠ y := by rintro rfl; exact hx hy
      simpa [hne] using hp y (by simp [hy])

theorem Linked.congr (hn : ∀ x ∈ xs, next' x = next x) (hp : ∀ x ∈ xs, prev' x = prev x) :
    Linked next' prev' before xs after := by
  refine h.retail hd (fun x hx => ?_) hp
  rw [hn x hx]
  split
  next hla =>
    obtain ⟨pre, rfl⟩ := getLast?_eq_some_iff.mp hla
    exact ((linked_append.mp h).2.2.1)
  next => rfl

theorem Linked.push (hn : ∀ x ∈ xs, next' x = if xs.getLast? = some x then a else next x)
    (hp : ∀ x ∈ xs, prev' x = prev x) (hna : next' a = after)
    (hpa : prev' a = xs.getLastD before) : Linked next' prev' before (xs ++ [a]) after :=
  linked_append.mpr ⟨h.retail hd hn hp, hpa, hna, trivial⟩

end

theorem Linked.unlink (h : Linked next prev before (xs ++ a :: ys) after) (hd : (xs ++ a :: ys).Nodup)
    (hn : ∀ x ∈ xs ++ ys, next' x = if xs.getLast? = some x then ys.headD after else next x)
    (hp : ∀ x ∈ xs ++ ys, prev' x = if ys.head? = some x then xs.getLastD before else prev x) :
    Linked next' prev' before (xs ++ ys) after := by
  obtain ⟨h₁, _, _, h₂⟩ := linked_append.mp h
  obtain ⟨hxs, hay, hdis⟩ := nodup_append.mp hd
  have hys : ys.Nodup := (nodup_cons.mp hay).2
  refine linked_append.mpr ⟨h₁.retail hxs (fun x hx => hn x (by simp [hx])) fun x hx => ?_,
    h₂.rehead hys (fun x hx => hp x (by simp [hx])) fun x hx => ?_⟩
  · rw [hp x (by simp [hx]), if_neg]
    exact fun he => hdis x hx x (by simp [mem_of_head? he]) rfl
  · rw [hn x (by simp [hx]), if_neg]
    exact fun he => hdis x (mem_of_getLast? he) x (by simp [hx]) rfl

/-- The members met by following `next` from `start`, for at most `fuel` steps. -/
def walk (missing : α) (next : α → α) : Nat → α → List α
  | 0, _ => []
  | fuel + 1, start => if start = missing then [] else start :: walk missing next fuel (next start)

theorem Linked.walk {missing : α} (h : Linked next prev before xs missing) (hm : missing ∉ xs) {fuel : Nat}
    (hf : xs.length ≤ fuel) : walk missing next fuel (xs.headD missing) = xs := by
  induction xs generalizing before fuel with
  | nil => cases fuel <;> simp [walk]
  | cons x xs ih =>
    obtain ⟨_, hn, h⟩ := h
    simp only [mem_cons, not_or] at hm
    cases fuel with
    | zero => simp at hf
    | succ fuel =>
      have hrs := ih h hm.2 (Nat.le_of_succ_le_succ hf)
      simp only [walk, headD_cons, if_neg (Ne.symm hm.1), hn, hrs]

end SelfQuant
