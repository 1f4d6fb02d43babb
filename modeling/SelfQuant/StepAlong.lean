import Mathlib.Tactic.TypeStar

namespace SelfQuant

variable {σ α : Type*} {step : σ → α → σ} {P Q : σ → α → Prop} {s : σ} {l : List α} {count : σ → Nat}

/-- Each step of a run has a property of the state before it and of what it takes. -/
def Along (step : σ → α → σ) (P : σ → α → Prop) : σ → List α → Prop
  | _, [] => True
  | s, a :: l => P s a ∧ Along step P (step s a) l

namespace Along

@[simp]
theorem cons {a : α} : Along step P s (a :: l) ↔ P s a ∧ Along step P (step s a) l := Iff.rfl

instance decidable [∀ s a, Decidable (P s a)] : ∀ (s : σ) (l : List α), Decidable (Along step P s l)
  | _, [] => isTrue trivial
  | s, a :: l =>
    haveI := decidable (step s a) l
    inferInstanceAs (Decidable (P s a ∧ Along step P (step s a) l))

variable (Inv : σ → Prop)

/-- Two properties that agree on the states of an invariant agree on runs, if the property keeps the
invariant. -/
theorem congr (hinv : Inv s) (hiff : ∀ s a, Inv s → (P s a ↔ Q s a))
    (hst : ∀ s a, Inv s → P s a → Inv (step s a)) : Along step P s l ↔ Along step Q s l := by
  induction l generalizing s with
  | nil => exact Iff.rfl
  | cons a l ih =>
    rw [cons, cons, ← hiff s a hinv]
    exact and_congr_right fun hP => ih (hst s a hinv hP)

theorem count_le (hmono : ∀ s a, count s ≤ count (step s a)) : count s ≤ count (l.foldl step s) :=
  List.foldlRecOn l step (Nat.le_refl _) fun b hb a _ => Nat.le_trans hb (hmono b a)

/-- A count that no step lowers is the same after a run exactly if each step leaves it alone. -/
theorem count_eq_iff (hmono : ∀ s a, count s ≤ count (step s a)) :
    count (l.foldl step s) = count s ↔ Along step (fun s a => count (step s a) = count s) s l := by
  induction l generalizing s with
  | nil => exact iff_of_true rfl trivial
  | cons a l ih =>
    rw [List.foldl_cons, cons, ← ih]
    have hfst := hmono s a
    have hrs := count_le (s := step s a) (l := l) hmono
    constructor <;> intro <;> omega

end Along

end SelfQuant
