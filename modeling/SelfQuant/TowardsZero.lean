import Mathlib.Algebra.Order.Ring.Abs
import Mathlib.Tactic.Linarith

namespace SelfQuant

variable {α : Type*} [CommRing α] [LinearOrder α] {x y z d : α}

/-- The way from the first number to the second one is towards zero and ends there at the latest. -/
def TowardsZero (x y : α) : Prop := (0 ≤ y ∧ y < x) ∨ (x < y ∧ y ≤ 0)

instance : Decidable (TowardsZero x y) := inferInstanceAs (Decidable (_ ∨ _))

namespace TowardsZero

theorem trans (h : TowardsZero x y) (h' : TowardsZero y z) : TowardsZero x z := by
  rcases h with ⟨hy, hlt⟩ | ⟨hlt, hy⟩
  · rcases h' with ⟨hz, hlt'⟩ | ⟨hlt', hz⟩
    · exact .inl ⟨hz, hlt'.trans hlt⟩
    · exact absurd (hlt'.trans_le hz) (not_lt.mpr hy)
  · rcases h' with ⟨hz, hlt'⟩ | ⟨hlt', hz⟩
    · exact absurd (hz.trans_lt hlt') (not_lt.mpr hy)
    · exact .inr ⟨hlt.trans hlt', hz⟩

variable [IsStrictOrderedRing α]

/-- A step that is no longer than the way to zero leads there if and only if it points there. -/
theorem add_iff (hle : |d| ≤ |x|) : TowardsZero x (x + d) ↔ x * d < 0 := by
  constructor
  · rintro (⟨hy, hlt⟩ | ⟨hlt, hy⟩)
    · have hd : d < 0 := by linarith
      have hx : 0 < x := by linarith
      exact mul_neg_of_pos_of_neg hx hd
    · have hd : 0 < d := by linarith
      have hx : x < 0 := by linarith
      exact mul_neg_of_neg_of_pos hx hd
  · intro hneg
    rcases mul_neg_iff.mp hneg with ⟨hx, hd⟩ | ⟨hx, hd⟩
    · rw [abs_of_neg hd, abs_of_pos hx] at hle
      exact .inl ⟨by linarith, by linarith⟩
    · rw [abs_of_pos hd, abs_of_neg hx] at hle
      exact .inr ⟨by linarith, by linarith⟩

end TowardsZero

end SelfQuant
