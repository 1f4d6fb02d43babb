import Mathlib.Logic.Function.Basic

namespace SelfQuant.ExclusiveClaims

open Function

variable {ι ρ : Type} {claims : ι → Option ρ} {a : ι} {x : ρ} {c : Option ρ}

def Unclaimed (claims : ι → Option ρ) (x : ρ) : Prop := ∀ a, claims a ≠ some x

/-- One party claims the resource, and no other one does. -/
structure OnlyClaim (claims : ι → Option ρ) (x : ρ) (a : ι) : Prop where
  claimed : claims a = some x
  unique : ∀ b, claims b = some x → b = a

section

variable {claims' : ι → Option ρ} (hsub : ∀ b, claims' b = some x → claims b = some x)

include hsub

theorem Unclaimed.mono (h : Unclaimed claims x) : Unclaimed claims' x :=
  fun b hb => h b (hsub b hb)

theorem OnlyClaim.mono (h : OnlyClaim claims x a) (ha : claims' a = some x) : OnlyClaim claims' x a :=
  ⟨ha, fun b hb => h.unique b (hsub b hb)⟩

theorem OnlyClaim.unclaimed (h : OnlyClaim claims x a) (ha : claims' a ≠ some x) : Unclaimed claims' x := by
  intro b hb
  have heq := h.unique b (hsub b hb)
  rw [heq] at hb
  exact ha hb

end

variable [DecidableEq ι]

theorem update_sub (hne : c ≠ some x) (b : ι) (hb : update claims a c b = some x) : claims b = some x := by
  by_cases hab : b = a
  · rw [hab, update_self] at hb
    exact absurd hb hne
  · rwa [update_of_ne hab] at hb

theorem Unclaimed.update (h : Unclaimed claims x) (hne : c ≠ some x) :
    Unclaimed (update claims a c) x := h.mono (update_sub hne)

theorem Unclaimed.claim (h : Unclaimed claims x) : OnlyClaim (Function.update claims a (some x)) x a := by
  refine ⟨update_self .., fun b hb => ?_⟩
  by_contra hab
  rw [update_of_ne hab] at hb
  exact h b hb

theorem OnlyClaim.keep (h : OnlyClaim claims x a) : OnlyClaim (update claims a (some x)) x a := by
  refine ⟨update_self .., fun b hb => ?_⟩
  by_contra hab
  rw [update_of_ne hab] at hb
  exact hab (h.unique b hb)

theorem OnlyClaim.drop (h : OnlyClaim claims x a) (hne : c ≠ some x) : Unclaimed (update claims a c) x :=
  h.unclaimed (update_sub hne) (by rw [update_self]; exact hne)

theorem OnlyClaim.other {b : ι} (h : OnlyClaim claims x b) (hab : b ≠ a) (hne : c ≠ some x) :
    OnlyClaim (update claims a c) x b :=
  h.mono (update_sub hne) (by rw [update_of_ne hab]; exact h.claimed)

end SelfQuant.ExclusiveClaims
