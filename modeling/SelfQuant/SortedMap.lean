import Mathlib.Order.RelClasses
import Mathlib.Data.List.Basic

namespace SelfQuant

open List Option

variable {κ ν : Type} {r : κ → κ → Prop} {k' : κ}

/-- Entries in the order of their keys, one for each key. -/
structure SortedMap (κ ν : Type) (r : κ → κ → Prop) where
  entries : List (κ × ν) := []
  sorted : entries.Pairwise fun x y => r x.1 y.1 := by exact List.Pairwise.nil

namespace SortedMap

def empty : SortedMap κ ν r := {}

def insertEntry [DecidableRel r] (k : κ) (v : ν) : List (κ × ν) → List (κ × ν)
  | [] => [(k, v)]
  | x :: entries =>
    if r k x.1 then (k, v) :: x :: entries
    else if r x.1 k then x :: insertEntry k v entries
    else (k, v) :: entries

variable {entries : List (κ × ν)}

theorem mem_insertEntry [DecidableRel r] {k : κ} {v : ν} {x : κ × ν}
    (h : x ∈ insertEntry (r := r) k v entries) : x = (k, v) ∨ x ∈ entries := by
  induction entries with
  | nil => exact .inl (mem_singleton.mp h)
  | cons y entries ih =>
    unfold insertEntry at h
    split_ifs at h
    · exact mem_cons.mp h
    · rcases mem_cons.mp h with rfl | h
      · exact .inr mem_cons_self
      · exact (ih h).imp_right (mem_cons_of_mem _)
    · exact (mem_cons.mp h).imp_right (mem_cons_of_mem _)

variable [IsStrictTotalOrder κ r]

theorem key_eq {k k' : κ} (h : ¬r k k') (h' : ¬r k' k) : k = k' := by
  rcases trichotomous_of r k k' with hlt | heq | hgt
  · exact absurd hlt h
  · exact heq
  · exact absurd hgt h'

theorem insertEntry_sorted [DecidableRel r] (k : κ) (v : ν) (h : entries.Pairwise fun x y => r x.1 y.1) :
    (insertEntry (r := r) k v entries).Pairwise fun x y => r x.1 y.1 := by
  induction entries with
  | nil => exact pairwise_singleton _ _
  | cons y entries ih =>
    obtain ⟨hfst, hrs⟩ := pairwise_cons.mp h
    unfold insertEntry
    split_ifs with hbef haft
    · refine pairwise_cons.mpr ⟨fun x hx => ?_, h⟩
      rcases mem_cons.mp hx with rfl | hx
      · exact hbef
      · exact trans_of r hbef (hfst x hx)
    · refine pairwise_cons.mpr ⟨fun x hx => ?_, ih hrs⟩
      rcases mem_insertEntry hx with rfl | hx
      · exact haft
      · exact hfst x hx
    · rw [key_eq hbef haft]
      exact pairwise_cons.mpr ⟨hfst, hrs⟩

def insert [DecidableRel r] (m : SortedMap κ ν r) (k : κ) (v : ν) : SortedMap κ ν r :=
  ⟨insertEntry (r := r) k v m.entries, insertEntry_sorted k v m.sorted⟩

section Lookup

omit [IsStrictTotalOrder κ r]

variable [DecidableEq κ] {m : SortedMap κ ν r} {k : κ} {v : ν}

def erase (m : SortedMap κ ν r) (k : κ) : SortedMap κ ν r := ⟨m.entries.filter (·.1 ≠ k), m.sorted.filter _⟩

def find? (m : SortedMap κ ν r) (k : κ) : Option ν := (m.entries.find? (·.1 = k)).map (·.2)

def first? (m : SortedMap κ ν r) : Option (κ × ν) := m.entries.head?

theorem find?_erase : (m.erase k).find? k' = if k' = k then none else m.find? k' := by
  unfold find? erase
  rw [find?_filter]
  split_ifs with hk
  · rw [find?_eq_none.mpr fun x _ => by simp [hk]]
    rfl
  · congr 2
    funext x
    by_cases hx : x.1 = k'
    · simp [hx, hk]
    · simp [hx]

theorem mem_of_find? (h : m.find? k = some v) : (k, v) ∈ m.entries := by
  obtain ⟨x, hx, rfl⟩ := map_eq_some_iff.mp h
  have hkey : x.1 = k := by simpa using find?_some hx
  rw [← hkey]
  exact mem_of_find?_eq_some hx

theorem first?_eq_none_iff : m.first? = none ↔ ∀ k, m.find? k = none := by
  unfold first? find?
  rw [head?_eq_none_iff]
  constructor
  · intro h k
    rw [h]
    rfl
  · intro h
    refine eq_nil_iff_forall_not_mem.mpr fun x hx => ?_
    have hno := map_eq_none_iff.mp (h x.1)
    exact find?_eq_none.mp hno x hx (by simp)

end Lookup

variable [DecidableEq κ] {m : SortedMap κ ν r} {k : κ} {v : ν}

theorem find?_insertEntry [DecidableRel r] : (insertEntry (r := r) k v entries).find? (·.1 = k') =
      if k' = k then some (k, v) else entries.find? (·.1 = k') := by
  by_cases hk : k' = k
  · rw [if_pos hk]
    induction entries with
    | nil => simp [insertEntry, hk]
    | cons y entries ih =>
      unfold insertEntry
      split_ifs with hbef haft
      · simp [hk]
      · have hne : y.1 ≠ k := fun heq => irrefl_of r k (heq ▸ haft)
        rw [find?_cons_of_neg (by simpa [hk] using hne), ih]
      · simp [hk]
  · have hne : ¬k = k' := Ne.symm hk
    rw [if_neg hk]
    induction entries with
    | nil => simp [insertEntry, hne]
    | cons y entries ih =>
      unfold insertEntry
      split_ifs with hbef haft
      · rw [find?_cons_of_neg (by simpa using hne)]
      · rw [find?_cons, find?_cons, ih]
      · have heq := key_eq hbef haft
        rw [find?_cons_of_neg (by simpa using hne), find?_cons_of_neg (by simpa [← heq] using hne)]

theorem find?_insert [DecidableRel r] : (m.insert k v).find? k' = if k' = k then some v else m.find? k' := by
  unfold find? insert
  rw [find?_insertEntry]
  split_ifs <;> rfl

theorem first?_eq_some_iff : m.first? = some (k, v) ↔ m.find? k = some v ∧ ∀ k', m.find? k' ≠ none → ¬r k' k := by
  obtain ⟨entries, hsrt⟩ := m
  cases entries with
  | nil => simp [first?, find?]
  | cons x entries =>
    obtain ⟨hfst, -⟩ := pairwise_cons.mp hsrt
    have hx : find? (⟨x :: entries, hsrt⟩ : SortedMap κ ν r) x.1 = some x.2 := by simp [find?]
    constructor
    · intro h
      obtain rfl : x = (k, v) := by simpa [first?] using h
      refine ⟨hx, fun k' hk' hbef => ?_⟩
      obtain ⟨v', hv'⟩ := ne_none_iff_exists'.mp hk'
      rcases mem_cons.mp (mem_of_find? hv') with heq | hmem
      · exact irrefl_of r k ((Prod.mk.inj heq).1 ▸ hbef)
      · exact asymm_of r (hfst _ hmem) hbef
    · rintro ⟨hfd, hleast⟩
      have hnot := hleast x.1 (by rw [hx]; exact some_ne_none _)
      rcases mem_cons.mp (mem_of_find? hfd) with heq | hmem
      · rw [heq]
        rfl
      · exact absurd (hfst _ hmem) hnot

end SortedMap

end SelfQuant
