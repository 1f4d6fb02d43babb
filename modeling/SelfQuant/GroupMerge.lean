import Mathlib.Data.List.TakeWhile
import Mathlib.Data.List.Sublists

/-!
The best key of a list, the elements that have it, and the merge of several sorted lists in which
elements with one key become one group.
-/

namespace SelfQuant.GroupMerge

open List

variable {α κ : Type} {better : κ → κ → Prop}

def Sorted (key : α → κ) (better : κ → κ → Prop) (l : List α) : Prop := l.Pairwise fun x y => ¬better (key y) (key x)

section Sorted

variable {key : α → κ} {l : List α} {k : κ}

theorem while_eq_filter [DecidableEq κ] [IsStrictTotalOrder κ better] (h : Sorted key better l)
    (hk : ∀ x ∈ l, ¬better (key x) k) : (l.takeWhile fun x => key x = k) = l.filter (fun x => key x = k) ∧
      (l.dropWhile fun x => key x = k) = l.filter (fun x => key x ≠ k) := by
  induction l with
  | nil => exact ⟨rfl, rfl⟩
  | cons x l ih =>
    obtain ⟨hx, hl⟩ := pairwise_cons.mp h
    obtain ⟨ihtake, ihdrop⟩ := ih hl (forall_mem_cons.mp hk).2
    by_cases hkey : key x = k
    · simp only [takeWhile_cons, dropWhile_cons, filter_cons, hkey, decide_true, if_true,
        ihtake, ihdrop, ne_eq, not_true, decide_false, Bool.false_eq_true, if_false, and_self]
    · -- everything behind a worse key is worse too
      have hrs : ∀ y ∈ l, key y ≠ k := by
        intro y hy hsm
        have hxk := hk x mem_cons_self
        have hyx := hx y hy
        rw [hsm] at hyx
        rcases trichotomous_of better (key x) k with hlt | heq | hgt
        · exact hxk hlt
        · exact hkey heq
        · exact hyx hgt
      have hno : l.filter (fun y => key y = k) = [] :=
        filter_eq_nil_iff.mpr fun y hy hsm => hrs y hy (of_decide_eq_true hsm)
      have hall : l.filter (fun y => key y ≠ k) = l := filter_eq_self.mpr fun y hy => decide_eq_true (hrs y hy)
      simp only [takeWhile_cons, dropWhile_cons, filter_cons, hkey, decide_false, ne_eq,
        not_false_eq_true, decide_true, if_true, Bool.false_eq_true, if_false, hno, true_and]
      exact congrArg (x :: ·) hall.symm

theorem sorted_rest [DecidableEq κ] {sources : List (List α)}
    (hsorted : ∀ l ∈ sources, Sorted key better l) :
    ∀ l ∈ sources.map fun l => l.filter fun x => key x ≠ k, Sorted key better l :=
  forall_mem_map.mpr fun source hsrc => (hsorted source hsrc).sublist filter_sublist

end Sorted

theorem keyOf_foldl {β : Type} {add : β → α → β} {keyOf : β → κ} {value : β}
    (hadd : ∀ value x, keyOf (add value x) = keyOf value) (group : List α) :
    keyOf (group.foldl add value) = keyOf value := by
  induction group generalizing value with
  | nil => rfl
  | cons x group ih => rw [foldl_cons, ih, hadd]

variable [DecidableRel better]

/-- Keep the better one of two keys, and the first one of two that are as good. -/
def bestTurn (better : κ → κ → Prop) [DecidableRel better] (found : Option κ) (key : κ) : Option κ :=
  match found with
  | none => some key
  | some best => if better key best then some key else some best

def best (better : κ → κ → Prop) [DecidableRel better] (keys : List κ) : Option κ := keys.foldl (bestTurn better) none

section Best

variable {keys : List κ} {k j : κ}

theorem best_concat : best better (keys ++ [k]) = bestTurn better (best better keys) k := by
  unfold best
  rw [foldl_append]
  rfl

theorem best_eq_none_iff : best better keys = none ↔ keys = [] := by
  rcases eq_nil_or_concat keys with rfl | ⟨init, last, rfl⟩
  · exact ⟨fun _ => rfl, fun _ => rfl⟩
  · rw [concat_eq_append, best_concat]
    constructor
    · intro h
      unfold bestTurn at h
      split at h
      next => cases h
      next => split at h <;> cases h
    · intro h
      simp at h

variable [IsStrictTotalOrder κ better]

theorem best_spec (h : best better keys = some k) : k ∈ keys ∧ ∀ j ∈ keys, ¬better j k := by
  induction keys using reverseRecOn generalizing k with
  | nil => cases h
  | append_singleton keys last ih =>
    rw [best_concat] at h
    cases hbt : best better keys with
    | none =>
      cases best_eq_none_iff.mp hbt
      cases h
      refine ⟨mem_singleton_self _, fun j hj => ?_⟩
      rw [mem_singleton.mp hj]
      exact irrefl_of better _
    | some found =>
      obtain ⟨hmem, hno⟩ := ih hbt
      rw [hbt] at h
      unfold bestTurn at h
      dsimp only at h
      split at h
      next hbtr =>
        cases h
        refine ⟨by simp, fun j hj => ?_⟩
        rcases mem_append.mp hj with hj | hj
        · exact fun hlt => hno j hj (trans_of better hlt hbtr)
        · rw [mem_singleton.mp hj]
          exact irrefl_of better _
      next hnot =>
        cases h
        refine ⟨mem_append_left _ hmem, fun j hj => ?_⟩
        rcases mem_append.mp hj with hj | hj
        · exact hno j hj
        · rw [mem_singleton.mp hj]
          exact hnot

end Best

def fronts (key : α → κ) (sources : List (List α)) : List κ := sources.filterMap fun l => l.head?.map key

section Fronts

variable {key : α → κ} {sources : List (List α)} {k : κ}

theorem mem_fronts (hk : k ∈ fronts key sources) : ∃ l ∈ sources, ∃ x ∈ l, key x = k := by
  obtain ⟨l, hl, hfrt⟩ := mem_filterMap.mp hk
  obtain ⟨x, hx, hkey⟩ := Option.map_eq_some_iff.mp hfrt
  exact ⟨l, hl, x, mem_of_head? hx, hkey⟩

theorem not_better_front [IsStrictTotalOrder κ better] (hsorted : ∀ l ∈ sources, Sorted key better l)
    (hbt : best better (fronts key sources) = some k) : ∀ l ∈ sources, ∀ x ∈ l, ¬better (key x) k := by
  intro l hl x hx
  cases l with
  | nil => cases hx
  | cons front l =>
    have hfrt : key front ∈ fronts key sources := mem_filterMap.mpr ⟨front :: l, hl, rfl⟩
    have hle := (best_spec hbt).2 (key front) hfrt
    rcases mem_cons.mp hx with rfl | hx
    · exact hle
    · exact IsOrderConnected.neg_trans ((pairwise_cons.mp (hsorted _ hl)).1 x hx) hle

end Fronts

variable [DecidableEq κ] {key : α → κ}

/-- Add an element to the group of those with the best key. -/
def lead (key : α → κ) (better : κ → κ → Prop) [DecidableRel better] (group : List α) (x : α) : List α :=
  match group with
  | [] => [x]
  | leader :: _ => if better (key x) (key leader) then [x] else if key x = key leader then group ++ [x] else group

def leaders (key : α → κ) (better : κ → κ → Prop) [DecidableRel better] (l : List α) : List α :=
  l.foldl (lead key better) []

section Leaders

variable {l : List α} {k : κ}

theorem leaders_concat (x : α) : leaders key better (l ++ [x]) = lead key better (leaders key better l) x := by
  unfold leaders
  rw [foldl_append]
  rfl

variable [IsStrictTotalOrder κ better]

theorem leaders_eq_filter (h : best better (l.map key) = some k) :
    leaders key better l = l.filter fun x => key x = k := by
  induction l using reverseRecOn generalizing k with
  | nil => cases h
  | append_singleton l last ih =>
    rw [map_append, map_singleton, best_concat] at h
    rw [leaders_concat, filter_append, filter_singleton]
    cases hbt : best better (l.map key) with
    | none =>
      have hnil : l = [] := map_eq_nil_iff.mp (best_eq_none_iff.mp hbt)
      subst hnil
      cases h
      simp [leaders, lead]
    | some found =>
      rw [hbt] at h
      obtain ⟨hmem, hno⟩ := best_spec hbt
      obtain ⟨leader, hleader, hkey⟩ := mem_map.mp hmem
      -- the group so far has a first element, and it has the key found so far
      have hgrp := ih hbt
      cases hg : leaders key better l with
      | nil =>
        rw [hg] at hgrp
        have := filter_eq_nil_iff.mp hgrp.symm leader hleader
        exact absurd (decide_eq_true hkey) this
      | cons first rest =>
        have hfst : key first = found := by
          have hin : first ∈ l.filter fun x => key x = found := by
            rw [← hgrp, hg]
            exact mem_cons_self
          exact of_decide_eq_true (mem_filter.mp hin).2
        unfold bestTurn at h
        unfold lead
        dsimp only at h ⊢
        rw [hfst]
        split at h
        next hbtr =>
          cases h
          rw [if_pos hbtr]
          have hemp : (l.filter fun x => key x = key last) = [] := by
            apply filter_eq_nil_iff.mpr
            intro x hx hsm
            have hx' := hno (key x) (mem_map_of_mem hx)
            rw [of_decide_eq_true hsm] at hx'
            exact hx' hbtr
          rw [hemp, decide_eq_true rfl]
          rfl
        next hnot =>
          cases h
          rw [if_neg hnot, ← hg, hgrp]
          by_cases hsm : key last = k
          · simp [hsm]
          · simp [hsm]

end Leaders

section Summary

variable {β : Type} {start : α → β} {add : β → α → β} {keyOf : β → κ}

/-- A loop that starts a new value for a better key, and adds to its value for the same key. -/
def join (key : α → κ) (better : κ → κ → Prop) [DecidableRel better] (start : α → β) (add : β → α → β)
    (keyOf : β → κ) (found : Option β) (x : α) : Option β :=
  match found with
  | none => some (start x)
  | some value =>
    if better (key x) (keyOf value) then some (start x)
    else if key x = keyOf value then some (add value x)
    else some value

def summary (start : α → β) (add : β → α → β) : List α → Option β
  | [] => none
  | x :: group => some (group.foldl add (start x))

theorem foldl_join (hsta : ∀ x, keyOf (start x) = key x)
    (hadd : ∀ value x, keyOf (add value x) = keyOf value) (l : List α) :
    l.foldl (join key better start add keyOf) none = summary start add (leaders key better l) := by
  induction l using reverseRecOn with
  | nil => rfl
  | append_singleton l last ih =>
    rw [foldl_append, ih, leaders_concat]
    cases leaders key better l with
    | nil => rfl
    | cons first group =>
      have hkey : keyOf (group.foldl add (start first)) = key first := by rw [keyOf_foldl hadd, hsta]
      simp only [summary, foldl_cons, foldl_nil, join, lead, hkey]
      split
      next => rfl
      split
      next =>
        rw [cons_append]
        dsimp only
        rw [foldl_append]
        rfl
      next => rfl

end Summary

/-- At most `room` groups: each one is the best key in front, with what every list has of it. -/
def merge (key : α → κ) (better : κ → κ → Prop) [DecidableRel better] : Nat → List (List α) → List (κ × List (List α))
  | 0, _ => []
  | room + 1, sources =>
    match best better (fronts key sources) with
    | none => []
    | some k =>
      (k, sources.map fun l => l.takeWhile fun x => key x = k) ::
        merge key better room (sources.map fun l => l.dropWhile fun x => key x = k)

theorem length_merge_le {room : Nat} {sources : List (List α)} : (merge key better room sources).length ≤ room := by
  induction room generalizing sources with
  | zero => exact le_refl 0
  | succ room ih =>
    unfold merge
    split
    next => exact Nat.zero_le _
    next => exact Nat.succ_le_succ ih

section Merge

variable {l : List α} {sources : List (List α)} {room : Nat} {k : κ}

variable [IsStrictTotalOrder κ better]

section

variable (hsorted : ∀ l ∈ sources, Sorted key better l)

include hsorted

theorem map_dropWhile (hbt : best better (fronts key sources) = some k) :
    (sources.map fun l => l.dropWhile fun x => key x = k) = sources.map fun l => l.filter fun x => key x ≠ k :=
  map_congr_left fun l hl => (while_eq_filter (hsorted l hl) (not_better_front hsorted hbt l hl)).2

theorem mem_merge {g : κ × List (List α)} (hg : g ∈ merge key better room sources) :
    (g.2 = sources.map fun l => l.filter fun x => key x = g.1) ∧ ∃ l ∈ sources, ∃ x ∈ l, key x = g.1 := by
  induction room generalizing sources with
  | zero => cases hg
  | succ room ih =>
    unfold merge at hg
    split at hg
    next => cases hg
    next k hbt =>
    rcases mem_cons.mp hg with rfl | hg
    · exact ⟨map_congr_left fun l hl => (while_eq_filter (hsorted l hl) (not_better_front hsorted hbt l hl)).1,
      mem_fronts (best_spec hbt).1⟩
    · rw [map_dropWhile hsorted hbt] at hg
      obtain ⟨hgroups, l, hl, x, hx, hkey⟩ := ih (sorted_rest hsorted) hg
      obtain ⟨source, hsrc, rfl⟩ := mem_map.mp hl
      have hne : g.1 ≠ k := hkey ▸ of_decide_eq_true (mem_filter.mp hx).2
      refine ⟨?_, source, hsrc, x, (mem_filter.mp hx).1, hkey⟩
      rw [hgroups, map_map]
      apply map_congr_left
      intro l hl
      rw [Function.comp_apply, filter_filter]
      apply filter_congr
      intro y hy
      by_cases hy : key y = g.1
      · simp [hy, hne]
      · simp [hy]

theorem merge_pairwise : (merge key better room sources).Pairwise fun g h => better g.1 h.1 := by
  induction room generalizing sources with
  | zero => exact Pairwise.nil
  | succ room ih =>
    unfold merge
    split
    next => exact Pairwise.nil
    next k hbt =>
    rw [map_dropWhile hsorted hbt]
    refine pairwise_cons.mpr ⟨fun h hh => ?_, ih (sorted_rest hsorted)⟩
    obtain ⟨-, l, hl, x, hx, hkey⟩ := mem_merge (sorted_rest hsorted) hh
    obtain ⟨source, hsrc, rfl⟩ := mem_map.mp hl
    obtain ⟨hx, hne⟩ := mem_filter.mp hx
    have hnot := not_better_front hsorted hbt source hsrc x hx
    rw [hkey] at hnot hne
    rcases trichotomous_of better k h.1 with hlt | heq | hgt
    · exact hlt
    · exact absurd heq.symm (of_decide_eq_true hne)
    · exact absurd hgt hnot

theorem exists_mem_merge (hrm : sources.flatten.length ≤ room) {x : α} (hl : l ∈ sources) (hx : x ∈ l) :
    ∃ g ∈ merge key better room sources, g.1 = key x := by
  induction room generalizing sources l with
  | zero =>
    have hin : x ∈ sources.flatten := mem_flatten.mpr ⟨l, hl, hx⟩
    have hpos := length_pos_of_mem hin
    omega
  | succ room ih =>
    unfold merge
    split
    next hno =>
      -- there is an element, so a list has one in front
      cases l with
      | nil => cases hx
      | cons front l =>
        have hfrt : key front ∈ fronts key sources := mem_filterMap.mpr ⟨front :: l, hl, rfl⟩
        rw [best_eq_none_iff.mp hno] at hfrt
        cases hfrt
    next k hbt =>
      by_cases hkey : key x = k
      · exact ⟨_, mem_cons_self, hkey.symm⟩
      · rw [map_dropWhile hsorted hbt]
        obtain ⟨g, hg, hgx⟩ := ih (sorted_rest hsorted) (by
            obtain ⟨source, hsrc, y, hy, hyk⟩ := mem_fronts (best_spec hbt).1
            have hlt : (sources.flatten.filter fun x => key x ≠ k).length < sources.flatten.length :=
              length_filter_lt_length_iff_exists.mpr ⟨y, mem_flatten.mpr ⟨source, hsrc, hy⟩, by simp [hyk]⟩
            rw [filter_flatten] at hlt
            exact Nat.le_of_lt_succ (lt_of_lt_of_le hlt hrm))
          (mem_map_of_mem hl) (mem_filter.mpr ⟨hx, decide_eq_true hkey⟩)
        exact ⟨g, mem_cons_of_mem _ hg, hgx⟩

end

end Merge

end SelfQuant.GroupMerge
