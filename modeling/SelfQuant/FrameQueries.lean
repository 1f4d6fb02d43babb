import Mathlib.Data.Nat.Basic

namespace SelfQuant.Frame

open List Option

inductive QueryKind
  | openOrders | positions | balances

structure PendingQuery where
  (token accountId : Nat)
  kind : QueryKind

/-- A `std::vector`. Every move to a new block makes it larger, so that the capacity tells the block. -/
structure PendingQueries where
  items : List PendingQuery
  capacity : Nat
  fits : items.length ≤ capacity

structure Iterator where
  (block index : Nat)

namespace PendingQueries

variable (v : PendingQueries)

def pushBack (query : PendingQuery) : PendingQueries where
  items := v.items ++ [query]
  capacity := if v.items.length < v.capacity then v.capacity else max 1 (2 * v.capacity)
  fits := by
    have := v.fits
    rw [length_append, length_singleton]
    split <;> omega

/-- Reading through an iterator of a block the vector has left is undefined. -/
def deref (it : Iterator) : Option PendingQuery := if it.block = v.capacity then v.items[it.index]? else none

def erase (it : Iterator) : Option PendingQueries :=
  if it.block = v.capacity ∧ it.index < v.items.length then
    some ⟨v.items.eraseIdx it.index, v.capacity, le_trans (v.items.length_eraseIdx_le _) v.fits⟩
  else none

def query (commandQueue : Nat) (v : PendingQueries) (query : PendingQuery) : PendingQueries :=
  if commandQueue ≤ v.items.length then v else v.pushBack query

def queries (commandQueue : Nat) (v : PendingQueries) (requests : List PendingQuery) : PendingQueries :=
  requests.foldl (query commandQueue) v

end PendingQueries

/-- The queries each callback submits through the context, for what it is told. -/
structure Callbacks where
  (positionsSnapshot openOrdersSnapshot queryComplete : PendingQuery → List PendingQuery)

def Callbacks.snapshot (callbacks : Callbacks) (completeError : Int) (pending : PendingQuery) : List PendingQuery :=
  match pending.kind with
  | .positions => if completeError = 0 then callbacks.positionsSnapshot pending else []
  | .openOrders => callbacks.openOrdersSnapshot pending
  | .balances => []

namespace PendingQueries

/-- The handler of a completion; `none` where it goes through an invalid iterator. -/
def complete (callbacks : Callbacks) (commandQueue token : Nat) (completeError : Int) (v : PendingQueries) :
    Option PendingQueries :=
  match v.items.findIdx? (·.token = token) with
  | none => some v
  | some index => do
    let it : Iterator := ⟨v.capacity, index⟩
    let pending ← v.deref it
    let v := v.queries commandQueue (callbacks.snapshot completeError pending)
    let pending ← v.deref it
    (v.queries commandQueue (callbacks.queryComplete pending)).erase it

def submitted (callbacks : Callbacks) (commandQueue token : Nat) (completeError : Int) (v : PendingQueries) :
    List PendingQuery :=
  match v.items.find? (·.token = token) with
  | none => []
  | some pending => (callbacks.snapshot completeError pending ++ callbacks.queryComplete pending).take
      (commandQueue - v.items.length)

variable {callbacks : Callbacks} {limit token : Nat} {completeError : Int} {v : PendingQueries}

theorem queries_items (requests : List PendingQuery) :
    (v.queries limit requests).items = v.items ++ requests.take (limit - v.items.length) := by
  induction requests generalizing v with
  | nil => simp [queries]
  | cons request requests ih =>
    rw [queries, foldl_cons, ← queries, ih, query]
    split
    next hfu => simp [Nat.sub_eq_zero_of_le hfu]
    next hrm =>
      obtain ⟨room, rfl⟩ := Nat.exists_eq_add_of_lt (Nat.lt_of_not_le hrm)
      simp [pushBack, show v.items.length + room + 1 - v.items.length = room + 1 by omega,
        show v.items.length + room + 1 - (v.items.length + 1) = room by omega]

theorem queries_capacity {requests : List PendingQuery} (h : (v.queries limit requests).items.length ≤ v.capacity) :
    (v.queries limit requests).capacity = v.capacity := by
  induction requests generalizing v with
  | nil => rfl
  | cons request requests ih =>
    have hlen := h
    rw [queries, foldl_cons, ← queries] at h hlen ⊢
    rw [queries_items, length_append] at hlen
    have hsm : (v.query limit request).capacity = v.capacity := by
      unfold query at hlen ⊢
      split
      next => rfl
      next hrm =>
        simp only [if_neg hrm, pushBack, length_append, length_singleton] at hlen
        exact if_pos (by omega)
    rw [ih (hsm ▸ h), hsm]

/-- A completion goes through valid iterators only, and leaves the other queries and those of its callbacks,
exactly when the callbacks do not outgrow the vector. -/
theorem complete_eq_iff :
    (∃ w, v.complete callbacks limit token completeError = some w ∧
      w.items = v.items.eraseP (·.token = token) ++ v.submitted callbacks limit token completeError) ↔
    v.items.length + (v.submitted callbacks limit token completeError).length ≤ v.capacity := by
  unfold complete submitted
  rw [find?_eq_bind_findIdx?_getElem?, eraseP_eq_eraseIdx]
  cases hindex : v.items.findIdx? (·.token = token) with
  | none => simp [v.fits]
  | some index =>
    obtain ⟨hlt, -, -⟩ := findIdx?_eq_some_iff_getElem.mp hindex
    obtain ⟨pending, hget⟩ : ∃ pending, v.items[index]? = some pending := ⟨_, getElem?_eq_getElem hlt⟩
    simp only [bind_some, hget, deref, if_true, bind_eq_bind, queries_items, getElem?_append_left hlt]
    generalize hone : v.queries limit (callbacks.snapshot completeError pending) = one
    generalize htwo : one.queries limit (callbacks.queryComplete pending) = two
    have hitems : two.items = v.items ++ (callbacks.snapshot completeError pending ++
        callbacks.queryComplete pending).take (limit - v.items.length) := by
      rw [← htwo, ← hone, queries, queries, ← foldl_append, ← queries, queries_items]
    rw [← length_append, ← hitems]
    constructor
    · rintro ⟨w, hw, -⟩
      obtain ⟨pending', hd, he⟩ := bind_eq_some_iff.mp hw
      split at hd
      next =>
        cases hd
        rw [htwo, erase] at he
        split at he
        next h => exact le_trans two.fits (le_of_eq h.1.symm)
        next => cases he
      next => cases hd
    · intro hroom
      have hcap : one.capacity = v.capacity := by
        subst hone htwo
        rw [queries_items, length_append] at hroom
        exact queries_capacity (le_trans (Nat.le_add_right _ _) hroom)
      have hkept : two.capacity = one.capacity := by
        subst htwo
        exact queries_capacity (hcap ▸ hroom)
      have hin : index < two.items.length := by
        rw [hitems, length_append]
        exact Nat.lt_add_right _ hlt
      rw [if_pos hcap.symm, bind_some, htwo, erase, if_pos ⟨(hkept.trans hcap).symm, hin⟩]
      exact ⟨_, rfl, (congrArg (·.eraseIdx index) hitems).trans (eraseIdx_append_of_lt_length hlt _)⟩

/-- The first query ever submitted fills its block; a callback that submits another moves the vector. -/
theorem complete_outgrown : complete ⟨fun _ => [], fun _ => [], fun _ => [⟨2, 1, .positions⟩]⟩ 8 1 0
    ⟨[⟨1, 1, .positions⟩], 1, Nat.le_refl 1⟩ = none := rfl

end PendingQueries

end SelfQuant.Frame
