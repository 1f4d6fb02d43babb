import Mathlib.Algebra.Order.Ring.Int
import Mathlib.Data.Finset.Card
import Mathlib.Data.List.TakeWhile

namespace SelfQuant.Probe

open Option Nat Prod

/-- A cell of an open-addressing table: never used, in use, or vacated by a deletion. -/
inductive Cell (α : Type*)
  | empty
  | full (a : α)
  | deleted
deriving DecidableEq

variable {α : Type*} {n : Nat}

def Cell.occupant : Cell α → Option α
  | .full a => some a
  | _ => none

variable (cells : List (Cell α))

def isEmptyAt (i : Nat) : Bool :=
  match cells[i]? with
  | some .empty => true
  | _ => false

def isDeletedAt (i : Nat) : Bool :=
  match cells[i]? with
  | some .deleted => true
  | _ => false

def holdsAt (p : α → Bool) (i : Nat) : Bool :=
  match cells[i]? with
  | some (.full a) => p a
  | _ => false

/-- The order in which linear probing reads a table of `size` cells from `hash`. -/
def probeSeq (size hash : Nat) : List Nat := (List.range size).map fun probe => (hash + probe) % size

/-- The indices a probe loop passes before it stops at an empty cell. -/
def visited (hash : Nat) : List Nat := (probeSeq cells.length hash).takeWhile fun i => !isEmptyAt cells i

def firstEmpty (hash : Nat) : Option Nat := (probeSeq cells.length hash).find? (isEmptyAt cells)

/-- Every element lies on the probe path of its own hash. -/
def Chained (hash : α → Nat) (cells : List (Cell α)) : Prop :=
  ∀ i a, cells[i]? = some (.full a) → i ∈ visited cells (hash a)

variable {i hash size j : Nat} {p : α → Bool} {c : Cell α} {a : α} {cells : List (Cell α)}

theorem probeSeq_lt (h : i ∈ probeSeq size hash) : i < size := by
  obtain ⟨probe, hp, rfl⟩ := List.mem_map.mp h
  exact mod_lt _ (lt_of_le_of_lt (zero_le _) (List.mem_range.mp hp))

theorem mem_probeSeq (h : i < size) : i ∈ probeSeq size hash := by
  refine List.mem_map.mpr ⟨(i + size - hash % size) % size, ?_, ?_⟩
  · exact List.mem_range.mpr (mod_lt _ (by omega))
  · have hb : hash % size < size := mod_lt _ (by omega)
    have hsum : hash % size + (i + size - hash % size) = i + size := by omega
    rw [← mod_add_mod, add_mod_mod, hsum, add_mod_right, mod_eq_of_lt h]

theorem firstEmpty_spec (h : firstEmpty cells hash = some i) : cells[i]? = some .empty := by
  have he := List.find?_some h
  unfold isEmptyAt at he
  split at he
  next hc => exact hc
  next => simp at he

theorem isDeletedAt_spec (h : isDeletedAt cells i = true) : cells[i]? = some .deleted := by
  unfold isDeletedAt at h
  split at h
  next hc => exact hc
  next => simp at h

theorem holdsAt_spec (h : holdsAt cells p i = true) : ∃ a, cells[i]? = some (.full a) ∧ p a = true := by
  unfold holdsAt at h
  split at h
  next a hc => exact ⟨a, hc, h⟩
  next => simp at h

theorem holdsAt_of_full (hc : cells[i]? = some (.full a)) (hp : p a = true) : holdsAt cells p i = true := by
  simp [holdsAt, hc, hp]

theorem Chained.find_isSome {hash : α → Nat} (hc : Chained hash cells)
    (hi : cells[i]? = some (.full a)) (hp : p a = true) :
    ((visited cells (hash a)).find? (holdsAt cells p)).isSome :=
  List.find?_isSome.mpr ⟨i, hc i a hi, holdsAt_of_full hi hp⟩

theorem takeWhile_prefix_of_imp {β : Type*} {p q : β → Bool} (h : ∀ x, p x = true → q x = true) :
    ∀ xs : List β, xs.takeWhile p <+: xs.takeWhile q
  | [] => by simp
  | x :: xs => by
    by_cases hp : p x = true
    · simpa [List.takeWhile_cons, hp, h x hp] using takeWhile_prefix_of_imp h xs
    · simp [List.takeWhile_cons, hp]

theorem isEmptyAt_set_of_ne_empty
    (hc : c ≠ .empty) (h : isEmptyAt cells j = false) : isEmptyAt (cells.set i c) j = false := by
  unfold isEmptyAt at h ⊢
  by_cases hij : i = j
  · subst hij
    by_cases hb : i < cells.length
    · cases c with
      | empty => exact absurd rfl hc
      | full | deleted => simp [hb]
    · simp [hb]
  · simpa [hij] using h

theorem visited_set_mono (hc : c ≠ .empty) (h : j ∈ visited cells hash) : j ∈ visited (cells.set i c) hash := by
  unfold visited at h ⊢
  rw [List.length_set]
  refine (takeWhile_prefix_of_imp ?_ _).subset h
  intro x hx
  simpa using isEmptyAt_set_of_ne_empty hc (by simpa using hx)

theorem firstEmpty_visited_set (hc : c ≠ .empty) (h : firstEmpty cells hash = some i) :
    i ∈ visited (cells.set i c) hash := by
  have hi : i < cells.length := (getElem?_eq_some_iff.mp (firstEmpty_spec h)).1
  obtain ⟨_, before, after, hspl, hbef⟩ := List.find?_eq_some_iff_append.mp h
  have hpre : ∀ x ∈ before, (!isEmptyAt (cells.set i c) x) = true := by
    intro x hx
    simpa using isEmptyAt_set_of_ne_empty hc (by simpa using hbef x hx)
  have hsf : (!isEmptyAt (cells.set i c) i) = true := by
    cases c with
    | empty => exact absurd rfl hc
    | full | deleted => simp [isEmptyAt, hi]
  unfold visited
  rw [List.length_set, hspl, List.takeWhile_append_of_pos hpre]
  simp [hsf]

theorem Chained.set_full {hash : α → Nat} (hc : Chained hash cells)
    (hi : i ∈ visited cells (hash a) ∨ firstEmpty cells (hash a) = some i) :
    Chained hash (cells.set i (.full a)) := by
  intro j b hj
  rw [List.getElem?_set] at hj
  by_cases hij : i = j
  · subst hij
    by_cases hb : i < cells.length
    · simp only [if_true, hb, some.injEq, Cell.full.injEq] at hj
      subst hj
      rcases hi with hi | hi
      · exact visited_set_mono (by simp) hi
      · exact firstEmpty_visited_set (by simp) hi
    · simp [hb] at hj
  · simp only [hij, if_false] at hj
    exact visited_set_mono (by simp) (hc j b hj)

theorem Chained.set_deleted {hash : α → Nat} (hc : Chained hash cells) : Chained hash (cells.set i .deleted) := by
  intro j b hj
  rw [List.getElem?_set] at hj
  by_cases hij : i = j
  · simp [hij] at hj
  · simp only [hij, if_false] at hj
    exact visited_set_mono (by simp) (hc j b hj)

theorem chained_replicate (hash : α → Nat) : Chained hash (List.replicate n (Cell.empty : Cell α)) := by
  intro i a h
  obtain ⟨hi, he⟩ := List.getElem?_eq_some_iff.mp h
  simp at he

variable {K V : Type*}

abbrev ProbeMap (K V : Type*) := List (Cell (K × V))

namespace ProbeMap

/-- The cell a new key goes to: the first vacated one on its path, else the empty cell that ends it. -/
def freeCell (hash : K → Nat) (m : ProbeMap K V) (k : K) : Option Nat :=
  ((visited m (hash k)).find? (isDeletedAt m)).or (firstEmpty m (hash k))

def store (hash : K → Nat) (m : ProbeMap K V) (k : K) (v : V) : Option (ProbeMap K V) :=
  (freeCell hash m k).map fun i => m.set i (.full (k, v))

def Binds (m : ProbeMap K V) (k : K) (v : V) : Prop := ∃ i : Nat, m[i]? = some (Cell.full (k, v))

structure Sound (hash : K → Nat) (m : ProbeMap K V) : Prop where
  chained : Chained (fun e => hash e.1) m
  unique : ∀ {i j : Nat} {k : K} {v w : V}, m[i]? = some (Cell.full (k, v)) → m[j]? = some (Cell.full (k, w)) → i = j

variable {hash : K → Nat} {m m' : ProbeMap K V} {k : K} {v : V} {i : Nat}

theorem freeCell_spec (h : freeCell hash m k = some i) :
    (i ∈ visited m (hash k) ∨ firstEmpty m (hash k) = some i) ∧ i < m.length ∧ ∀ e, m[i]? ≠ some (Cell.full e) := by
  rcases or_eq_some_iff.mp h with hd | ⟨_, he⟩
  · have hi := isDeletedAt_spec (List.find?_some hd)
    exact ⟨.inl (List.mem_of_find?_eq_some hd), (getElem?_eq_some_iff.mp hi).1, by simp [hi]⟩
  · have hi := firstEmpty_spec he
    exact ⟨.inr he, (getElem?_eq_some_iff.mp hi).1, by simp [hi]⟩

theorem full_of_freeCell_eq_none (h : freeCell hash m k = none) (hi : i < m.length) :
    ∃ e, m[i]? = some (Cell.full e) := by
  obtain ⟨hd, he⟩ := or_eq_none_iff.mp h
  have hemp : ∀ j ∈ probeSeq m.length (hash k), isEmptyAt m j = false := by
    intro j hj
    simpa using List.find?_eq_none.mp he j hj
  have hpath : visited m (hash k) = probeSeq m.length (hash k) :=
    List.takeWhile_eq_self_iff.mpr fun j hj => by simp [hemp j hj]
  have hm : i ∈ probeSeq m.length (hash k) := mem_probeSeq hi
  have hne := hemp i hm
  rw [hpath] at hd
  have hnd : isDeletedAt m i = false := by simpa using List.find?_eq_none.mp hd i hm
  have hget : m[i]? = some m[i] := List.getElem?_eq_getElem hi
  unfold isEmptyAt at hne
  unfold isDeletedAt at hnd
  rw [hget] at hne hnd ⊢
  cases hc : m[i] with
  | empty => simp [hc] at hne
  | full e => exact ⟨e, rfl⟩
  | deleted => simp [hc] at hnd

theorem sound_replicate : Sound hash (List.replicate n (Cell.empty : Cell (K × V))) := by
  refine ⟨chained_replicate _, ?_⟩
  intro i j k v w hi
  obtain ⟨_, he⟩ := List.getElem?_eq_some_iff.mp hi
  simp at he

section

variable (h : store hash m k v = some m')

include h

theorem store_spec : ∃ i, freeCell hash m k = some i ∧ m' = m.set i (.full (k, v)) := by
  obtain ⟨i, hi, he⟩ := map_eq_some_iff.mp h
  exact ⟨i, hi, he.symm⟩

theorem store_binds {k' : K} {v' : V} : Binds m' k' v' ↔ (k' = k ∧ v' = v) ∨ Binds m k' v' := by
  obtain ⟨i, hi, rfl⟩ := store_spec h
  obtain ⟨_, hb, hfe⟩ := freeCell_spec hi
  constructor
  · rintro ⟨j, hj⟩
    rw [List.getElem?_set] at hj
    by_cases hij : i = j
    · subst hij
      simp only [if_true, hb, some.injEq, Cell.full.injEq, mk.injEq] at hj
      exact .inl ⟨hj.1.symm, hj.2.symm⟩
    · exact .inr ⟨j, by simpa [hij] using hj⟩
  · rintro (⟨rfl, rfl⟩ | ⟨j, hj⟩)
    · exact ⟨i, by simp [hb]⟩
    · have hij : i ≠ j := fun he => hfe (k', v') (he ▸ hj)
      exact ⟨j, by simpa [List.getElem?_set, hij] using hj⟩

theorem store_length : m'.length = m.length := by
  obtain ⟨i, _, rfl⟩ := store_spec h
  simp

end

variable [DecidableEq K]

def keyIs (k : K) (e : K × V) : Bool := decide (e.1 = k)

def locate (hash : K → Nat) (m : ProbeMap K V) (k : K) : Option Nat :=
  (visited m (hash k)).find? (holdsAt m (keyIs k))

def lookup (hash : K → Nat) (m : ProbeMap K V) (k : K) : Option V :=
  (locate hash m k).bind fun i => (m[i]?.bind Cell.occupant).map snd

def remove (hash : K → Nat) (m : ProbeMap K V) (k : K) : ProbeMap K V :=
  match locate hash m k with
  | some i => m.set i .deleted
  | none => m

theorem remove_length : (remove hash m k).length = m.length := by
  unfold remove
  split <;> simp

theorem locate_spec (h : locate hash m k = some i) : ∃ v, m[i]? = some (Cell.full (k, v)) := by
  obtain ⟨⟨k', v⟩, hi, hk⟩ := holdsAt_spec (List.find?_some h)
  have hkey : k' = k := by simpa [keyIs] using hk
  subst hkey
  exact ⟨v, hi⟩

theorem lookup_binds (h : lookup hash m k = some v) : Binds m k v := by
  obtain ⟨i, hi, hv⟩ := bind_eq_some_iff.mp h
  obtain ⟨w, hw⟩ := locate_spec hi
  have : w = v := by simpa [hw, Cell.occupant] using hv
  subst this
  exact ⟨i, hw⟩

section

variable (hm : Sound hash m)

include hm

theorem Sound.locate_of_full {i : Nat} (h : m[i]? = some (Cell.full (k, v))) : locate hash m k = some i := by
  have hso := hm.chained.find_isSome (p := keyIs k) h (by simp [keyIs])
  obtain ⟨j, hj⟩ := isSome_iff_exists.mp hso
  have hl : locate hash m k = some j := hj
  obtain ⟨w, hw⟩ := locate_spec hl
  rw [hm.unique h hw]
  exact hj

theorem Sound.lookup_eq_some : lookup hash m k = some v ↔ Binds m k v := by
  constructor
  · exact lookup_binds
  · rintro ⟨i, hi⟩
    simp [lookup, hm.locate_of_full hi, hi, Cell.occupant]

theorem Sound.lookup_eq_none : lookup hash m k = none ↔ ∀ v, ¬Binds m k v := by
  rw [eq_none_iff_forall_ne_some]
  exact forall_congr' fun v => not_congr hm.lookup_eq_some

omit [DecidableEq K] in
theorem Sound.freeCell_isSome {n : Nat} (number : V → Nat) (hlt : ∀ {k v}, Binds m k v → number v < n)
    (hone : ∀ {k k' v v'}, Binds m k v → Binds m k' v' → number v = number v' → k = k')
    (hrm : n < m.length) : (freeCell hash m k).isSome := by
  by_contra hno
  have hce : ∀ i, i < m.length → ∃ e : K × V, m[i]? = some (Cell.full e) := fun i hi =>
    full_of_freeCell_eq_none (by simpa using hno) hi
  have : Nonempty (K × V) := ⟨(hce 0 (by omega)).choose⟩
  choose! cell hce using hce
  have hmaps : ∀ i ∈ Finset.range m.length, number (cell i).2 ∈ Finset.range n := fun i hi =>
    Finset.mem_range.mpr (hlt ⟨i, hce i (Finset.mem_range.mp hi)⟩)
  obtain ⟨i, hi, j, hj, hij, hnumber⟩ := Finset.exists_ne_map_eq_of_card_lt_of_maps_to (by simpa using hrm) hmaps
  have hi := hce i (Finset.mem_range.mp hi)
  have hj := hce j (Finset.mem_range.mp hj)
  have hkey : (cell i).1 = (cell j).1 := hone ⟨i, hi⟩ ⟨j, hj⟩ hnumber
  rw [← mk.eta (p := cell i), hkey] at hi
  exact hij (hm.unique hi hj)

theorem Sound.store (hn : lookup hash m k = none) (h : store hash m k v = some m') : Sound hash m' := by
  obtain ⟨i, hi, rfl⟩ := store_spec h
  obtain ⟨hpath, hb, _⟩ := freeCell_spec hi
  have hfr := hm.lookup_eq_none.mp hn
  refine ⟨hm.chained.set_full hpath, ?_⟩
  intro a b k' v' w' ha hb'
  rw [List.getElem?_set] at ha hb'
  by_cases hia : i = a <;> by_cases hib : i = b
  · omega
  · subst hia
    simp only [if_true, hb, some.injEq, Cell.full.injEq, mk.injEq] at ha
    simp only [hib, if_false] at hb'
    exact absurd ⟨b, ha.1 ▸ hb'⟩ (hfr w')
  · subst hib
    simp only [if_true, hb, some.injEq, Cell.full.injEq, mk.injEq] at hb'
    simp only [hia, if_false] at ha
    exact absurd ⟨a, hb'.1 ▸ ha⟩ (hfr v')
  · simp only [hia, if_false] at ha
    simp only [hib, if_false] at hb'
    exact hm.unique ha hb'

theorem Sound.remove (k : K) : Sound hash (remove hash m k) := by
  unfold ProbeMap.remove
  split
  next i hi =>
    refine ⟨hm.chained.set_deleted, ?_⟩
    intro a b k' v' w' ha hb
    rw [List.getElem?_set] at ha hb
    have hia : i ≠ a := by rintro rfl; simp at ha
    have hib : i ≠ b := by rintro rfl; simp at hb
    simp only [hia, if_false] at ha
    simp only [hib, if_false] at hb
    exact hm.unique ha hb
  next => exact hm

theorem Sound.remove_binds {k' : K} {v' : V} : Binds (ProbeMap.remove hash m k) k' v' ↔ k' ≠ k ∧ Binds m k' v' := by
  unfold ProbeMap.remove
  split
  next i hi =>
    obtain ⟨w, hw⟩ := locate_spec hi
    constructor
    · rintro ⟨j, hj⟩
      rw [List.getElem?_set] at hj
      have hij : i ≠ j := by rintro rfl; simp at hj
      simp only [hij, if_false] at hj
      refine ⟨?_, j, hj⟩
      rintro rfl
      exact hij (hm.unique hw hj)
    · rintro ⟨hne, j, hj⟩
      have hij : i ≠ j := by
        rintro rfl
        rw [hw] at hj
        simp only [some.injEq, Cell.full.injEq, mk.injEq] at hj
        exact hne hj.1.symm
      exact ⟨j, by simpa [List.getElem?_set, hij] using hj⟩
  next hn =>
    constructor
    · rintro ⟨j, hj⟩
      refine ⟨?_, j, hj⟩
      rintro rfl
      simp [hm.locate_of_full hj] at hn
    · exact fun h => h.2

theorem Sound.lookup_store (hn : lookup hash m k = none) (h : ProbeMap.store hash m k v = some m') (k' : K) :
    lookup hash m' k' = if k' = k then some v else lookup hash m k' := by
  have hm' := hm.store hn h
  by_cases hk : k' = k
  · subst hk
    simpa using hm'.lookup_eq_some.mpr ((store_binds h).mpr (.inl ⟨rfl, rfl⟩))
  · rw [if_neg hk]
    apply ext
    intro w
    rw [hm'.lookup_eq_some, hm.lookup_eq_some, store_binds h]
    simp [hk]

theorem Sound.lookup_remove (k' : K) :
    lookup hash (ProbeMap.remove hash m k) k' = if k' = k then none else lookup hash m k' := by
  apply ext
  intro w
  rw [(hm.remove k).lookup_eq_some, hm.remove_binds]
  by_cases hk : k' = k
  · simp [hk]
  · simp [hk, hm.lookup_eq_some]

end

theorem lookup_replicate : lookup hash (List.replicate n (Cell.empty : Cell (K × V))) k = none := by
  rw [sound_replicate.lookup_eq_none]
  rintro v ⟨i, hi⟩
  obtain ⟨_, he⟩ := List.getElem?_eq_some_iff.mp hi
  simp at he

end ProbeMap

open Function

variable {E : Type*} [DecidableEq K] {hash : K → Nat} {m m' : ProbeMap K Nat} {entries : Nat → Option E}
  {key : E → K} {slot n : Nat} {k : K} {e e' : E}

/-- The index `m` maps each key to the slot of the one entry that carries it. -/
structure SlotIndex (hash : K → Nat) (m : ProbeMap K Nat) (entries : Nat → Option E)
    (key : E → K) : Prop where
  sound : ProbeMap.Sound hash m
  agrees : ∀ k slot, ProbeMap.lookup hash m k = some slot ↔ ∃ e, entries slot = some e ∧ key e = k

theorem slotIndex_replicate : SlotIndex hash (List.replicate size .empty) (fun _ => none) key := by
  refine ⟨ProbeMap.sound_replicate, fun k slot => ?_⟩
  rw [ProbeMap.lookup_replicate]
  simp

section

variable (h : SlotIndex hash m entries key)

include h

theorem SlotIndex.lookup_of (he : entries slot = some e) : ProbeMap.lookup hash m (key e) = some slot :=
  (h.agrees _ _).mpr ⟨e, he, rfl⟩

theorem SlotIndex.absent (hn : ProbeMap.lookup hash m k = none) (he : entries slot = some e) : key e ≠ k := by
  rintro rfl
  rw [h.lookup_of he] at hn
  cases hn

theorem SlotIndex.slot_unique {slot' : Nat} (he : entries slot = some e) (he' : entries slot' = some e')
    (hk : key e = key e') : slot = slot' := by
  have hl := h.lookup_of he
  rw [hk, h.lookup_of he'] at hl
  exact (some.inj hl).symm

theorem SlotIndex.store_isSome (hn : ∀ slot e, entries slot = some e → slot < n) (hrm : n < m.length)
    (k : K) (slot : Nat) : (ProbeMap.store hash m k slot).isSome := by
  have hent : ∀ {k slot}, m.Binds k slot → ∃ e, entries slot = some e ∧ key e = k := fun hbnd =>
    (h.agrees _ _).mp (h.sound.lookup_eq_some.mpr hbnd)
  have hpl : (ProbeMap.freeCell hash m k).isSome := by
    refine h.sound.freeCell_isSome id (fun hbnd => ?_) (fun hbnd hbnd' hsl => ?_) hrm
    · obtain ⟨e, he, _⟩ := hent hbnd
      exact hn _ e he
    · obtain ⟨e, he, hk⟩ := hent hbnd
      obtain ⟨e', he', hk'⟩ := hent hbnd'
      rw [id, id] at hsl
      rw [hsl, he'] at he
      cases he
      exact hk.symm.trans hk'
  simpa [ProbeMap.store] using hpl

theorem SlotIndex.place (hfe : entries slot = none)
    (hn : ProbeMap.lookup hash m (key e) = none) (hs : ProbeMap.store hash m (key e) slot = some m') :
    SlotIndex hash m' (update entries slot (some e)) key := by
  refine ⟨h.sound.store hn hs, fun k slot' => ?_⟩
  rw [h.sound.lookup_store hn hs]
  by_cases hsl : slot' = slot
  · subst hsl
    rw [update_self]
    constructor
    · split
      next hk => exact fun _ => ⟨e, rfl, hk.symm⟩
      intro hl
      obtain ⟨x, hx, _⟩ := (h.agrees k slot').mp hl
      rw [hfe] at hx
      cases hx
    · rintro ⟨x, hx, rfl⟩
      cases hx
      exact if_pos rfl
  · rw [update_of_ne hsl]
    split
    next hk =>
      subst hk
      constructor
      · exact fun hl => absurd (some.inj hl).symm hsl
      · rintro ⟨x, hx, hk⟩
        exact absurd hk (h.absent hn hx)
    next => exact h.agrees k slot'

theorem SlotIndex.drop (he : entries slot = some e) :
    SlotIndex hash (ProbeMap.remove hash m (key e)) (update entries slot none) key := by
  refine ⟨h.sound.remove _, fun k slot' => ?_⟩
  rw [h.sound.lookup_remove]
  by_cases hsl : slot' = slot
  · subst hsl
    rw [update_self]
    constructor
    · split
      next => exact fun hl => by cases hl
      next hk =>
      intro hl
      obtain ⟨x, hx, hkx⟩ := (h.agrees k slot').mp hl
      rw [he] at hx
      cases hx
      exact absurd hkx.symm hk
    · rintro ⟨x, hx, _⟩
      cases hx
  · rw [update_of_ne hsl]
    split
    next hk =>
      constructor
      · exact fun hl => by cases hl
      · rintro ⟨x, hx, hkx⟩
        exact absurd (h.slot_unique hx he (hkx.trans hk)) hsl
    next => exact h.agrees k slot'

end

end SelfQuant.Probe
