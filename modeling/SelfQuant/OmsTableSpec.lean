import SelfQuant.OmsOrderTable
import SelfQuant.RecentRing

namespace SelfQuant.Oms

open Probe ProbeMap Option OrderRecord OrderTable Function

/-- A record without its place in the terminal list. -/
def OrderRecord.core (r : OrderRecord) : OrderRecord :=
  { r with inTerminal := false, terminalPrev := kMissing, terminalNext := kMissing }

/-- The orders of a table: the occupied slots, without their terminal-list links. -/
abbrev OrderMap := Nat → Option OrderRecord

namespace OrderTable

variable {t t' t'' : OrderTable} {slot slot' : Nat} {handle : OrderHandle} {r r : OrderRecord}

def order (t : OrderTable) : OrderMap := fun slot =>
  if slot < t.records.length ∧ (t.record slot).occupied then some (t.record slot).core else none

@[simp] theorem setRecord_length (t : OrderTable) (slot : Nat) (r : OrderRecord) :
    (t.setRecord slot r).records.length = t.records.length := by simp [setRecord]

theorem record_setRecord_self (h : slot < t.records.length) (r : OrderRecord) :
    (t.setRecord slot r).record slot = r := by simp [record, setRecord, h]

theorem record_setRecord_ne (h : slot ≠ slot') : (t.setRecord slot r).record slot' = t.record slot' := by
  simp [record, setRecord, h]

theorem record_setRecord_of_le (h : t.records.length ≤ slot) : (t.setRecord slot r).record slot' = t.record slot' := by
  simp [record, setRecord, List.set_eq_of_length_le h]

theorem order_eq_some (h : t.order slot = some r) :
    slot < t.records.length ∧ (t.record slot).occupied ∧ r = (t.record slot).core := by
  unfold order at h
  split at h
  next hc => exact ⟨hc.1, hc.2, (some.inj h).symm⟩
  next => simp at h

theorem order_of_occupied (hb : slot < t.records.length) (ho : (t.record slot).occupied) :
    t.order slot = some (t.record slot).core := by simp [order, hb, ho]

theorem order_setRecord (hb : slot < t.records.length) : (t.setRecord slot r).order =
      update t.order slot (if r.occupied then some r.core else none) := by
  funext s
  by_cases hs : s = slot
  · subst hs
    simp [order, record_setRecord_self hb, hb]
  · simp [order, record_setRecord_ne (Ne.symm hs), hs]

structure Relinked (t t' : OrderTable) : Prop where
  length : t'.records.length = t.records.length
  core : ∀ slot, (t'.record slot).core = (t.record slot).core
  freeSlots : t'.freeSlots = t.freeSlots
  size : t'.size = t.size
  retiredTokens : t'.retiredTokens = t.retiredTokens
  retiredTokenCount : t'.retiredTokenCount = t.retiredTokenCount
  retiredTokenNext : t'.retiredTokenNext = t.retiredTokenNext
  byToken : t'.byToken = t.byToken
  byClient : t'.byClient = t.byClient
  byVenue : t'.byVenue = t.byVenue

theorem Relinked.refl : Relinked t t := by constructor <;> intros <;> rfl

theorem relinked_modify {f : OrderRecord → OrderRecord}
    (hf : ∀ r, (f r).core = r.core) : Relinked t (t.modifyRecord slot f) where
  length := by simp [modifyRecord]
  core s := by
    unfold modifyRecord
    by_cases hb : slot < t.records.length
    · by_cases hs : slot = s
      · subst hs
        rw [record_setRecord_self hb, hf]
      · rw [record_setRecord_ne hs]
    · rw [record_setRecord_of_le (by omega)]
  freeSlots := rfl
  size := rfl
  retiredTokens := rfl
  retiredTokenCount := rfl
  retiredTokenNext := rfl
  byToken := rfl
  byClient := rfl
  byVenue := rfl

theorem relinked_ends (head tail : TerminalLink) :
    Relinked t { t with terminalHead := head, terminalTail := tail } := by
  constructor <;> intros <;> rfl

section

variable (h : Relinked t t')

include h

theorem Relinked.trans (h' : Relinked t' t'') : Relinked t t'' where
  length := h'.length.trans h.length
  core slot := (h'.core slot).trans (h.core slot)
  freeSlots := h'.freeSlots.trans h.freeSlots
  size := h'.size.trans h.size
  retiredTokens := h'.retiredTokens.trans h.retiredTokens
  retiredTokenCount := h'.retiredTokenCount.trans h.retiredTokenCount
  retiredTokenNext := h'.retiredTokenNext.trans h.retiredTokenNext
  byToken := h'.byToken.trans h.byToken
  byClient := h'.byClient.trans h.byClient
  byVenue := h'.byVenue.trans h.byVenue

theorem Relinked.occupied : (t'.record slot).occupied = (t.record slot).occupied := by
  simpa only [OrderRecord.core] using congrArg OrderRecord.occupied (h.core slot)

theorem Relinked.generation : (t'.record slot).generation = (t.record slot).generation := by
  simpa only [OrderRecord.core] using congrArg OrderRecord.generation (h.core slot)

theorem Relinked.order : t'.order = t.order := by
  funext slot
  simp only [OrderTable.order, h.length, h.occupied, h.core]

theorem relinked_ite {c : Prop} [Decidable c] : Relinked t (if c then t' else t) := by
  split
  · exact h
  · exact Relinked.refl

end

theorem unlinkTerminal_relinked (t : OrderTable) (slot : Nat) : Relinked t (t.unlinkTerminal slot) := by
  unfold unlinkTerminal
  dsimp only
  split
  · exact Relinked.refl
  · refine ((relinked_ite ?_).trans (relinked_ite ?_)).trans
      ((relinked_ends _ _).trans (relinked_modify ?_))
    · exact relinked_modify (by intro; rfl)
    · exact relinked_modify (by intro; rfl)
    · intro; rfl

theorem markTerminal_relinked (t : OrderTable) (handle : OrderHandle) : Relinked t (t.markTerminal handle).2 := by
  unfold markTerminal
  split
  · exact Relinked.refl
  · split
    · exact Relinked.refl
    · split
      · exact Relinked.refl
      · dsimp only
        split
        · split
          · dsimp only
            exact relinked_modify (by intro; rfl)
          · refine (relinked_modify ?_).trans ((relinked_modify ?_).trans
              ((relinked_modify ?_).trans (relinked_ends _ _))) <;> intro <;> rfl
        · refine (relinked_modify ?_).trans ((relinked_modify ?_).trans
            (relinked_ends _ _)) <;> intro <;> rfl

theorem lookup_eq_some (h : t.lookup handle = some slot) :
    handle = ⟨slot, 0, (t.record slot).generation⟩ ∧ (t.record slot).generation ≠ 0 ∧
      slot < t.records.length ∧ (t.record slot).occupied := by
  unfold lookup at h
  split at h
  next => simp at h
  next hc =>
  split at h
  next ho =>
    have hs := some.inj h
    subst hs
    simp only [not_or, not_not, not_le] at hc
    refine ⟨?_, ?_, hc.2.2, ho.1⟩
    · cases handle
      simp_all
    · rw [ho.2]
      exact hc.1
  next => simp at h

def liveOrder (t : OrderTable) (handle : OrderHandle) : Option OrderRecord := (t.lookup handle).bind t.order

theorem liveOrder_eq_some :
    t.liveOrder handle = some r ↔ handle.reserved = 0 ∧ handle.generation ≠ 0 ∧
      t.order handle.slot = some r ∧ r.generation = handle.generation := by
  constructor
  · intro h
    obtain ⟨slot, hl, hr⟩ := bind_eq_some_iff.mp h
    obtain ⟨he, hg, hb, ho⟩ := lookup_eq_some hl
    subst he
    refine ⟨rfl, hg, hr, ?_⟩
    obtain ⟨_, _, rfl⟩ := order_eq_some hr
    rfl
  · rintro ⟨hz, hg, hr, hgen⟩
    obtain ⟨hb, ho, he⟩ := order_eq_some hr
    have hrec : (t.record handle.slot).generation = handle.generation := by
      rw [← hgen, he]
      rfl
    have hl : t.lookup handle = some handle.slot := by
      simp [lookup, hg, hz, ho, hrec, Nat.not_le.mpr hb]
    simp [liveOrder, hl, hr]

theorem lookup_isSome_iff : (t.lookup handle).isSome ↔ ∃ r, t.liveOrder handle = some r := by
  constructor
  · intro h
    obtain ⟨slot, hl⟩ := isSome_iff_exists.mp h
    obtain ⟨he, _, hb, ho⟩ := lookup_eq_some hl
    exact ⟨(t.record slot).core, by simp [liveOrder, hl, order_of_occupied hb ho]⟩
  · rintro ⟨r, hr⟩
    obtain ⟨slot, hl, _⟩ := bind_eq_some_iff.mp hr
    simp [hl]

theorem lookup_iff : t.lookup handle = some slot ↔ slot = handle.slot ∧ ∃ r, t.liveOrder handle = some r := by
  constructor
  · intro h
    have hs := lookup_isSome_iff.mp (isSome_iff_exists.mpr ⟨slot, h⟩)
    obtain ⟨he, _⟩ := lookup_eq_some h
    exact ⟨by rw [he], hs⟩
  · rintro ⟨rfl, r, hr⟩
    obtain ⟨slot, hl, _⟩ := bind_eq_some_iff.mp hr
    obtain ⟨he, _⟩ := lookup_eq_some hl
    rw [hl, he]

end OrderTable

open Function

variable {K : Type} [DecidableEq K] {hash : K → Nat} {m m' : FixedMap K} {orders : OrderMap}
  {key : OrderRecord → Option K} {slot : Nat} {k : K} {r r' : OrderRecord}

/-- The index `m` maps each key to the handle of the one order that carries it. -/
structure IndexOf (hash : K → Nat) (m : FixedMap K) (orders : OrderMap)
    (key : OrderRecord → Option K) : Prop where
  sound : Sound hash m
  agrees : ∀ k h, lookup hash m k = some h ↔
    ∃ r, orders h.slot = some r ∧ key r = some k ∧ h = ⟨h.slot, 0, r.generation⟩

section

variable (hi : IndexOf hash m orders key)

include hi

theorem IndexOf.lookup_of (ho : orders slot = some r)
    (hk : key r = some k) : lookup hash m k = some ⟨slot, 0, r.generation⟩ :=
  (hi.agrees k _).mpr ⟨r, ho, hk, rfl⟩

theorem IndexOf.absent (hn : lookup hash m k = none) (ho : orders slot = some r) : key r ≠ some k := by
  intro hk
  rw [hi.lookup_of ho hk] at hn
  simp at hn

theorem IndexOf.slot_unique {slot' : Nat} (ho : orders slot = some r) (ho' : orders slot' = some r')
    (hk : key r = some k) (hk' : key r' = some k) : slot = slot' := by
  have h := (hi.lookup_of ho hk).symm.trans (hi.lookup_of ho' hk')
  simp only [some.injEq, OrderHandle.mk.injEq] at h
  exact h.1

theorem IndexOf.place (hfe : ∀ r₀, orders slot = some r₀ → key r₀ = none) (hk : key r = some k)
    (hn : lookup hash m k = none) (hm' : Sound hash m')
    (hl : ∀ k', lookup hash m' k' = if k' = k then some ⟨slot, 0, r.generation⟩ else lookup hash m k') :
    IndexOf hash m' (update orders slot (some r)) key := by
  refine ⟨hm', fun k' h => ?_⟩
  rw [hl k']
  by_cases hkk : k' = k
  · subst hkk
    rw [if_pos rfl]
    constructor
    · intro he
      have he := some.inj he
      subst he
      exact ⟨r, by simp, hk, rfl⟩
    · rintro ⟨r₁, ho, hk₁, he⟩
      obtain ⟨hs, ho⟩ | ⟨-, ho⟩ := update_eq_some.mp ho
      · cases ho
        rw [he, hs]
      · exact absurd hk₁ (hi.absent hn ho)
  · rw [if_neg hkk, hi.agrees]
    constructor
    · rintro ⟨r₁, ho, hk₁, he⟩
      have hs : h.slot ≠ slot := by
        intro hs
        rw [hs] at ho
        rw [hfe r₁ ho] at hk₁
        simp at hk₁
      exact ⟨r₁, by rw [update_of_ne hs]; exact ho, hk₁, he⟩
    · rintro ⟨r₁, ho, hk₁, he⟩
      obtain ⟨-, ho⟩ | ⟨-, ho⟩ := update_eq_some.mp ho
      · cases ho
        exact absurd (some.inj (hk₁.symm.trans hk)) hkk
      · exact ⟨r₁, ho, hk₁, he⟩

variable {o : Option OrderRecord} {n : Nat}

theorem IndexOf.freeCell_isSome (hn : ∀ slot r, orders slot = some r → slot < n) (hrm : n < m.length)
    (k : K) : (freeCell hash m k).isSome := by
  have hord : ∀ {k h}, Binds m k h → ∃ r, orders h.slot = some r ∧ key r = some k := fun hbnd => by
    obtain ⟨r, ho, hk, _⟩ := (hi.agrees _ _).mp (hi.sound.lookup_eq_some.mpr hbnd)
    exact ⟨r, ho, hk⟩
  refine hi.sound.freeCell_isSome (·.slot) (fun hbnd => ?_) (fun hbnd hbnd' hsl => ?_) hrm
  · obtain ⟨r, ho, _⟩ := hord hbnd
    exact hn _ r ho
  · obtain ⟨r, ho, hk⟩ := hord hbnd
    obtain ⟨r', ho', hk'⟩ := hord hbnd'
    rw [hsl, ho'] at ho
    cases ho
    exact some.inj (hk.symm.trans hk')

theorem IndexOf.insert_spec (hn : ∀ slot r, orders slot = some r → slot < n) (hrm : n < m.length)
    (hfe : ∀ r₀, orders slot = some r₀ → key r₀ = none) (hk : key r = some k)
    (hnew : lookup hash m k = none) :
    ∃ m', FixedMap.insert hash m k ⟨slot, 0, r.generation⟩ = (.ok, m') ∧ m'.length = m.length ∧
      IndexOf hash m' (update orders slot (some r)) key := by
  obtain ⟨i, hf⟩ := isSome_iff_exists.mp (hi.freeCell_isSome hn hrm k)
  have hs : store hash m k ⟨slot, 0, r.generation⟩ = some (m.set i (.full (k, ⟨slot, 0, r.generation⟩))) := by
    simp [store, hf]
  refine ⟨_, ?_, store_length hs, hi.place hfe hk hnew (hi.sound.store hnew hs) (hi.sound.lookup_store hnew hs)⟩
  unfold FixedMap.insert
  rw [hnew, hs]

theorem IndexOf.change (hsm : ∀ k' g, (∃ r₁, o = some r₁ ∧ key r₁ = some k' ∧ g = r₁.generation) ↔
      ∃ r₀, orders slot = some r₀ ∧ key r₀ = some k' ∧ g = r₀.generation) :
    IndexOf hash m (update orders slot o) key := by
  refine ⟨hi.sound, fun k' h => ?_⟩
  rw [hi.agrees]
  by_cases hs : h.slot = slot
  · have hh := hsm k' h.generation
    constructor
    · rintro ⟨r₀, ho, hk, he⟩
      rw [hs] at ho
      have hg : h.generation = r₀.generation := by rw [he]
      obtain ⟨r₁, ho₁, hk₁, hg₁⟩ := hh.mpr ⟨r₀, ho, hk, hg⟩
      refine ⟨r₁, by rw [hs, update_self]; exact ho₁, hk₁, ?_⟩
      rw [he]
      simp [← hg₁, hg]
    · rintro ⟨r₁, ho, hk, he⟩
      rw [hs, update_self] at ho
      have hg : h.generation = r₁.generation := by rw [he]
      obtain ⟨r₀, ho₀, hk₀, hg₀⟩ := hh.mp ⟨r₁, ho, hk, hg⟩
      refine ⟨r₀, by rw [hs]; exact ho₀, hk₀, ?_⟩
      rw [he]
      simp [← hg₀, hg]
  · simp [update_of_ne hs]

theorem IndexOf.keep (ho : orders slot = some r) (hk : key r' = key r) (hg : r'.generation = r.generation) :
    IndexOf hash m (update orders slot (some r')) key := by
  apply hi.change
  simp [ho, hk, hg]

theorem IndexOf.unkeyed (hold : ∀ r₀, orders slot = some r₀ → key r₀ = none)
    (hnew : ∀ r₁, o = some r₁ → key r₁ = none) : IndexOf hash m (update orders slot o) key := by
  apply hi.change
  intro k' g
  constructor
  · rintro ⟨r₁, ho, hk, _⟩
    simp [hnew r₁ ho] at hk
  · rintro ⟨r₀, ho, hk, _⟩
    simp [hold r₀ ho] at hk

theorem IndexOf.drop (ho : orders slot = some r) (hk : key r = some k) :
    IndexOf hash (remove hash m k) (update orders slot none) key := by
  refine ⟨hi.sound.remove k, fun k' h => ?_⟩
  rw [hi.sound.lookup_remove]
  by_cases hkk : k' = k
  · subst hkk
    constructor
    · simp
    · rintro ⟨r₁, ho₁, hk₁, _⟩
      obtain ⟨hs, ho₁⟩ := of_update_none ho₁
      exact absurd (hi.slot_unique ho₁ ho hk₁ hk) hs
  · rw [if_neg hkk, hi.agrees]
    have hne : h.slot = slot → ∀ r₁, orders h.slot = some r₁ → key r₁ ≠ some k' := by
      intro hs r₁ ho₁ hk₁
      rw [hs, ho] at ho₁
      cases ho₁
      exact hkk (some.inj (hk₁.symm.trans hk))
    by_cases hs : h.slot = slot
    · constructor
      · rintro ⟨r₁, ho₁, hk₁, _⟩
        exact absurd hk₁ (hne hs r₁ ho₁)
      · rintro ⟨r₁, ho₁, _⟩
        simp [hs] at ho₁
    · simp [update_of_ne hs]

end

open List

def venueKey (r : OrderRecord) : Option VenueOrderId :=
  if r.venueOrderId.length ≠ 0 then some r.venueOrderId else none

theorem nextGeneration_ne_zero (g : Nat) : nextGeneration g ≠ 0 := by
  unfold nextGeneration
  split <;> omega

theorem nextGeneration_ne_self (g : Nat) : nextGeneration g ≠ g := by
  unfold nextGeneration
  split <;> omega

theorem isTerminal_core : isTerminal r.core.status = isTerminal r.status := rfl

namespace OrderTable

variable {H : OrderHashes} {t t' : OrderTable} {slot : Nat} {handle : OrderHandle}

structure Valid (H : OrderHashes) (t : OrderTable) : Prop where
  freeNodup : t.freeSlots.Nodup
  freeIff : ∀ slot, slot ∈ t.freeSlots ↔ slot < t.records.length ∧ t.order slot = none
  generationPos : ∀ {slot r}, t.order slot = some r → r.generation ≠ 0
  tokenPos : ∀ {slot r}, t.order slot = some r → r.request.token.sequence ≠ 0
  token : IndexOf H.token t.byToken t.order fun r => some r.request.token
  client : IndexOf H.client t.byClient t.order fun r => some r.request.clientOrderId
  venue : IndexOf H.venue t.byVenue t.order venueKey
  room : t.records.length < t.byToken.length ∧ t.records.length < t.byClient.length ∧
    t.records.length < t.byVenue.length

theorem Valid.slot_lt (slot : Nat) (r : OrderRecord) (h : t.order slot = some r) :
    slot < t.records.length := (order_eq_some h).1

theorem Valid.relinked (hv : Valid H t) (h : Relinked t t') : Valid H t' where
  freeNodup := by rw [h.freeSlots]; exact hv.freeNodup
  freeIff slot := by rw [h.freeSlots, h.length, h.order]; exact hv.freeIff slot
  generationPos ho := by rw [h.order] at ho; exact hv.generationPos ho
  tokenPos ho := by rw [h.order] at ho; exact hv.tokenPos ho
  token := by rw [h.byToken, h.order]; exact hv.token
  client := by rw [h.byClient, h.order]; exact hv.client
  venue := by rw [h.byVenue, h.order]; exact hv.venue
  room := by rw [h.byToken, h.byClient, h.byVenue, h.length]; exact hv.room

variable {n value : Nat} {K : Type}

theorem record_replicate (h : t.records = replicate n {}) : t.record slot = {} := by
  unfold record
  rw [h, getElem?_replicate]
  split <;> rfl

theorem le_double (fuel result : Nat) (h : value ≤ result * 2 ^ fuel) :
    value ≤ nextPowerOfTwo.double value fuel result := by
  induction fuel generalizing result with
  | zero => simpa [nextPowerOfTwo.double] using h
  | succ fuel ih =>
    unfold nextPowerOfTwo.double
    split
    next => exact ih _ (by rw [Nat.pow_succ] at h; rw [Nat.mul_assoc, Nat.mul_comm 2]; exact h)
    next => omega

theorem le_nextPowerOfTwo (h : value ≤ 2 ^ 63) : value ≤ nextPowerOfTwo value := le_double 63 1 (by simpa using h)

theorem create_length (h : n ≤ 2 ^ 32 - 1) : n < (FixedMap.create K n).length := by
  have := le_nextPowerOfTwo (show max 4 (n * 2) ≤ 2 ^ 63 by omega)
  simp only [FixedMap.create, length_replicate]
  omega

theorem create_empty (h : create n = some t) :
    t.order = (fun _ => none) ∧ t.records.length = n ∧ n ≤ 2 ^ 32 - 1 ∧ t.freeSlots = range n ∧
      t.byToken = FixedMap.create _ n ∧ t.byClient = FixedMap.create _ n ∧
      t.byVenue = FixedMap.create _ n := by
  obtain ⟨c, hc, ht⟩ := map_eq_some_iff.mp h
  have hrecs : t.records = replicate c {} := by rw [← ht]
  have hcn : c = n ∧ n ≤ 2 ^ 32 - 1 := by
    unfold checkedCapacity at hc
    split at hc
    next => simp at hc
    next hle => exact ⟨(some.inj hc).symm, by omega⟩
  obtain ⟨rfl, hle⟩ := hcn
  refine ⟨?_, by simp [hrecs], hle, by rw [← ht], by rw [← ht], by rw [← ht], by rw [← ht]⟩
  funext slot
  simp [order, record_replicate hrecs]

theorem indexOf_create [DecidableEq K] (hash : K → Nat)
    (key : OrderRecord → Option K) : IndexOf hash (FixedMap.create K n) (fun _ => none) key := by
  refine ⟨sound_replicate, fun k h => ?_⟩
  unfold FixedMap.create
  rw [ProbeMap.lookup_replicate]
  simp

theorem create_valid (h : create n = some t) : Valid H t := by
  obtain ⟨ho, hl, hle, hf, htok, hcl, hve⟩ := create_empty h
  constructor
  · rw [hf]; exact nodup_range
  · intro slot; simp [hf, hl, ho]
  · intro slot r hr; simp [ho] at hr
  · intro slot r hr; simp [ho] at hr
  · rw [htok, ho]; exact indexOf_create _ _
  · rw [hcl, ho]; exact indexOf_create _ _
  · rw [hve, ho]; exact indexOf_create _ _
  · rw [htok, hcl, hve, hl]
    exact ⟨create_length hle, create_length hle, create_length hle⟩

structure Erased (H : OrderHashes) (t : OrderTable) (slot : Nat) (t' : OrderTable) : Prop where
  order : t'.order = update t.order slot none
  length : t'.records.length = t.records.length
  generation : ∀ s, (t'.record s).generation = (t.record s).generation
  freeSlots : t'.freeSlots = slot :: t.freeSlots
  retiredTokens : t'.retiredTokens = t.retiredTokens
  retiredTokenCount : t'.retiredTokenCount = t.retiredTokenCount
  retiredTokenNext : t'.retiredTokenNext = t.retiredTokenNext
  byToken : t'.byToken = remove H.token t.byToken (t.record slot).request.token
  byClient : t'.byClient = remove H.client t.byClient (t.record slot).request.clientOrderId
  byVenue : t'.byVenue = if (t.record slot).venueOrderId.length ≠ 0 then
    remove H.venue t.byVenue (t.record slot).venueOrderId else t.byVenue

theorem Relinked.request (h : Relinked t t') : (t'.record slot).request = (t.record slot).request := by
  simpa only [OrderRecord.core] using congrArg OrderRecord.request (h.core slot)

theorem Relinked.venueOrderId (h : Relinked t t') : (t'.record slot).venueOrderId = (t.record slot).venueOrderId := by
  simpa only [OrderRecord.core] using congrArg OrderRecord.venueOrderId (h.core slot)

theorem erase_spec (h : t.lookup handle = some slot) : ∃ t', t.erase H handle = (.ok, t') ∧ Erased H t slot t' := by
  obtain ⟨_, _, hb, ho⟩ := lookup_eq_some h
  have hu := unlinkTerminal_relinked t slot
  have hb' : slot < (t.unlinkTerminal slot).records.length := by rw [hu.length]; exact hb
  unfold erase
  rw [h]
  refine ⟨_, rfl, ?_⟩
  constructor
  · refine (order_setRecord (t := { t.unlinkTerminal slot with
      byToken := _, byClient := _, byVenue := _ }) hb').trans ?_
    exact congrArg (fun o => update o slot none) hu.order
  · simp only [modifyRecord, setRecord_length]
    exact hu.length
  · intro s
    by_cases hs : slot = s
    · subst hs
      refine (congrArg generation (record_setRecord_self (t := { t.unlinkTerminal slot with
        byToken := _, byClient := _, byVenue := _ }) hb' _)).trans ?_
      exact hu.generation
    · refine (congrArg generation (record_setRecord_ne (t := { t.unlinkTerminal slot with
        byToken := _, byClient := _, byVenue := _ }) hs)).trans ?_
      exact hu.generation
  · exact congrArg (slot :: ·) hu.freeSlots
  · exact hu.retiredTokens
  · exact hu.retiredTokenCount
  · exact hu.retiredTokenNext
  · simp only [modifyRecord, setRecord, hu.byToken, hu.request]
  · simp only [modifyRecord, setRecord, hu.byClient, hu.request]
  · simp only [modifyRecord, setRecord, hu.byVenue, hu.venueOrderId]

theorem Valid.erased (hv : Valid H t) (hb : slot < t.records.length)
    (ho : (t.record slot).occupied) (h : Erased H t slot t') : Valid H t' := by
  have hord := order_of_occupied hb ho
  constructor
  · rw [h.freeSlots, nodup_cons]
    exact ⟨fun hm => by simp [((hv.freeIff slot).mp hm).2] at hord, hv.freeNodup⟩
  · intro s
    rw [h.freeSlots, h.length, h.order, mem_cons, hv.freeIff]
    by_cases hs : s = slot
    · subst hs; simp [hb]
    · simp [hs]
  · intro s r hr
    rw [h.order] at hr
    exact hv.generationPos (of_update_none hr).2
  · intro s r hr
    rw [h.order] at hr
    exact hv.tokenPos (of_update_none hr).2
  · rw [h.byToken, h.order]
    exact hv.token.drop hord rfl
  · rw [h.byClient, h.order]
    exact hv.client.drop hord rfl
  · rw [h.byVenue, h.order]
    split
    next hne => exact hv.venue.drop hord (by simp [venueKey, core, hne])
    next hne =>
    refine hv.venue.unkeyed ?_ (by simp)
    intro r₀ hr₀
    rw [hord] at hr₀
    cases hr₀
    exact if_neg hne
  · have hven : t'.byVenue.length = t.byVenue.length := by
      rw [h.byVenue]
      split
      · exact remove_length
      · rfl
    rw [h.byToken, h.byClient, hven, h.length, remove_length, remove_length]
    exact hv.room

end OrderTable

end SelfQuant.Oms
