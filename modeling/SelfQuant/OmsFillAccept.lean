import SelfQuant.OmsLifeCycle

namespace SelfQuant.Oms

open Probe OrderTable StateEngine Cell List Option

variable {H : OrderHashes} {s : StateEngine} {handle : OrderHandle} {event : VenueEvent}
  {cells : List (Cell FillDedupEntry)} {entry : FillDedupEntry} {cell : Nat}

/-- The dedup table is searchable and has one entry for a trade of an order. -/
structure DedupSound (H : OrderHashes) (cells : List (Cell FillDedupEntry)) : Prop where
  chained : Chained (fun e => H.fill e.handle e.tradeId) cells
  unique : ∀ {i j : Nat} {e e' : FillDedupEntry}, cells[i]? = some (full e) →
    cells[j]? = some (full e') → e.handle = e'.handle → e.tradeId = e'.tradeId → i = j

theorem dedupSound_replicate (n : Nat) : DedupSound H (replicate n empty) := by
  refine ⟨chained_replicate _, ?_⟩
  intro i j e e' hi
  obtain ⟨_, he⟩ := List.getElem?_eq_some_iff.mp hi
  simp at he

theorem DedupSound.set (hd : DedupSound H cells)
    (hpath : cell ∈ visited cells (H.fill entry.handle entry.tradeId) ∨
      firstEmpty cells (H.fill entry.handle entry.tradeId) = some cell)
    (hnew : ∀ {i : Nat} {e : FillDedupEntry}, cells[i]? = some (full e) →
      ¬(e.handle = entry.handle ∧ e.tradeId = entry.tradeId)) :
    DedupSound H (cells.set cell (.full entry)) := by
  refine ⟨hd.chained.set_full hpath, ?_⟩
  have hcs : ∀ {i : Nat} {e : FillDedupEntry}, (cells.set cell (.full entry))[i]? = some (full e) →
      (i = cell ∧ e = entry) ∨ cells[i]? = some (full e) := by
    intro i e hi
    rw [getElem?_set] at hi
    by_cases hic : cell = i
    · subst hic
      by_cases hb : cell < cells.length
      · simp only [if_true, hb, some.injEq, full.injEq] at hi
        exact .inl ⟨rfl, hi.symm⟩
      · simp [hb] at hi
    · exact .inr (by simpa [hic] using hi)
  intro i j e e' hi hj hh ht
  rcases hcs hi with ⟨rfl, rfl⟩ | hi'
  · rcases hcs hj with ⟨rfl, _⟩ | hj'
    · rfl
    · exact absurd ⟨hh.symm, ht.symm⟩ (hnew hj')
  · rcases hcs hj with ⟨rfl, rfl⟩ | hj'
    · exact absurd ⟨hh, ht⟩ (hnew hi')
    · exact hd.unique hi' hj' hh ht

def sameTrade (s : StateEngine) (handle : OrderHandle) (event : VenueEvent) (entry : FillDedupEntry) : Bool :=
  s.liveEntry entry && decide (entry.handle = handle) && decide (entry.tradeId = event.tradeId)

theorem sameTrade_iff : sameTrade s handle event entry ↔
    (s.orders.lookup entry.handle).isSome ∧ entry.handle = handle ∧ entry.tradeId = event.tradeId := by
  simp [sameTrade, liveEntry, and_assoc]

theorem checkDuplicate_found (hd : DedupSound H s.fillDedup) (hlv : (s.orders.lookup entry.handle).isSome)
    (hid : ¬(event.tradeId.length = 0 ∨ event.tradeId.length > 96))
    (hi : s.fillDedup[cell]? = some (full entry)) (ht : entry.tradeId = event.tradeId) :
    s.checkDuplicate H entry.handle event =
      (if entry.quantity = event.fillQuantity.value ∧ entry.price = event.fillPrice.value then
        .duplicate else .protocolConflict, 0) := by
  have hp : sameTrade s entry.handle event entry := sameTrade_iff.mpr ⟨hlv, rfl, ht⟩
  have hso := hd.chained.find_isSome hi hp
  rw [ht] at hso
  obtain ⟨j, hj⟩ := isSome_iff_exists.mp hso
  obtain ⟨e, he, hpe⟩ := holdsAt_spec (find?_some hj)
  obtain ⟨_, hh, htr⟩ := sameTrade_iff.mp hpe
  have hij := hd.unique he hi hh (htr.trans ht.symm)
  subst hij
  unfold checkDuplicate
  rw [if_neg hid]
  dsimp only
  have hfd : ((visited s.fillDedup (H.fill entry.handle event.tradeId)).find?
      (holdsAt s.fillDedup (sameTrade s entry.handle event))).bind
        (fun i => s.fillDedup[i]?.bind occupant) = some entry := by
    rw [hj, bind_some, hi]
    rfl
  unfold sameTrade at hfd
  rw [hfd]

theorem spareCell_spec {p : FillDedupEntry → Bool} {hash : Nat}
    (h : (((visited cells hash).find? (holdsAt cells p)).or
      ((visited cells hash).find? (isDeletedAt cells))).or (firstEmpty cells hash) = some cell) :
    (cell ∈ visited cells hash ∨ firstEmpty cells hash = some cell) ∧ ∀ e, cells[cell]? = some (full e) → p e := by
  rcases or_eq_some_iff.mp h with h | ⟨_, h⟩
  · rcases or_eq_some_iff.mp h with h | ⟨_, h⟩
    · refine ⟨.inl (mem_of_find?_eq_some h), ?_⟩
      intro e he
      obtain ⟨e', he', hp⟩ := holdsAt_spec (find?_some h)
      rw [he] at he'
      cases he'
      exact hp
    · have hc := isDeletedAt_spec (find?_some h)
      exact ⟨.inl (mem_of_find?_eq_some h), by simp [hc]⟩
  · have hc := firstEmpty_spec h
    exact ⟨.inr h, by simp [hc]⟩

structure NewTrade (H : OrderHashes) (s : StateEngine) (handle : OrderHandle) (event : VenueEvent)
    (cell : Nat) : Prop where
  validId : ¬(event.tradeId.length = 0 ∨ event.tradeId.length > 96)
  path : cell ∈ visited s.fillDedup (H.fill handle event.tradeId) ∨
    firstEmpty s.fillDedup (H.fill handle event.tradeId) = some cell
  absent : ∀ {i : Nat} {e : FillDedupEntry}, s.fillDedup[i]? = some (full e) →
    ¬(e.handle = handle ∧ e.tradeId = event.tradeId)
  stale : ∀ {e : FillDedupEntry}, s.fillDedup[cell]? = some (full e) → ¬(s.orders.lookup e.handle).isSome

theorem checkDuplicate_new (hd : DedupSound H s.fillDedup) (hlv : (s.orders.lookup handle).isSome)
    (h : s.checkDuplicate H handle event = (.ok, cell)) : NewTrade H s handle event cell := by
  have habsent : ∀ {i : Nat} {e : FillDedupEntry}, s.fillDedup[i]? = some (full e) →
      ¬(e.handle = handle ∧ e.tradeId = event.tradeId) := by
    rintro i e hi ⟨rfl, ht⟩
    by_cases hid : event.tradeId.length = 0 ∨ event.tradeId.length > 96
    · rw [checkDuplicate, if_pos hid] at h
      cases h
    · rw [checkDuplicate_found hd hlv hid hi ht] at h
      split at h <;> cases h
  unfold checkDuplicate at h
  split at h
  next => cases h
  next hid =>
  dsimp only at h
  split at h
  next => split at h <;> cases h
  split at h
  next c hc =>
    cases h
    obtain ⟨hpath, hstl⟩ := spareCell_spec hc
    exact ⟨hid, hpath, habsent, fun he => by simpa [liveEntry] using hstl _ he⟩
  next => cases h

open List

variable {t : OrderTable} {slot : Nat} {r : OrderRecord} {record : Option Nat}

theorem merge_agrees (h : record = none ∨ record = some slot) (missing : Error) :
    merge record (some slot) missing = .ok (some slot) := by
  unfold merge
  rcases h with rfl | rfl
  · exact if_neg fun hc => hc.1 rfl
  · exact if_neg fun hc => hc.2 rfl

section

variable (hi : Identified H t event slot)

include hi

theorem Identified.identifyHandle_eq :
    identifyHandle t event = .ok (if event.handle.generation ≠ 0 then some slot else none) := by
  unfold identifyHandle
  split
  next hg => rw [hi.handle hg]; exact merge_agrees (.inl rfl) _
  next => rfl

section

variable (hr : record = none ∨ record = some slot)

include hr

theorem Identified.identifyToken_eq : identifyToken H t event record =
      .ok (if event.token.sequence ≠ 0 then some slot else record) := by
  unfold identifyToken
  split
  next hg => rw [hi.token hg]; exact merge_agrees hr _
  next => rfl

theorem Identified.identifyClient_eq : identifyClient H t event record =
      .ok (if event.clientOrderId.length ≠ 0 then some slot else record) := by
  unfold identifyClient
  split
  next hg =>
    have hf := hi.client hg
    have hid : validId event.clientOrderId := by
      by_contra hid
      rw [findClient, if_neg hid] at hf
      cases hf
    rw [hf, if_neg (by simp [hid])]
    exact merge_agrees hr _
  next => rfl

theorem Identified.identifyVenue_eq : identifyVenue H t event record =
      .ok (if event.venueOrderId.length ≠ 0 ∧ t.findVenue H event.venueOrderId = some slot then
        some slot else record) := by
  unfold identifyVenue
  split
  next hg =>
    rw [if_neg (by simp [hi.venueValid hg])]
    rcases hi.venue hg with hf | hf
    · rw [hf, if_neg (by simp)]
    · rw [hf, if_pos ⟨hg, rfl⟩]
      exact merge_agrees hr _
  next hg => rw [if_neg fun h => hg h.1]

end

theorem Identified.identify_eq : identify H t event = .ok (some slot) := by
  have hke : ∀ {c : Prop} [Decidable c] {x : Option Nat}, x = none ∨ x = some slot →
      (if c then some slot else x) = none ∨ (if c then some slot else x) = some slot := by
    intro c _ x hx
    split
    · exact .inr rfl
    · exact hx
  have h₁ := hke (c := event.handle.generation ≠ 0) (.inl rfl)
  have h₂ := hke (c := event.token.sequence ≠ 0) h₁
  have h₃ := hke (c := event.clientOrderId.length ≠ 0) h₂
  unfold identify
  simp only [bind, Except.bind]
  rw [hi.identifyHandle_eq]
  dsimp only
  rw [hi.identifyToken_eq h₁]
  dsimp only
  rw [hi.identifyClient_eq h₂]
  dsimp only
  rw [hi.identifyVenue_eq h₃]
  rcases hi.named with hg | hg | hg | hg <;> simp [hg]

end

theorem Identified.resolvesTo (hi : Identified H s.orders event slot) (hv : s.orders.Valid H)
    (ho : s.orders.order slot = some r) (hven : NewVenueId H s.orders event → r.venueOrderId.length = 0) :
    ∃ s₁ r₁, ResolvesTo H s event slot r s₁ r₁ := by
  obtain ⟨_, _, hco⟩ := order_eq_some ho
  rcases resolve_cases hv with ⟨error, he, _, hset⟩ | ⟨slot', r', s₁, r₁, h⟩
  · have hne := hset slot hi.identify_eq
    unfold resolve at he
    rw [hi.identify_eq] at he
    dsimp only at he
    split at he
    next hnew =>
      refine absurd (hven hnew) ?_
      rw [hco]
      exact hne
    next => cases he
  · have hsm := h.identify
    rw [hi.identify_eq] at hsm
    cases hsm
    have hbef := h.before
    rw [ho] at hbef
    cases hbef
    exact ⟨s₁, r₁, h⟩

def StateEngine.spareCell (s : StateEngine) (cell : Cell FillDedupEntry) : Bool :=
  match cell with
  | .full entry => !s.liveEntry entry
  | _ => true

/-- A probe path reaches every cell or ends at an empty one. -/
theorem mem_visited_or_firstEmpty {cells : List (Cell FillDedupEntry)} {i : Nat} (hash : Nat)
    (hi : i < cells.length) : i ∈ visited cells hash ∨ (firstEmpty cells hash).isSome := by
  by_cases he : (firstEmpty cells hash).isSome
  · exact .inr he
  · left
    unfold visited
    rw [takeWhile_eq_self_iff.mpr]
    · exact mem_probeSeq hi
    · intro j hj
      have hno : firstEmpty cells hash = none := by simpa using he
      simpa using find?_eq_none.mp hno j hj

theorem checkDuplicate_ok (hid : ¬(event.tradeId.length = 0 ∨ event.tradeId.length > 96))
    (habsent : ∀ {i : Nat} {e : FillDedupEntry}, s.fillDedup[i]? = some (full e) →
      ¬(e.handle = handle ∧ e.tradeId = event.tradeId))
    (hspare : ∃ cell ∈ s.fillDedup, s.spareCell cell) :
    ∃ cell, s.checkDuplicate H handle event = (.ok, cell) := by
  have hno : (visited s.fillDedup (H.fill handle event.tradeId)).find?
      (holdsAt s.fillDedup fun entry => s.liveEntry entry && decide (entry.handle = handle) &&
        decide (entry.tradeId = event.tradeId)) = none := by
    refine find?_eq_none.mpr fun i _ hh => ?_
    obtain ⟨e, he, hp⟩ := holdsAt_spec hh
    simp only [Bool.and_eq_true, decide_eq_true_eq] at hp
    exact habsent he ⟨hp.1.2, hp.2⟩
  have hso : ((((visited s.fillDedup (H.fill handle event.tradeId)).find?
      (holdsAt s.fillDedup fun entry => !s.liveEntry entry)).or
      ((visited s.fillDedup (H.fill handle event.tradeId)).find? (isDeletedAt s.fillDedup))).or
      (firstEmpty s.fillDedup (H.fill handle event.tradeId))).isSome := by
    obtain ⟨c, hc, hsp⟩ := hspare
    obtain ⟨i, hi, rfl⟩ := mem_iff_getElem.mp hc
    have hget : s.fillDedup[i]? = some s.fillDedup[i] := getElem?_eq_getElem hi
    simp only [isSome_or, Bool.or_eq_true]
    rcases mem_visited_or_firstEmpty (H.fill handle event.tradeId) hi with hvis | hemp
    · left
      cases hce : s.fillDedup[i] with
      | empty =>
        rw [hce] at hget
        have hne := mem_takeWhile_imp hvis
        simp [isEmptyAt, hget] at hne
      | full e =>
        rw [hce] at hget hsp
        exact .inl (find?_isSome.mpr ⟨i, hvis, holdsAt_of_full hget hsp⟩)
      | deleted =>
        rw [hce] at hget
        exact .inr (find?_isSome.mpr ⟨i, hvis, by simp [isDeletedAt, hget]⟩)
    · exact .inr hemp
  obtain ⟨cell, hce⟩ := isSome_iff_exists.mp hso
  refine ⟨cell, ?_⟩
  unfold checkDuplicate
  rw [if_neg hid]
  dsimp only
  rw [hno, bind_none]
  rw [hce]

theorem applyFill_filled {cell : Nat} (hv : s.orders.Valid H) (ho : s.orders.order slot = some r)
    (hw : WellFormedFill r event) (hnew : s.checkDuplicate H ⟨slot, 0, r.generation⟩ event = (.ok, cell))
    (hfit : event.fillQuantity.value ≤ r.remainingQuantity)
    (hsum : r.cumulativeQuantity ≤ int64Max - event.fillQuantity.value)
    (havg : (filledRecord r event).averagePrice ≤ int64Max ∧ int64Min ≤ (filledRecord r event).averagePrice) :
    Filled H s slot r event cell (s.applyFill H slot event) := by
  obtain ⟨_, _, hco⟩ := order_eq_some ho
  have hok : (s.applyFill H slot event).error = .ok := by
    have hh := handleOf_order ho
    have hsc : ¬(event.fillQuantity.scale ≠ (s.orders.record slot).request.quantity.scale ∨
        event.fillPrice.scale ≠ (s.orders.record slot).request.price.scale) := by
      rw [hco] at hw
      simp only [not_or, not_not]
      exact ⟨hw.quantityScale, hw.priceScale⟩
    have hpos : ¬(event.fillQuantity.value ≤ 0 ∨ event.fillPrice.value ≤ 0) := by
      have := hw.quantityPos
      have := hw.pricePos
      omega
    have hft : ¬(event.fillQuantity.value > (s.orders.record slot).remainingQuantity) := by
      rw [hco] at hfit
      exact not_lt.mpr hfit
    have hsu : ¬((s.orders.record slot).cumulativeQuantity > int64Max - event.fillQuantity.value) := by
      rw [hco] at hsum
      exact not_lt.mpr hsum
    rw [hco] at havg
    unfold applyFill
    rw [if_neg hsc, if_neg hpos, hh, hnew]
    dsimp only
    rw [if_neg hft, if_neg hsu, if_neg]
    rintro (hgt | hlt)
    · exact not_lt.mpr havg.1 hgt
    · exact not_lt.mpr havg.2 hlt
  cases applyFill_spec hv ho with
  | refused he => exact absurd hok he
  | duplicate _ hd => rw [hnew] at hd; cases hd
  | filled cell' _ hf =>
    have hce := hf.fresh
    rw [hnew] at hce
    cases hce
    exact hf

end SelfQuant.Oms
