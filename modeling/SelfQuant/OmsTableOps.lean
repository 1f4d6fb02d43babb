import SelfQuant.OmsTableSpec

namespace SelfQuant.Oms

open Function Probe Option
open OrderRecord (core)

namespace OrderTable

variable {H : OrderHashes} {t t' t'' : OrderTable} {slot : Nat} {handle : OrderHandle} {sub : SubmitOrderRequest}

/-- The parts of a table that only retirement touches. -/
structure Framed (t t' : OrderTable) : Prop where
  length : t'.records.length = t.records.length
  retiredTokens : t'.retiredTokens = t.retiredTokens
  retiredTokenCount : t'.retiredTokenCount = t.retiredTokenCount
  retiredTokenNext : t'.retiredTokenNext = t.retiredTokenNext

theorem Framed.refl (t : OrderTable) : Framed t t := ⟨rfl, rfl, rfl, rfl⟩

theorem Framed.trans (h : Framed t t') (h' : Framed t' t'') : Framed t t'' :=
  ⟨h'.length.trans h.length, h'.retiredTokens.trans h.retiredTokens,
    h'.retiredTokenCount.trans h.retiredTokenCount, h'.retiredTokenNext.trans h.retiredTokenNext⟩

theorem Relinked.framed (h : Relinked t t') : Framed t t' :=
  ⟨h.length, h.retiredTokens, h.retiredTokenCount, h.retiredTokenNext⟩

theorem Erased.framed (h : Erased H t slot t') : Framed t t' :=
  ⟨h.length, h.retiredTokens, h.retiredTokenCount, h.retiredTokenNext⟩

variable {r : OrderRecord} {rest : List Nat}

/-- `o'` is `o` without some orders, all of them terminal and with nothing in flight. -/
def Dropped (o o' : OrderMap) : Prop := ∀ slot, o' slot = o slot ∨
  (o' slot = none ∧ ∃ r, o slot = some r ∧ isTerminal r.status ∧ r.inflight = .none)

theorem Dropped.refl (o : OrderMap) : Dropped o o := fun _ => .inl rfl

theorem Dropped.of_some {o o' : OrderMap} (h : Dropped o o') (hr : o' slot = some r) : o slot = some r := by
  rcases h slot with he | ⟨hn, _⟩
  · rwa [← he]
  · simp [hn] at hr

theorem Erased.dropped (h : Erased H t slot t') (ho : t.order slot = some r)
    (htm : isTerminal r.status) (hin : r.inflight = .none) : Dropped t.order t'.order := by
  intro s
  rw [h.order]
  by_cases hs : s = slot
  · subst hs
    exact .inr ⟨by simp, r, ho, htm, hin⟩
  · exact .inl (update_of_ne hs _ _)

structure Admitted (t : OrderTable) (submitted : SubmitOrderRequest) (handle : OrderHandle)
    (o : OrderMap) : Prop where
  sequencePos : submitted.order.token.sequence ≠ 0
  clientValid : validId submitted.order.clientOrderId
  quantityPos : 0 < submitted.order.quantity.value
  freshToken : ∀ {slot r}, t.order slot = some r → r.request.token ≠ submitted.order.token
  freshClient : ∀ {slot r}, t.order slot = some r → r.request.clientOrderId ≠ submitted.order.clientOrderId
  reserved : handle.reserved = 0
  generation : handle.generation ≠ 0
  bound : handle.slot < t.records.length
  stale : (t.record handle.slot).generation ≠ handle.generation
  free : o handle.slot = none

def Inserted (H : OrderHashes) (t : OrderTable) (submitted : SubmitOrderRequest)
    (result : Error × OrderHandle × OrderTable) : Prop :=
  ∃ error handle t' o, result = (error, handle, t') ∧ Valid H t' ∧ Framed t t' ∧ Dropped t.order o ∧
    ((error ≠ .ok ∧ t'.order = o) ∨ (error = .ok ∧ Admitted t submitted handle o ∧
      t'.order = update o handle.slot (some (freshRecord submitted handle.generation))))

section

variable (hv : Valid H t)

include hv

theorem Valid.occupied
    {byToken : FixedMap RequestToken} {byClient : FixedMap ClientOrderId} {size : Nat}
    (hfe : t.freeSlots = slot :: rest) (hocc : r.occupied) (hco : r.core = r)
    (hgen : r.generation ≠ 0) (hseq : r.request.token.sequence ≠ 0) (hven : venueKey r = none)
    (htok : IndexOf H.token byToken (update t.order slot (some r)) fun r => some r.request.token)
    (hclient : IndexOf H.client byClient (update t.order slot (some r)) fun r => some r.request.clientOrderId)
    (hlt : byToken.length = t.byToken.length) (hlc : byClient.length = t.byClient.length)
    (ht' : t' = { { t with freeSlots := rest }.setRecord slot r with
      byToken := byToken, byClient := byClient, size := size }) :
    Valid H t' ∧ t'.order = update t.order slot (some r) ∧ Framed t t' := by
  obtain ⟨hb, hno⟩ := (hv.freeIff slot).mp (by simp [hfe])
  have hnd : slot ∉ rest ∧ rest.Nodup := by
    have := hv.freeNodup
    rwa [hfe, List.nodup_cons] at this
  have hord : t'.order = update t.order slot (some r) := by
    rw [ht']
    refine (order_setRecord (t := { t with freeSlots := rest }) hb).trans ?_
    simp only [hocc, if_true, hco]
    rfl
  have hlen : t'.records.length = t.records.length := by
    rw [ht']
    exact setRecord_length { t with freeSlots := rest } slot r
  refine ⟨⟨?_, ?_, ?_, ?_, ?_, ?_, ?_, ?_⟩, hord, ⟨hlen, by rw [ht']; rfl, by rw [ht']; rfl, by rw [ht']; rfl⟩⟩
  · rw [ht']; exact hnd.2
  · intro s
    have hf : t'.freeSlots = rest := by rw [ht']; rfl
    rw [hf, hlen, hord]
    by_cases hs : s = slot
    · subst hs; simp [hnd.1]
    · have := hv.freeIff s
      rw [hfe] at this
      simpa [hs] using this
  · intro s r' hr'
    rw [hord] at hr'
    obtain ⟨-, hr'⟩ | ⟨-, hr'⟩ := update_eq_some.mp hr'
    · cases hr'; exact hgen
    · exact hv.generationPos hr'
  · intro s r' hr'
    rw [hord] at hr'
    obtain ⟨-, hr'⟩ | ⟨-, hr'⟩ := update_eq_some.mp hr'
    · cases hr'; exact hseq
    · exact hv.tokenPos hr'
  · rw [hord, ht']; exact htok
  · rw [hord, ht']; exact hclient
  · rw [hord, ht']
    exact hv.venue.unkeyed (by simp [hno]) (by rintro r₁ ⟨rfl⟩; exact hven)
  · rw [hlen, ht']
    rw [hlt, hlc]
    exact hv.room

theorem occupy_spec (hfe : t.freeSlots = slot :: rest)
    (htok : ProbeMap.lookup H.token t.byToken sub.order.token = none)
    (hcl : ProbeMap.lookup H.client t.byClient sub.order.clientOrderId = none)
    (hseq : sub.order.token.sequence ≠ 0) : ∃ t', t.occupy H sub =
        (.ok, ⟨slot, 0, nextGeneration (t.record slot).generation⟩, t') ∧
      Valid H t' ∧ Framed t t' ∧ t'.order = update t.order slot
        (some (freshRecord sub (nextGeneration (t.record slot).generation))) := by
  obtain ⟨hb, hno⟩ := (hv.freeIff slot).mp (by simp [hfe])
  have hfr : ∀ {K : Type} {key : OrderRecord → Option K} (r₀ : OrderRecord),
      t.order slot = some r₀ → key r₀ = none := by simp [hno]
  let r := freshRecord sub (nextGeneration (t.record slot).generation)
  obtain ⟨byToken, ht, hlt, hit⟩ := hv.token.insert_spec (r := r) Valid.slot_lt hv.room.1 hfr rfl htok
  obtain ⟨byClient, hc, hlc, hic⟩ := hv.client.insert_spec (r := r) Valid.slot_lt hv.room.2.1 hfr rfl hcl
  let t' : OrderTable := { { t with freeSlots := rest }.setRecord slot r with
    byToken := byToken, byClient := byClient, size := t.size + 1 }
  obtain ⟨hval, hord, hfrm⟩ : Valid H t' ∧ _ ∧ Framed t t' :=
    hv.occupied hfe rfl rfl (nextGeneration_ne_zero _) hseq rfl hit hic hlt hlc rfl
  refine ⟨t', ?_, hval, hfrm, hord⟩
  unfold occupy
  rw [hfe]
  dsimp only [setRecord]
  simp only [show nextGeneration (t.record slot).generation = r.generation from rfl] at ht hc ⊢
  rw [show FixedMap.insert H.token t.byToken sub.order.token ⟨slot, 0, r.generation⟩ = _ from ht,
    show FixedMap.insert H.client t.byClient sub.order.clientOrderId ⟨slot, 0, r.generation⟩ = _ from hc]
  rfl

theorem Valid.lookup_of_order (h : t.order slot = some r) : t.lookup ⟨slot, 0, r.generation⟩ = some slot := by
  rw [lookup_iff]
  exact ⟨rfl, r, liveOrder_eq_some.mpr ⟨rfl, hv.generationPos h, h, rfl⟩⟩

theorem reclaimOldestTerminal_spec : t.reclaimOldestTerminal H = (.capacityExceeded, t) ∨
      ∃ t' slot r, t.reclaimOldestTerminal H = (.ok, t') ∧ t.order slot = some r ∧
        isTerminal r.status ∧ r.inflight = .none ∧ Erased H t slot t' := by
  unfold reclaimOldestTerminal
  split
  next => exact .inl rfl
  next hc =>
  dsimp only
  split
  next => exact .inl rfl
  next hr =>
  simp only [not_or, not_le] at hc
  simp only [Bool.or_eq_true, Bool.not_eq_true', decide_eq_true_eq, not_or, Bool.not_eq_false, not_not] at hr
  obtain ⟨⟨⟨⟨hocc, _⟩, _⟩, htm⟩, hin⟩ := hr
  have ho := order_of_occupied hc.2 hocc
  obtain ⟨t', he, her⟩ := erase_spec (H := H) (hv.lookup_of_order ho)
  exact .inr ⟨t', _, _, he, ho, htm, hin, her⟩

theorem Valid.inserted_unchanged {error : Error} (he : error ≠ .ok) : Inserted H t sub (error, handle, t) :=
  ⟨error, handle, t, t.order, rfl, hv, Framed.refl t, Dropped.refl _, .inl ⟨he, rfl⟩⟩

theorem Valid.occupy_inserted {t₁ : OrderTable} (hv₁ : Valid H t₁) (hf₁ : Framed t t₁)
    (hd₁ : Dropped t.order t₁.order) (hgen : ∀ s, (t₁.record s).generation = (t.record s).generation)
    (hne : t₁.freeSlots ≠ []) (hseq : sub.order.token.sequence ≠ 0)
    (hid : validId sub.order.clientOrderId) (hq : 0 < sub.order.quantity.value)
    (htok : ProbeMap.lookup H.token t.byToken sub.order.token = none)
    (hcl : ProbeMap.lookup H.client t.byClient sub.order.clientOrderId = none)
    (htok₁ : ProbeMap.lookup H.token t₁.byToken sub.order.token = none)
    (hcl₁ : ProbeMap.lookup H.client t₁.byClient sub.order.clientOrderId = none) :
    Inserted H t sub (t₁.occupy H sub) := by
  obtain ⟨slot, rest, hfe⟩ := List.exists_cons_of_ne_nil hne
  obtain ⟨hb, hno⟩ := (hv₁.freeIff slot).mp (by simp [hfe])
  obtain ⟨t', he, hv', hf', ho⟩ := occupy_spec hv₁ hfe htok₁ hcl₁ hseq
  refine ⟨.ok, _, t', t₁.order, he, hv', hf₁.trans hf', hd₁, .inr ⟨rfl,
    ⟨hseq, hid, hq, ?_, ?_, rfl, nextGeneration_ne_zero _, ?_, ?_, hno⟩, ho⟩⟩
  · exact fun hr hk => hv.token.absent htok hr (congrArg some hk)
  · exact fun hr hk => hv.client.absent hcl hr (congrArg some hk)
  · rw [← hf₁.length]; exact hb
  · rw [← hgen]
    exact (nextGeneration_ne_self _).symm

theorem insert_spec (sub : SubmitOrderRequest) : Inserted H t sub (t.insert H sub) := by
  unfold insert
  dsimp only
  split
  next => exact hv.inserted_unchanged (by simp)
  next harg =>
  split
  next => exact hv.inserted_unchanged (by simp)
  next hks =>
  simp only [not_or, Bool.not_eq_true', Bool.not_eq_false, Int.not_le] at harg
  simp only [not_or, Bool.not_eq_true, isSome_eq_false_iff, isNone_iff_eq_none] at hks
  obtain ⟨hseq, hid, hq⟩ := harg
  obtain ⟨htok, hcl⟩ := hks
  split
  next =>
    rcases reclaimOldestTerminal_spec hv with he | ⟨t₁, slot, r, he, ho, htm, hin, her⟩
    · rw [he]
      exact hv.inserted_unchanged (by simp)
    · rw [he]
      obtain ⟨hb, hocc, _⟩ := order_eq_some ho
      refine hv.occupy_inserted (hv.erased hb hocc her) her.framed (her.dropped ho htm hin)
        her.generation (by simp [her.freeSlots]) hseq hid hq htok hcl ?_ ?_
      · rw [her.byToken, hv.token.sound.lookup_remove, htok, ite_self]
      · rw [her.byClient, hv.client.sound.lookup_remove, hcl, ite_self]
  next hne =>
    exact hv.occupy_inserted hv (Framed.refl t) (Dropped.refl _) (fun _ => rfl) hne hseq hid hq htok hcl htok hcl

end

end OrderTable

namespace OrderTable

variable {H : OrderHashes} {t t' : OrderTable} {slot : Nat} {handle : OrderHandle} {r r' : OrderRecord}

theorem order_setRecord_occupied (ho : t.order slot = some r) (hocc : r'.occupied) :
    (t.setRecord slot r').order = update t.order slot (some r'.core) := by
  rw [order_setRecord (order_eq_some ho).1, if_pos hocc]

section

variable (hv : Valid H t) (ho : t.order slot = some r) (hocc : r'.occupied) (hreq : r'.request = r.request)
  (hgen : r'.generation = r.generation)

include hv ho hocc hreq hgen

/-- A record may be rewritten in place as long as it keeps its identifiers and the venue index
follows. -/
theorem Valid.rewrite {byVenue : FixedMap VenueOrderId}
    (hven : IndexOf H.venue byVenue (update t.order slot (some r'.core)) venueKey)
    (hlen : byVenue.length = t.byVenue.length) (ht' : t' = { t.setRecord slot r' with byVenue := byVenue }) :
    Valid H t' := by
  have hord : t'.order = update t.order slot (some r'.core) := by
    rw [ht', ← order_setRecord_occupied ho hocc]
    rfl
  have hfield : ∀ {P : OrderRecord → Prop}, (P r → P r'.core) → (∀ {s r₁}, t.order s = some r₁ → P r₁) →
      ∀ {s r₁}, t'.order s = some r₁ → P r₁ := by
    intro P hP hall s r₁ hs
    rw [hord] at hs
    obtain ⟨-, hs⟩ | ⟨-, hs⟩ := update_eq_some.mp hs
    · rw [← some.inj hs]
      exact hP (hall ho)
    · exact hall hs
  constructor
  · rw [ht']; exact hv.freeNodup
  · intro s
    have hlen : t'.records.length = t.records.length := by rw [ht']; exact setRecord_length _ _ _
    have hfe : t'.freeSlots = t.freeSlots := by rw [ht']; rfl
    rw [hlen, hfe, hord]
    refine (hv.freeIff s).trans ?_
    by_cases he : s = slot
    · subst he; simp [ho]
    · rw [update_of_ne he]
  · exact hfield (P := fun r => r.generation ≠ 0)
      (by simp only [core, hgen]; exact id) hv.generationPos
  · exact hfield (P := fun r => r.request.token.sequence ≠ 0)
      (by simp only [core, hreq]; exact id) hv.tokenPos
  · rw [hord, ht']
    exact hv.token.keep ho (by simp [core, hreq]) hgen
  · rw [hord, ht']
    exact hv.client.keep ho (by simp [core, hreq]) hgen
  · rw [hord, ht']
    exact hven
  · rw [ht']
    dsimp only [setRecord]
    rw [List.length_set, hlen]
    exact hv.room

theorem Valid.setRecord (hven : r'.venueOrderId = r.venueOrderId) : Valid H (t.setRecord slot r') :=
  hv.rewrite ho hocc hreq hgen (hv.venue.keep ho (by simp [venueKey, core, hven]) hgen) rfl rfl

end

/-- `t'` is `t` with a first venue identifier written into the order of `slot`. -/
structure Bound (H : OrderHashes) (t : OrderTable) (slot : Nat) (venueId : VenueOrderId)
    (t' : OrderTable) : Prop where
  unbound : (t.record slot).venueOrderId.length = 0
  valid : Valid H t'
  framed : Framed t t'
  record : ∀ s, t'.record s = if s = slot then { t.record slot with venueOrderId := venueId } else t.record s

variable {venueId : VenueOrderId}

section

variable (h : Bound H t slot venueId t')

include h

theorem Bound.lookup (handle : OrderHandle) : t'.lookup handle = t.lookup handle := by
  simp only [OrderTable.lookup, h.framed.length, h.record]
  split
  · rfl
  · by_cases hs : handle.slot = slot
    · simp [hs]
    · simp [hs]

theorem Bound.handleOf (s : Nat) : t'.handleOf s = t.handleOf s := by
  simp only [OrderTable.handleOf, h.record]
  by_cases hs : s = slot <;> simp [hs]

theorem Bound.order (ho : t.order slot = some r) :
    t'.order = update t.order slot (some { r with venueOrderId := venueId }) := by
  obtain ⟨hb, hocc, rfl⟩ := order_eq_some ho
  funext s
  by_cases hs : s = slot
  · subst hs
    simp [order, h.framed.length, h.record, hb, hocc, core]
  · simp [order, h.framed.length, h.record, hs]

end

theorem Valid.venue_unknown (hv : Valid H t) (hid : validId venueId)
    (hn : t.findVenue H venueId = none) : ProbeMap.lookup H.venue t.byVenue venueId = none := by
  cases hl : ProbeMap.lookup H.venue t.byVenue venueId with
  | none => rfl
  | some h =>
    obtain ⟨r, ho, _, he⟩ := (hv.venue.agrees venueId h).mp hl
    rw [findVenue, if_pos hid, hl, bind_some, he, hv.lookup_of_order ho] at hn
    simp at hn

theorem bindVenueId_spec (hv : Valid H t) (hl : t.lookup handle = some slot)
    (hid : validId venueId) (hn : t.findVenue H venueId = none) :
    ((t.record slot).venueOrderId.length ≠ 0 ∧ t.bindVenueId H handle venueId = (.conflict, t)) ∨
      ∃ t', t.bindVenueId H handle venueId = (.ok, t') ∧ Bound H t slot venueId t' := by
  obtain ⟨he, hg, hb, hocc⟩ := lookup_eq_some hl
  have ho := order_of_occupied hb hocc
  have hun := hv.venue_unknown hid hn
  have hlen : venueId.length ≠ 0 := by
    simp only [validId, Bool.and_eq_true, decide_eq_true_eq] at hid
    exact Nat.ne_of_gt hid.1
  unfold bindVenueId
  rw [hl]
  simp only [hid, Bool.not_true, Bool.false_eq_true, if_false]
  by_cases hset : (t.record slot).venueOrderId.length = 0
  · let r₁ : OrderRecord := { t.record slot with venueOrderId := venueId }
    have hfe : ∀ r₀, t.order slot = some r₀ → venueKey r₀ = none := by
      intro r₀ hr₀
      rw [ho] at hr₀
      cases hr₀
      simp [venueKey, core, hset]
    have hkey : venueKey r₁.core = some venueId := by simp [venueKey, core, r₁, hlen]
    obtain ⟨m', hins, hml, hm'⟩ := hv.venue.insert_spec Valid.slot_lt hv.room.2.2 hfe hkey hun
    have hins : FixedMap.insert H.venue t.byVenue venueId handle = (.ok, m') := by rw [he]; exact hins
    rw [if_neg (not_not.mpr hset), hins]
    refine .inr ⟨_, rfl, hset, ?_, ⟨setRecord_length _ _ _, rfl, rfl, rfl⟩, ?_⟩
    · exact hv.rewrite ho (show r₁.occupied from hocc) rfl rfl hm' hml rfl
    · intro s
      split
      next hs =>
        subst hs
        exact record_setRecord_self (t := { t with byVenue := m' }) hb _
      next hs => exact record_setRecord_ne (t := { t with byVenue := m' }) (Ne.symm hs)
  · have hne : (t.record slot).venueOrderId ≠ venueId := by
      intro heq
      refine hv.venue.absent hun ho ?_
      simp [venueKey, core, heq, hlen]
    rw [if_pos hset, if_neg hne]
    exact .inl ⟨hset, rfl⟩

end OrderTable

end SelfQuant.Oms
