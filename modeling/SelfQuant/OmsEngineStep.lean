import SelfQuant.OmsResolve
import SelfQuant.OmsTableQueue

namespace SelfQuant.Oms

open Probe OrderTable List Option

variable {r r' : OrderRecord} {event : VenueEvent} {prep : SubmitOrderRequest}

/-- `r'` is a later state of the same order: its identity is untouched. -/
structure SameOrder (r r' : OrderRecord) : Prop where
  request : r'.request = r.request
  routing : r'.routing = r.routing
  venueOrderId : r'.venueOrderId = r.venueOrderId
  generation : r'.generation = r.generation
  occupied : r'.occupied = r.occupied

inductive Reacted (r : OrderRecord) (event : VenueEvent) : OrderRecord → Prop
  | same : Reacted r event r
  | newAck (ht : event.type = .newAck) (hs : r.status ≠ .rejected) : Reacted r event (ackRecord r)
  | newReject (ht : event.type = .newReject) (hs : r.status = .pendingSubmit)
      (hc : r.cumulativeQuantity = 0) : Reacted r event (settled r .rejected)
  | cancelAck (ht : event.type = .cancelAck) (hi : r.inflight = .cancel) (hs : r.status ≠ .filled) :
      Reacted r event (settled r .canceled)
  | cancelReject (ht : event.type = .cancelReject) (hi : r.inflight = .cancel) : Reacted r event
      { r with inflight := if r.status = .pendingSubmit then .submit else .none }
  | expire (ht : event.type = .expire) (hs : ¬isTerminal r.status) :
      Reacted r event (settled r .expired)
  | reconcileOpen (ht : event.type = .reconcileOpen) (hr : r.remainingQuantity ≠ 0)
      (hs : ¬(isTerminal r.status ∧ r.status ≠ .unknown)) : Reacted r event
      (settled r (if r.cumulativeQuantity = 0 then .opened else .partiallyFilled))
  | reconcileTerminal (ht : event.type = .reconcileTerminal) (he : isTerminal event.reconciledStatus)
      (hf : ¬(event.reconciledStatus = .filled ∧ r.remainingQuantity ≠ 0))
      (hs : ¬isTerminal r.status) : Reacted r event (settled r event.reconciledStatus)

theorem react_accept {observe : Bool} {emit : Option UpdateType}
    (h : react r event = .accept r' observe emit) : Reacted r event r' := by
  unfold react at h
  split at h
  next ht =>
    split at h
    next => cases h
    next hr =>
    split at h
    next => cases h; exact .newAck ht hr
    next => cases h; exact .same
  next ht =>
    split at h
    next => cases h; exact .same
    split at h
    next => cases h
    next hc =>
    simp only [not_or, not_not, ne_eq] at hc
    cases h
    exact .newReject ht hc.1 hc.2
  next ht =>
    split at h
    next => cases h; exact .same
    split at h
    next => cases h
    next hc =>
    simp only [not_or, not_not, ne_eq] at hc
    cases h
    exact .cancelAck ht hc.1 hc.2
  next ht =>
    split at h
    next =>
      split at h
      next => cases h
      next => cases h; exact .same
    next hc => cases h; exact .cancelReject ht (not_not.mp hc)
  next ht =>
    split at h
    next => cases h; exact .same
    split at h
    next => cases h
    next hc => cases h; exact .expire ht hc
  next ht =>
    split at h
    next => cases h
    next hc =>
    simp only [not_or] at hc
    cases h
    exact .reconcileOpen ht hc.1 hc.2
  next ht =>
    split at h
    next => cases h
    next htm =>
    split at h
    next => cases h
    next hfi =>
    split at h
    next => cases h
    next hsm =>
    split at h
    next => cases h; exact .same
    next hne =>
    cases h
    exact .reconcileTerminal ht (by simpa using htm) hfi fun hcur => hsm ⟨hcur, hne⟩
  next => cases h
  next => cases h

theorem Reacted.sameOrder (h : Reacted r event r') : SameOrder r r' := by
  cases h <;> exact ⟨rfl, rfl, rfl, rfl, rfl⟩

theorem Reacted.quantities (h : Reacted r event r') :
    r'.cumulativeQuantity = r.cumulativeQuantity ∧ r'.remainingQuantity = r.remainingQuantity ∧
      r'.cumulativeNotional = r.cumulativeNotional := by
  cases h <;> exact ⟨rfl, rfl, rfl⟩

def isFill : VenueEventType → Bool
  | .fill | .other _ => true
  | _ => false

/-- Why orders change: a local call, the submission of an order, or an event that resolved to
the order of a slot. -/
inductive Cause
  | command
  | submission (handle : OrderHandle)
  | event (event : VenueEvent) (slot : Nat)

inductive RecordStep : Cause → OrderRecord → OrderRecord → Prop
  | bind {r : OrderRecord} {event : VenueEvent} {slot : Nat} (h : r.venueOrderId.length = 0) :
      RecordStep (.event event slot) r { r with venueOrderId := event.venueOrderId }
  | react {r r' : OrderRecord} {event : VenueEvent} {slot : Nat} (ht : isFill event.type = false)
      (h : Reacted r event r') : RecordStep (.event event slot) r r'
  | fill {r : OrderRecord} {event : VenueEvent} {slot : Nat} (ht : isFill event.type)
      (hq : 0 < event.fillQuantity.value) (hr : event.fillQuantity.value ≤ r.remainingQuantity) :
      RecordStep (.event event slot) r (filledRecord r event)
  | reject {r : OrderRecord} (hs : r.status = .pendingSubmit) (hi : r.inflight = .submit) :
      RecordStep .command r (settled r .rejected)
  | expire {r : OrderRecord} (h : ¬isTerminal r.status) : RecordStep .command r (settled r .expired)
  | cancel {r : OrderRecord} (hs : ¬isTerminal r.status) (hi : r.inflight ≠ .cancel) :
      RecordStep .command r { r with inflight := .cancel }

abbrev RecordSteps (cause : Cause) := Relation.ReflTransGen (RecordStep cause)

variable {cause : Cause}

theorem RecordStep.identity (h : RecordStep cause r r') : r'.request = r.request ∧ r'.generation = r.generation := by
  cases h with
  | bind | fill | reject | expire | cancel => exact ⟨rfl, rfl⟩
  | react _ h => exact ⟨h.sameOrder.request, h.sameOrder.generation⟩

theorem RecordSteps.keep {P : OrderRecord → Prop} (hst : ∀ {r r'}, RecordStep cause r r' → P r → P r')
    (h : RecordSteps cause r r') (hp : P r) : P r' := by
  induction h with
  | refl => exact hp
  | tail _ hs ih => exact hst hs ih

theorem RecordSteps.identity (h : RecordSteps cause r r') : r'.request = r.request ∧ r'.generation = r.generation :=
  keep (P := fun x => x.request = r.request ∧ x.generation = r.generation)
    (fun hs hp => ⟨hs.identity.1.trans hp.1, hs.identity.2.trans hp.2⟩) h ⟨rfl, rfl⟩

open Function

variable {H : OrderHashes} {s s' : StateEngine} {slot : Nat} {handle : OrderHandle}

theorem Reacted.core (h : Reacted r event r') : Reacted r.core event r'.core := by
  cases h with
  | same => exact .same
  | newAck ht hs => exact .newAck ht hs
  | newReject ht hs hc => exact .newReject ht hs hc
  | cancelAck ht hi hs => exact .cancelAck ht hi hs
  | cancelReject ht hi => exact .cancelReject ht hi
  | expire ht hs => exact .expire ht hs
  | reconcileOpen ht hr hs => exact .reconcileOpen ht hr hs
  | reconcileTerminal ht he hf hs => exact .reconcileTerminal ht he hf hs

namespace StateEngine

/-- The order table stays valid and nothing but its orders and links changes. -/
structure Keeps (H : OrderHashes) (s s' : StateEngine) : Prop where
  valid : s'.orders.Valid H
  framed : Framed s.orders s'.orders
  fillDedup : s'.fillDedup = s.fillDedup

theorem Keeps.trans {s'' : StateEngine} (h : Keeps H s s') (h' : Keeps H s' s'') : Keeps H s s'' :=
  ⟨h'.valid, h.framed.trans h'.framed, h'.fillDedup.trans h.fillDedup⟩

theorem observeTerminal_fillDedup : (s.observeTerminal handle).fillDedup = s.fillDedup := by
  unfold observeTerminal
  split
  next => rfl
  next => split <;> rfl

theorem handleOf_order (ho : s.orders.order slot = some r) : s.orders.handleOf slot = ⟨slot, 0, r.generation⟩ := by
  obtain ⟨_, _, rfl⟩ := order_eq_some ho
  rfl

/-- What an engine call that leaves the fill table alone did to the order of `slot`. -/
structure Rewrote (H : OrderHashes) (s : StateEngine) (slot : Nat) (r r' : OrderRecord)
    (out : Outcome) : Prop where
  ok : out.error = .ok
  keeps : Keeps H s out.engine
  order : out.engine.orders.order = update s.orders.order slot (some r')
  updates : ∀ u ∈ out.updates, ∃ type, u = emitOrder type ⟨slot, 0, r.generation⟩ r'
  told : r'.status = r.status ∨ out.updates ≠ []

theorem rejectLocal_eq {handle : OrderHandle} (hr : s.orders.liveOrder handle = some r)
    (hs : r.status = .pendingSubmit) (hi : r.inflight = .submit) :
    s.rejectLocal handle = s.settle handle.slot .rejected .rejected := by
  obtain ⟨_, _, ho, _⟩ := liveOrder_eq_some.mp hr
  obtain ⟨_, _, rfl⟩ := order_eq_some ho
  unfold rejectLocal
  rw [lookup_iff.mpr ⟨rfl, _, hr⟩]
  exact if_neg (not_or.mpr ⟨not_not.mpr hs, not_not.mpr hi⟩)

section

variable (hv : s.orders.Valid H)

include hv

theorem Keeps.refl : Keeps H s s := ⟨hv, Framed.refl _, rfl⟩

theorem setRecord_keeps (ho : s.orders.order slot = some r)
    (hs : SameOrder r r') : Keeps H s (s.setRecord slot r') ∧
      (s.setRecord slot r').orders.order = update s.orders.order slot (some r'.core) := by
  obtain ⟨_, hocc, hco⟩ := order_eq_some ho
  have hocc' : r'.occupied := by rw [hs.occupied, hco]; exact hocc
  exact ⟨⟨hv.setRecord ho hocc' hs.request hs.generation hs.venueOrderId, ⟨setRecord_length _ _ _, rfl, rfl, rfl⟩, rfl⟩,
    order_setRecord_occupied ho hocc'⟩

theorem requestCancel_spec (token : RequestToken) :
    ((s.requestCancel H token).error ≠ .ok ∧ (s.requestCancel H token).engine = s ∧
        (s.requestCancel H token).updates = []) ∨
      ∃ slot r, s.orders.order slot = some r ∧ r.request.token = token ∧
        ¬isTerminal r.status ∧ r.inflight ≠ .cancel ∧
        Rewrote H s slot r { r with inflight := .cancel } (s.requestCancel H token) := by
  unfold requestCancel
  cases hf : s.orders.findToken H token with
  | none => exact .inl ⟨by simp, rfl, rfl⟩
  | some slot =>
    dsimp only
    split
    next => exact .inl ⟨by simp, rfl, rfl⟩
    next hc =>
    obtain ⟨r, ho, htok⟩ := hv.findToken_iff.mp hf
    obtain ⟨_, _, hco⟩ := order_eq_some ho
    rw [not_or] at hc
    refine .inr ⟨slot, r, ho, htok, by rw [hco]; exact hc.1, by rw [hco]; exact hc.2, ?_⟩
    have hset : SameOrder r { s.orders.record slot with inflight := .cancel } := by
      rw [hco]; exact ⟨rfl, rfl, rfl, rfl, rfl⟩
    obtain ⟨hk, hord⟩ := setRecord_keeps hv ho hset
    refine ⟨rfl, hk, hord.trans (by rw [hco]; rfl), ?_, .inl rfl⟩
    intro u hu
    simp only [mem_singleton] at hu
    exact ⟨.cancelRequested, by rw [hu, hco]; rfl⟩

theorem findNonTerminal_spec {inst : InstrumentId}
    (hg : (s.orders.findNonTerminal inst).generation ≠ 0) :
    ∃ slot r, s.orders.order slot = some r ∧ r.request.instrumentId = inst ∧
      ¬isTerminal r.status ∧ s.orders.lookup (s.orders.findNonTerminal inst) = some slot := by
  unfold findNonTerminal at hg ⊢
  split at hg
  next slot hf =>
    have hb := mem_range.mp (mem_of_find?_eq_some hf)
    have hp := find?_some hf
    simp only [Bool.and_eq_true, decide_eq_true_eq, Bool.not_eq_true'] at hp
    obtain ⟨⟨hocc, hinst⟩, htm⟩ := hp
    have ho := order_of_occupied hb hocc
    refine ⟨slot, _, ho, hinst, by simp [OrderRecord.core, htm], ?_⟩
    rw [handleOf_order ho]
    exact hv.lookup_of_order ho
  next => simp at hg

theorem submit_spec (prep : SubmitOrderRequest) :
    Keeps H s (s.submit H prep).engine ∧ ∃ o, Dropped s.orders.order o ∧
      (((s.submit H prep).error ≠ .ok ∧ (s.submit H prep).engine.orders.order = o ∧ (s.submit H prep).updates = []) ∨
        ((s.submit H prep).error = .ok ∧ submitError prep = .ok ∧
          Admitted s.orders prep (s.submit H prep).handle o ∧
          (s.submit H prep).engine.orders.order =
            update o (s.submit H prep).handle.slot (some (freshRecord prep (s.submit H prep).handle.generation)) ∧
          (s.submit H prep).updates = [emitOrder .submitted (s.submit H prep).handle
            (freshRecord prep (s.submit H prep).handle.generation)])) := by
  obtain ⟨error, handle, t', o, he, hval, hfrm, hd, hcs⟩ := insert_spec hv prep
  unfold submit
  by_cases hsub : submitError prep = .ok
  · simp only [hsub, ne_eq, not_true_eq_false, if_false, he]
    rcases hcs with ⟨hne, ho⟩ | ⟨rfl, hadm, ho⟩
    · split
      next heq => cases heq; exact absurd rfl hne
      next heq => cases heq; exact ⟨⟨hval, hfrm, rfl⟩, o, hd, .inl ⟨hne, ho, rfl⟩⟩
    · refine ⟨⟨hval, hfrm, rfl⟩, o, hd, .inr ⟨rfl, trivial, hadm, ho, ?_⟩⟩
      have hsl : t'.order handle.slot = some (freshRecord prep handle.generation) := by
        rw [ho, update_self]
      obtain ⟨_, _, hco⟩ := order_eq_some hsl
      rw [hco]
      rfl
  · simp only [ne_eq, hsub, not_false_eq_true, if_true]
    exact ⟨Keeps.refl hv, _, Dropped.refl _, .inl ⟨trivial, rfl, trivial⟩⟩

end

theorem observeTerminal_relinked : Relinked s.orders (s.observeTerminal handle).orders := by
  unfold observeTerminal
  split
  next => exact Relinked.refl
  split
  next => exact markTerminal_relinked _ _
  next => exact Relinked.refl

section

variable (hv : s.orders.Valid H)

include hv

theorem observeTerminal_keeps (handle : OrderHandle) : Keeps H s (s.observeTerminal handle) :=
  ⟨hv.relinked s.observeTerminal_relinked, s.observeTerminal_relinked.framed, s.observeTerminal_fillDedup⟩

theorem settle_spec (ho : s.orders.order slot = some r) (status : OrderStatus)
    (type : UpdateType) : Rewrote H s slot r (settled r status) (s.settle slot status type) := by
  obtain ⟨_, _, hco⟩ := order_eq_some ho
  have hset : SameOrder r (settled (s.orders.record slot) status) := by
    rw [hco]; exact ⟨rfl, rfl, rfl, rfl, rfl⟩
  obtain ⟨hk, hord⟩ := setRecord_keeps hv ho hset
  refine ⟨rfl, hk.trans (observeTerminal_keeps hk.valid _), ?_, ?_, .inr (by simp [settle])⟩
  · refine observeTerminal_relinked.order.trans (hord.trans ?_)
    rw [hco]
    rfl
  · intro u hu
    simp only [settle, mem_singleton] at hu
    exact ⟨type, by rw [hu, hco]; rfl⟩

theorem rejectLocal_spec (handle : OrderHandle) :
    ((s.rejectLocal handle).error ≠ .ok ∧ (s.rejectLocal handle).engine = s ∧ (s.rejectLocal handle).updates = []) ∨
      ∃ r, s.orders.liveOrder handle = some r ∧ r.status = .pendingSubmit ∧ r.inflight = .submit ∧
        Rewrote H s handle.slot r (settled r .rejected) (s.rejectLocal handle) := by
  unfold rejectLocal
  cases hl : s.orders.lookup handle with
  | none => exact .inl ⟨by simp, rfl, rfl⟩
  | some slot =>
    dsimp only
    split
    next => exact .inl ⟨by simp, rfl, rfl⟩
    next hc =>
    obtain ⟨rfl, r, hr⟩ := lookup_iff.mp hl
    obtain ⟨_, _, ho, _⟩ := liveOrder_eq_some.mp hr
    obtain ⟨_, _, hco⟩ := order_eq_some ho
    simp only [not_or, not_not, ne_eq] at hc
    exact .inr ⟨r, hr, by rw [hco]; exact hc.1, by rw [hco]; exact hc.2, settle_spec hv ho _ _⟩

theorem expireOneForRetirement_spec (inst : InstrumentId) :
    ((s.expireOneForRetirement inst).error ≠ .ok ∧
        (s.expireOneForRetirement inst).engine = s ∧
        (s.expireOneForRetirement inst).updates = []) ∨
      ∃ slot r, s.orders.order slot = some r ∧ r.request.instrumentId = inst ∧
        ¬isTerminal r.status ∧
        Rewrote H s slot r (settled r .expired) (s.expireOneForRetirement inst) := by
  unfold expireOneForRetirement
  split
  next => exact .inl ⟨by simp, rfl, rfl⟩
  dsimp only
  split
  next => exact .inl ⟨by simp, rfl, rfl⟩
  next hg =>
  obtain ⟨slot, r, ho, hinst, htm, hl⟩ := findNonTerminal_spec hv hg
  rw [hl]
  obtain ⟨_, _, hco⟩ := order_eq_some ho
  dsimp only
  rw [if_neg (by rw [← isTerminal_core, ← hco]; exact htm)]
  exact .inr ⟨slot, r, ho, hinst, htm, settle_spec hv ho _ _⟩

end

variable {prep : SubmitOrderRequest}

theorem submit_liveOrder (hv : s.orders.Valid H) (hok : (s.submit H prep).error = .ok) :
    (s.submit H prep).engine.orders.Valid H ∧
      (s.submit H prep).engine.orders.liveOrder (s.submit H prep).handle =
        some (freshRecord prep (s.submit H prep).handle.generation) := by
  obtain ⟨hk, _, _, ⟨hne, _⟩ | ⟨_, _, hadm, hord, _⟩⟩ := submit_spec hv prep
  · exact absurd hok hne
  · refine ⟨hk.valid, liveOrder_eq_some.mpr ⟨hadm.reserved, hadm.generation, ?_, rfl⟩⟩
    rw [hord, update_self]

theorem rejectLocal_submitted (hv : s.orders.Valid H) (hok : (s.submit H prep).error = .ok) :
    (s.submit H prep).engine.rejectLocal (s.submit H prep).handle =
      (s.submit H prep).engine.settle (s.submit H prep).handle.slot .rejected .rejected :=
  rejectLocal_eq (submit_liveOrder hv hok).2 rfl rfl

end StateEngine

namespace OrderTable

variable {H : OrderHashes} {t : OrderTable} {sub : SubmitOrderRequest}

/-- The oldest terminal order is still in its slot and may give it up. -/
structure Reclaimable (t : OrderTable) : Prop where
  listed : t.terminalHead.slot ≠ kMissing
  bound : t.terminalHead.slot < t.records.length
  occupied : (t.record t.terminalHead.slot).occupied
  inTerminal : (t.record t.terminalHead.slot).inTerminal
  generation : (t.record t.terminalHead.slot).generation = t.terminalHead.generation
  terminal : isTerminal (t.record t.terminalHead.slot).status
  idle : (t.record t.terminalHead.slot).inflight = .none

theorem reclaimOldestTerminal_ok_iff (hv : Valid H t) : (t.reclaimOldestTerminal H).1 = .ok ↔ Reclaimable t := by
  constructor
  · intro hok
    unfold reclaimOldestTerminal at hok
    split at hok
    next => cases hok
    next hc =>
    dsimp only at hok
    split at hok
    next => cases hok
    next hr =>
    simp only [not_or, not_le] at hc
    simp only [Bool.or_eq_true, Bool.not_eq_true', decide_eq_true_eq, not_or, Bool.not_eq_false, not_not] at hr
    obtain ⟨⟨⟨⟨hocc, hin⟩, hgen⟩, htm⟩, hid⟩ := hr
    exact ⟨hc.1, hc.2, hocc, hin, hgen, htm, hid⟩
  · intro h
    have ho := order_of_occupied h.bound h.occupied
    obtain ⟨t', he, _⟩ := erase_spec (H := H) (hv.lookup_of_order ho)
    unfold reclaimOldestTerminal
    rw [if_neg (by simp [h.listed, h.bound])]
    rw [if_neg (by simp [h.occupied, h.inTerminal, h.generation, h.terminal, h.idle])]
    exact congrArg Prod.fst he

/-- The table can take the order: its keys are new and there is, or can be made, a free slot. -/
structure CanInsert (t : OrderTable) (submitted : SubmitOrderRequest) : Prop where
  sequencePos : submitted.order.token.sequence ≠ 0
  clientValid : validId submitted.order.clientOrderId
  quantityPos : 0 < submitted.order.quantity.value
  freshToken : ∀ {slot r}, t.order slot = some r → r.request.token ≠ submitted.order.token
  freshClient : ∀ {slot r}, t.order slot = some r → r.request.clientOrderId ≠ submitted.order.clientOrderId
  slot : (∃ slot < t.records.length, t.order slot = none) ∨ Reclaimable t

theorem Valid.slot_of_insert (hv : Valid H t) (hok : (t.insert H sub).1 = .ok) :
    (∃ slot < t.records.length, t.order slot = none) ∨ Reclaimable t := by
  unfold insert at hok
  dsimp only at hok
  split at hok
  next => cases hok
  split at hok
  next => cases hok
  split at hok
  next =>
    right
    rw [← reclaimOldestTerminal_ok_iff hv]
    split at hok
    next he => rw [he]
    next => cases hok
  next hne =>
    obtain ⟨slot, hmem⟩ := exists_mem_of_ne_nil _ hne
    exact .inl ⟨slot, (hv.freeIff slot).mp hmem⟩

theorem CanInsert.lookup_token (h : CanInsert t sub) (hv : Valid H t) :
    ProbeMap.lookup H.token t.byToken sub.order.token = none := by
  refine eq_none_iff_forall_ne_some.mpr fun handle hl => ?_
  obtain ⟨r, ho, hk, _⟩ := (hv.token.agrees _ _).mp hl
  exact h.freshToken ho (some.inj hk)

theorem CanInsert.lookup_client (h : CanInsert t sub) (hv : Valid H t) :
    ProbeMap.lookup H.client t.byClient sub.order.clientOrderId = none := by
  refine eq_none_iff_forall_ne_some.mpr fun handle hl => ?_
  obtain ⟨r, ho, hk, _⟩ := (hv.client.agrees _ _).mp hl
  exact h.freshClient ho (some.inj hk)

theorem CanInsert.insert_ok (h : CanInsert t sub) (hv : Valid H t) : (t.insert H sub).1 = .ok := by
  have htok := h.lookup_token hv
  have hcl := h.lookup_client hv
  unfold insert
  rw [if_neg (by simp [h.sequencePos, h.clientValid, Int.not_le.mpr h.quantityPos]), if_neg (by simp [htok, hcl])]
  split
  next hfe =>
    rcases h.slot with ⟨slot, hb, hno⟩ | hre
    · have hmem := (hv.freeIff slot).mpr ⟨hb, hno⟩
      simp [hfe] at hmem
    · have hok := (reclaimOldestTerminal_ok_iff hv).mpr hre
      rcases reclaimOldestTerminal_spec hv with he | ⟨t₁, slot, r, he, ho, _, _, her⟩
      · rw [he] at hok
        cases hok
      · obtain ⟨hb, hocc, _⟩ := order_eq_some ho
        rw [he]
        obtain ⟨t', hocc', _⟩ := occupy_spec (hv.erased hb hocc her) her.freeSlots
          (by rw [her.byToken, hv.token.sound.lookup_remove, htok, ite_self])
          (by rw [her.byClient, hv.client.sound.lookup_remove, hcl, ite_self]) h.sequencePos
        exact congrArg Prod.fst hocc'
  next hne =>
    obtain ⟨slot, rest, hfe⟩ := exists_cons_of_ne_nil hne
    obtain ⟨t', hocc, _⟩ := occupy_spec hv hfe htok hcl h.sequencePos
    exact congrArg Prod.fst hocc

theorem insert_ok_iff (hv : Valid H t) : (t.insert H sub).1 = .ok ↔ CanInsert t sub := by
  refine ⟨fun hok => ?_, fun h => h.insert_ok hv⟩
  have hsl := hv.slot_of_insert hok
  obtain ⟨error, handle, t', o, he, _, _, _, ⟨hne, _⟩ | ⟨_, hadm, _⟩⟩ := insert_spec hv sub
  · rw [he] at hok
    exact absurd hok hne
  · exact ⟨hadm.sequencePos, hadm.clientValid, hadm.quantityPos, hadm.freshToken, hadm.freshClient, hsl⟩

end OrderTable

theorem StateEngine.submit_ok_iff {H : OrderHashes} {s : StateEngine} (hv : s.orders.Valid H) :
    (s.submit H prep).error = .ok ↔
      submitError prep = .ok ∧ s.orders.CanInsert prep := by
  unfold submit
  by_cases hsub : submitError prep = .ok
  · rw [if_neg (not_not.mpr hsub), ← insert_ok_iff hv]
    split
    next he => simp [he, hsub]
    next he => simp [he, hsub]
  · rw [if_pos hsub]
    exact iff_of_false hsub fun h => hsub h.1

end SelfQuant.Oms
