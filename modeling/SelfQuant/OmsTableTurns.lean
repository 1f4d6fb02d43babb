import SelfQuant.OmsLifeCycle
import SelfQuant.OmsTableEvict

namespace SelfQuant.Oms

open OrderTable StateEngine

variable {H : OrderHashes} {s : StateEngine} {handle : OrderHandle} {slot : Nat}
  {r r' r'' : OrderRecord} {event : VenueEvent} {cause : Cause} {ops : List EngineOp}

/-- `r'` is the finished order `r` after late fills: they move quantity from what remains to what
is filled and change neither the status nor the action in flight. -/
structure Finished (r r' : OrderRecord) : Prop where
  status : r'.status = r.status
  inflight : r'.inflight = .none
  total : r'.cumulativeQuantity + r'.remainingQuantity = r.cumulativeQuantity + r.remainingQuantity
  grows : r.cumulativeQuantity ≤ r'.cumulativeQuantity

theorem Finished.refl (hi : r.inflight = .none) : Finished r r := ⟨rfl, hi, rfl, le_refl _⟩

theorem Finished.trans (h : Finished r r') (h' : Finished r' r'') : Finished r r'' where
  status := h'.status.trans h.status
  inflight := h'.inflight
  total := h'.total.trans h.total
  grows := le_trans h.grows h'.grows

section

variable (ht : isTerminal r.status) (hi : r.inflight = .none)

include ht hi

theorem Finished.reacted (hr : Reacted r event r') : Finished r r' := by
  cases hr with
  | same => exact .refl hi
  | newAck =>
    have hstt : ackStatus r = r.status := by
      unfold ackStatus
      rw [if_neg]
      rintro (he | he) <;> simp [he, isTerminal] at ht
    have hinfl : ackInflight r = .none := by
      unfold ackInflight
      split
      next => rfl
      next => exact hi
    exact ⟨hstt, hinfl, rfl, le_refl _⟩
  | newReject _ hs => simp [hs, isTerminal] at ht
  | cancelAck _ hc | cancelReject _ hc => simp [hi] at hc
  | expire _ hs => exact absurd ht hs
  | reconcileOpen _ _ hs => exact absurd ⟨ht, fun he => by simp [he, isTerminal] at ht⟩ hs
  | reconcileTerminal _ _ _ hs => exact absurd ht hs

theorem Finished.fill (hq : 0 < event.fillQuantity.value) : Finished r (filledRecord r event) := by
  have hrs : ¬(r.status = .opened ∨ r.status = .partiallyFilled ∨ r.status = .unknown) := by
    rintro (he | he | he) <;> simp [he, isTerminal] at ht
  obtain ⟨hs, hi'⟩ := filledRecord_not_resting hrs
  refine ⟨hs, hi'.trans hi, ?_, ?_⟩
  · simp only [filledRecord]
    omega
  · simp only [filledRecord]
    omega

theorem RecordStep.finished (hs : RecordStep cause r r') : Finished r r' := by
  cases hs with
  | bind => exact ⟨rfl, hi, rfl, le_refl _⟩
  | react _ hr => exact .reacted ht hi hr
  | fill _ hq => exact .fill ht hi hq
  | reject hs => simp [hs, isTerminal] at ht
  | expire hs | cancel hs => exact absurd ht hs

theorem RecordSteps.finished (hs : RecordSteps cause r r') : Finished r r' := by
  refine keep (P := Finished r) (fun hst hp => ?_) hs (.refl hi)
  exact hp.trans (hst.finished (by rw [hp.status]; exact ht) hp.inflight)

end

theorem RecordSteps.quantities (hs : RecordSteps cause r r')
    (hc : ∀ event slot, cause = .event event slot → isFill event.type = false) :
    r'.cumulativeQuantity = r.cumulativeQuantity ∧ r'.remainingQuantity = r.remainingQuantity := by
  refine keep (P := fun x => x.cumulativeQuantity = r.cumulativeQuantity ∧
    x.remainingQuantity = r.remainingQuantity) (fun hst hp => ?_) hs ⟨rfl, rfl⟩
  cases hst with
  | bind | reject | expire | cancel => exact hp
  | react _ hr => exact ⟨hr.quantities.1.trans hp.1, hr.quantities.2.1.trans hp.2⟩
  | fill ht => simp [hc _ _ rfl] at ht

namespace StateEngine

def performs (H : OrderHashes) (s : StateEngine) : List EngineOp → StateEngine
  | [] => s
  | op :: ops => performs H (s.perform H op).engine ops

end StateEngine

inductive Retains (H : OrderHashes) (handle : OrderHandle) : StateEngine → List EngineOp → Prop
  | nil (s : StateEngine) : Retains H handle s []
  | cons {s : StateEngine} {op : EngineOp} {ops : List EngineOp}
      (hlive : ((s.perform H op).engine.orders.lookup handle).isSome)
      (h : Retains H handle (s.perform H op).engine ops) : Retains H handle s (op :: ops)

def EngineOp.NoFill : EngineOp → Prop
  | .apply event => isFill event.type = false
  | _ => True

theorem finished_performs (h : EngineReach H s) (hr : s.orders.liveOrder handle = some r)
    (ht : isTerminal r.status) (hk : Retains H handle s ops) :
    ∃ r', (s.performs H ops).orders.liveOrder handle = some r' ∧ Finished r r' ∧
      ((∀ op ∈ ops, op.NoFill) → r'.cumulativeQuantity = r.cumulativeQuantity ∧
        r'.remainingQuantity = r.remainingQuantity) := by
  induction hk generalizing r with
  | nil s =>
    obtain ⟨_, _, ho, _⟩ := liveOrder_eq_some.mp hr
    exact ⟨r, hr, .refl ((h.sane ho).terminal ht), fun _ => ⟨rfl, rfl⟩⟩
  | @cons s op ops hlv _ ih =>
    obtain ⟨r₁, hr₁⟩ := lookup_isSome_iff.mp hlv
    have hst : Finished r r₁ ∧ (op.NoFill → r₁.cumulativeQuantity = r.cumulativeQuantity ∧
        r₁.remainingQuantity = r.remainingQuantity) := by
      obtain ⟨_, _, ho, _⟩ := liveOrder_eq_some.mp hr
      have hi := (h.sane ho).terminal ht
      rcases perform_live h.valid op hr₁ with ⟨r₀, hr₀, hcs⟩ | ⟨_, hno, _⟩
      · rw [hr] at hr₀
        cases hr₀
        rcases hcs with rfl | ⟨hs, _⟩
        · exact ⟨.refl hi, fun _ => ⟨rfl, rfl⟩⟩
        · refine ⟨hs.finished ht hi, fun hn => hs.quantities fun event slot hc => ?_⟩
          obtain ⟨rfl, _⟩ := EngineOp.cause_eq_event hc
          exact hn
      · rw [hr] at hno
        cases hno
    obtain ⟨r', hr', hfin, hqt⟩ := ih (h.next op) hr₁ (by rw [hst.1.status]; exact ht)
    refine ⟨r', hr', hst.1.trans hfin, fun hn => ?_⟩
    obtain ⟨hc, hm⟩ := hst.2 (hn op (by simp))
    obtain ⟨hc', hm'⟩ := hqt fun op hop => hn op (by simp [hop])
    exact ⟨hc'.trans hc, hm'.trans hm⟩

theorem terminal_absorbs (h : EngineReach H s) (hl : s.orders.lookup handle = some slot)
    (ht : isTerminal (s.orders.record slot).status) (hk : Retains H handle s ops) :
    let s' := s.performs H ops
    s'.orders.lookup handle = some slot ∧ Finished (s.orders.record slot) (s'.orders.record slot) ∧
      ((∀ op ∈ ops, op.NoFill) →
        (s'.orders.record slot).cumulativeQuantity = (s.orders.record slot).cumulativeQuantity ∧
        (s'.orders.record slot).remainingQuantity = (s.orders.record slot).remainingQuantity) := by
  obtain ⟨he, _, hb, hocc⟩ := lookup_eq_some hl
  have hr : s.orders.liveOrder handle = some (s.orders.record slot).core := by
    rw [liveOrder, hl, Option.bind_some, order_of_occupied hb hocc]
  obtain ⟨r', hr', hfin, hquiet⟩ := finished_performs h hr ht hk
  have hslot : handle.slot = slot := by rw [he]
  have hl' : (s.performs H ops).orders.lookup handle = some slot := lookup_iff.mpr ⟨hslot.symm, r', hr'⟩
  obtain ⟨_, _, ho', _⟩ := liveOrder_eq_some.mp hr'
  rw [hslot] at ho'
  obtain ⟨_, _, rfl⟩ := order_eq_some ho'
  exact ⟨hl', ⟨hfin.status, hfin.inflight, hfin.total, hfin.grows⟩, hquiet⟩

def sampleCanceled : StateEngine := sampleEngine.performs sourceHashes
  [.submit sampleOrder, .requestCancel ⟨1, 1, 1⟩, .apply { type := .cancelAck, token := ⟨1, 1, 1⟩ }]

def sampleLate : List EngineOp :=
  [.apply { type := .fill, token := ⟨1, 1, 1⟩, tradeId := ⟨[84]⟩, fillQuantity := ⟨4, 0⟩
            fillPrice := ⟨5, 0⟩ },
   .requestCancel ⟨1, 1, 1⟩]

theorem terminal_absorbs_sample :
    ((sampleCanceled.performs sourceHashes sampleLate).orders.record 0).status = .canceled ∧
      ((sampleCanceled.performs sourceHashes sampleLate).orders.record 0).cumulativeQuantity = 4 := by
  have hreach : EngineReach sourceHashes sampleCanceled := ((sampleEngine_reach.next _).next _).next _
  have hk : Retains sourceHashes ⟨0, 0, 1⟩ sampleCanceled sampleLate :=
    .cons (by decide +kernel) (.cons (by decide +kernel) (.nil _))
  have hl : sampleCanceled.orders.lookup ⟨0, 0, 1⟩ = some 0 := by decide +kernel
  obtain ⟨_, hfin, _⟩ := terminal_absorbs hreach hl (by decide +kernel) hk
  exact ⟨hfin.status.trans (by decide +kernel), by decide +kernel⟩

def Later (r r' : OrderRecord) : Prop :=
  r'.request = r.request ∧ (r.venueOrderId.length ≠ 0 → r'.venueOrderId = r.venueOrderId) ∧
    r.cumulativeQuantity ≤ r'.cumulativeQuantity

theorem RecordStep.later (hs : RecordStep cause r' r'') (h : Later r r') : Later r r'' := by
  cases hs with
  | bind hno => exact ⟨h.1, fun hne => absurd (h.2.1 hne ▸ hno) hne, h.2.2⟩
  | react _ hre => cases hre <;> exact h
  | fill _ hq => exact ⟨h.1, h.2.1, h.2.2.trans (Int.le_add_of_nonneg_right hq.le)⟩
  | reject | expire | cancel => exact h

/-- A handle that shows an order later on shows it for as long as it shows any. -/
theorem retained_order_later (h : EngineReach H s) (hr : s.orders.liveOrder handle = some r') (hl : Later r r')
    (hk : Retains H handle s ops) :
    ∃ r', (s.performs H ops).orders.liveOrder handle = some r' ∧ Later r r' := by
  induction hk generalizing r' with
  | nil => exact ⟨r', hr, hl⟩
  | cons hlive _ ih =>
    obtain ⟨r₁, hr₁⟩ := lookup_isSome_iff.mp hlive
    refine ih (h.next _) hr₁ ?_
    obtain ⟨r₀, hr₀, hsteps⟩ | ⟨-, hno, -⟩ := perform_live h.valid _ hr₁
    · cases hr.symm.trans hr₀
      obtain rfl | ⟨hs, -⟩ := hsteps
      · exact hl
      · exact RecordSteps.keep RecordStep.later hs hl
    · cases hr.symm.trans hno

theorem retained_order_canceled : ∃ r', (sampleCanceled.performs sourceHashes sampleLate).orders.liveOrder ⟨0, 0, 1⟩ =
    some r' ∧ Later (sampleCanceled.orders.record 0).core r' :=
  retained_order_later (((sampleEngine_reach.next _).next _).next _) (by decide +kernel) ⟨rfl, fun _ => rfl, le_rfl⟩
    (.cons (by decide +kernel) (.cons (by decide +kernel) (.nil _)))

open Probe

variable {s' : StateEngine} {slots slots' : List Nat}

theorem Reacted.links (h : Reacted r event r') : r'.inTerminal = r.inTerminal ∧
    r'.terminalNext = r.terminalNext ∧ r'.terminalPrev = r.terminalPrev := by
  cases h <;> exact ⟨rfl, rfl, rfl⟩

theorem Reacted.rewritten (h : Reacted r event r') (hi : isTerminal r.status → r.inflight = .none) :
    Rewritten r r' where
  request := h.sameOrder.request
  venueOrderId := h.sameOrder.venueOrderId
  generation := h.sameOrder.generation
  occupied := h.sameOrder.occupied
  inTerminal := h.links.1
  terminalNext := h.links.2.1
  terminalPrev := h.links.2.2
  absorbs ht := by rw [(Finished.reacted ht (hi ht) h).status]; exact ht

theorem filledRecord_rewritten (hi : isTerminal r.status → r.inflight = .none)
    (hq : 0 < event.fillQuantity.value) : Rewritten r (filledRecord r event) where
  request := rfl
  venueOrderId := rfl
  generation := rfl
  occupied := rfl
  inTerminal := rfl
  terminalNext := rfl
  terminalPrev := rfl
  absorbs ht := by rw [(Finished.fill ht (hi ht) hq).status]; exact ht

theorem react_unobserved {emit : Option UpdateType} (h : react r event = .accept r' false emit)
    (ht : isTerminal r'.status) : isTerminal r.status := by
  unfold react at h
  all_goals repeat' split at h
  all_goals cases h
  all_goals first | exact ht | simp [settled, isTerminal] at ht

theorem resolve_links (H : OrderHashes) (t : OrderTable) (event : VenueEvent) :
    (resolve H t event).2.terminalHead = t.terminalHead ∧
      (resolve H t event).2.terminalTail = t.terminalTail ∧
      (resolve H t event).2.size = t.size := by
  unfold resolve
  split
  next => exact ⟨rfl, rfl, rfl⟩
  next => exact ⟨rfl, rfl, rfl⟩
  next slot _ =>
  split
  next =>
    have h := bindVenueId_links (H := H) t (t.handleOf slot) event.venueOrderId
    split <;> rename_i he <;> rw [he] at h <;> exact h
  next => exact ⟨rfl, rfl, rfl⟩

namespace StateEngine

/-- The engine's table is queued and nothing is in flight for its finished orders. -/
structure Turning (H : OrderHashes) (s : StateEngine) (slots : List Nat) : Prop where
  queued : Queued H s.orders slots
  idle : ∀ {slot r}, s.orders.order slot = some r → isTerminal r.status → r.inflight = .none

theorem Turning.idle_record (h : Turning H s slots) (hb : slot < s.orders.records.length)
    (hocc : (s.orders.record slot).occupied) (ht : isTerminal (s.orders.record slot).status) :
    (s.orders.record slot).inflight = .none := by
  have hid := h.idle (order_of_occupied hb hocc)
  exact hid ht

theorem observeTerminal_orders : (s.observeTerminal handle).orders = s.orders.observed handle := by
  unfold observeTerminal observed
  cases s.orders.lookup handle with
  | none => rfl
  | some slot =>
    dsimp only
    split <;> rfl

section

variable (h : Turning H s slots)

include h

section

variable (hb : slot < s.orders.records.length) (hocc : (s.orders.record slot).occupied)

include hb hocc

theorem Turning.settle {status : OrderStatus} (ht : isTerminal status) (type : UpdateType) :
    ∃ slots', Turned H s.orders slots (s.settle slot status type).engine.orders slots' := by
  unfold StateEngine.settle
  rw [observeTerminal_orders]
  exact h.queued.rewrite hb hocc ⟨rfl, rfl, rfl, rfl, rfl, rfl, rfl, fun _ => ht⟩

theorem Turning.applyFill (event : VenueEvent) :
    ∃ slots', Turned H s.orders slots (s.applyFill H slot event).engine.orders slots' := by
  have hrf : ∃ slots', Turned H s.orders slots s.orders slots' := ⟨slots, .refl h.queued⟩
  unfold StateEngine.applyFill
  dsimp only
  split
  next => exact hrf
  split
  next => exact hrf
  next hpos =>
  split
  next => exact hrf
  next =>
    split
    next => exact hrf
    split
    next => exact hrf
    split
    next => exact hrf
    dsimp only [recordFill]
    rw [observeTerminal_orders]
    exact h.queued.rewrite hb hocc (filledRecord_rewritten (h.idle_record hb hocc) (by omega))
  next => exact hrf

theorem Turning.applyReaction (event : VenueEvent) : ∃ slots', Turned H s.orders slots
      (s.applyReaction slot (react (s.orders.record slot) event)).engine.orders slots' := by
  cases hr : react (s.orders.record slot) event with
  | refuse error => exact ⟨slots, .refl h.queued⟩
  | accept r' observe emit =>
    have hw := (react_accept hr).rewritten (h.idle_record hb hocc)
    cases observe with
    | true =>
      dsimp only [StateEngine.applyReaction]
      rw [if_pos rfl, observeTerminal_orders]
      exact h.queued.rewrite hb hocc hw
    | false =>
      have hsm := sameSlots_setRecord hb hw
      refine ⟨slots, .of_quiet hsm.length (fun _ hs => h.queued.stays hsm hs) ?_⟩
      exact h.queued.setRecord hb hocc hw fun ht => h.queued.complete slot hb hocc (react_unobserved hr ht)

theorem Turning.applyAt (event : VenueEvent) :
    ∃ slots', Turned H s.orders slots (s.applyAt H slot event).engine.orders slots' := by
  cases ht : isFill event.type with
  | true => rw [applyAt_fill ht]; exact h.applyFill hb hocc event
  | false => rw [applyAt_react ht]; exact h.applyReaction hb hocc event

end

theorem Turning.resolved {s₁ : StateEngine} {r₁ : OrderRecord} (hr : ResolvesTo H s event slot r s₁ r₁) :
    Turning H s₁ slots ∧ SameSlots s.orders s₁.orders := by
  have hlinks := resolve_links H s.orders event
  rw [hr.result] at hlinks
  have hid := hr.identified
  have haft := hr.resolved.order hr.before
  cases hr.resolved with
  | known => exact ⟨h, SameSlots.refl⟩
  | bound hn hb =>
    refine ⟨⟨h.queued.bound (hid.venueValid hn.1) hb hr.before hlinks.1 hlinks.2.1 hlinks.2.2,
      fun {s x} hx => ?_⟩, hb.sameSlots⟩
    rw [haft] at hx
    obtain ⟨-, hx⟩ | ⟨-, hx⟩ := update_eq_some.mp hx
    · cases hx
      have hidle := h.idle hr.before
      exact hidle
    · exact h.idle hx

theorem Turning.apply : ∃ slots', Turned H s.orders slots (s.apply H event).engine.orders slots' := by
  rcases apply_spec h.queued.valid event with ⟨_, he, _⟩ | ⟨slot, r, s₁, r₁, hr, _⟩
  · rw [he]
    exact ⟨slots, .refl h.queued⟩
  · obtain ⟨h₁, hsm⟩ := h.resolved hr
    obtain ⟨hb, hocc, _⟩ := order_eq_some hr.after
    obtain ⟨slots', htn⟩ := h₁.applyAt hb hocc event
    rw [hr.apply]
    exact ⟨slots', htn.after_sameSlots hsm⟩

theorem Turning.perform (op : EngineOp) :
    ∃ slots', Turned H s.orders slots (s.perform H op).engine.orders slots' := by
  have hrf : ∃ slots', Turned H s.orders slots s.orders slots' := ⟨slots, .refl h.queued⟩
  cases op with
  | submit prepared =>
    have hid : ∀ s' ∈ slots, (s.orders.record s').inflight = .none := fun s' hs =>
      h.idle_record (h.queued.list.lt hs) (h.queued.list.finished s' hs).1 (h.queued.list.finished s' hs).2
    have hins := h.queued.insert hid prepared
    simp only [StateEngine.perform, StateEngine.submit]
    split
    next => exact hrf
    next => split <;> rename_i he <;> rw [he] at hins <;> exact hins
  | rejectLocal handle =>
    simp only [StateEngine.perform, StateEngine.rejectLocal]
    split
    next => exact hrf
    next slot hl =>
    obtain ⟨_, _, hb, hocc⟩ := lookup_eq_some hl
    split
    next => exact hrf
    next => exact h.settle hb hocc rfl _
  | requestCancel token =>
    simp only [StateEngine.perform, StateEngine.requestCancel]
    split
    next => exact hrf
    next slot hf =>
    obtain ⟨r, ho, _⟩ := h.queued.valid.findToken_iff.mp hf
    obtain ⟨hb, hocc, _⟩ := order_eq_some ho
    split
    next => exact hrf
    have hw : Rewritten (s.orders.record slot) { s.orders.record slot with inflight := .cancel } :=
      ⟨rfl, rfl, rfl, rfl, rfl, rfl, rfl, id⟩
    have hsm := sameSlots_setRecord hb hw
    refine ⟨slots, .of_quiet hsm.length (fun _ hs => h.queued.stays hsm hs) ?_⟩
    exact h.queued.setRecord hb hocc hw (h.queued.complete slot hb hocc)
  | expireOneForRetirement instrumentId =>
    simp only [StateEngine.perform, StateEngine.expireOneForRetirement]
    split
    next => exact hrf
    split
    next => exact hrf
    split
    next => exact hrf
    next slot hl =>
    obtain ⟨_, _, hb, hocc⟩ := lookup_eq_some hl
    split
    next => exact hrf
    next => exact h.settle hb hocc rfl _
  | apply => exact h.apply
  | erase handle =>
    simp only [StateEngine.perform]
    cases hl : s.orders.lookup handle with
    | none =>
      rw [show s.orders.erase H handle = (.staleHandle, s.orders) by simp [erase, hl]]
      exact hrf
    | some slot => exact ⟨_, (h.queued.erased hl).turned⟩
  | eraseTerminalByInstrument instrumentId =>
    obtain ⟨slots', hthin⟩ := h.queued.eraseTerminalByInstrument instrumentId
    exact ⟨slots', hthin.turned⟩

end

end StateEngine

end SelfQuant.Oms
