import SelfQuant.OmsEngineRun

namespace SelfQuant.Oms

open OrderTable

variable {H : OrderHashes} {s : StateEngine} {r r' : OrderRecord} {event : VenueEvent} {slot : Nat}

/-- The quantities, the status and the action in flight of an order fit together. -/
structure LifeCycle (r : OrderRecord) : Prop where
  quantity : r.cumulativeQuantity + r.remainingQuantity = r.request.quantity.value
  remaining : 0 ≤ r.remainingQuantity
  opened : r.status = .opened → r.cumulativeQuantity = 0
  partiallyFilled : r.status = .partiallyFilled →
    0 < r.cumulativeQuantity ∧ r.cumulativeQuantity < r.request.quantity.value
  filled : r.status = .filled → r.remainingQuantity = 0
  terminal : isTerminal r.status → r.inflight = .none
  submitting : r.inflight = .submit → r.status = .pendingSubmit
  pending : r.status = .pendingSubmit → r.inflight = .submit ∨ r.inflight = .cancel

/-- The invariant of a run: a life cycle whose fills never went below zero. -/
structure Sane (r : OrderRecord) : Prop extends LifeCycle r where
  cumulative : 0 ≤ r.cumulativeQuantity

theorem freshRecord_sane {sub : SubmitOrderRequest} {gen : Nat}
    (hq : 0 < sub.order.quantity.value) : Sane (freshRecord sub gen) := by
  constructor
  · constructor <;> simp [freshRecord, isTerminal]
    omega
  · simp [freshRecord]

theorem ackStatus_cases : (r.status ≠ .pendingSubmit ∧ ackStatus r = r.status) ∨
      (r.cumulativeQuantity = 0 ∧ ackStatus r = .opened) ∨
      (r.remainingQuantity = 0 ∧ ackStatus r = .filled) ∨
      (r.cumulativeQuantity ≠ 0 ∧ r.remainingQuantity ≠ 0 ∧ ackStatus r = .partiallyFilled) := by
  unfold ackStatus
  split
  next =>
    split
    next hc => exact .inr (.inl ⟨hc, rfl⟩)
    next hc =>
    split
    next hr => exact .inr (.inr (.inl ⟨hr, rfl⟩))
    next hr => exact .inr (.inr (.inr ⟨hc, hr, rfl⟩))
  next hp => exact .inl ⟨fun he => hp (.inl he), rfl⟩

theorem filledRecord_resting (h : r.status = .opened ∨ r.status = .partiallyFilled ∨ r.status = .unknown) :
    ((filledRecord r event).remainingQuantity = 0 ∧ (filledRecord r event).status = .filled ∧
        (filledRecord r event).inflight = .none) ∨
      ((filledRecord r event).remainingQuantity ≠ 0 ∧
        (filledRecord r event).status = .partiallyFilled ∧
        (filledRecord r event).inflight = r.inflight) := by
  by_cases hz : r.remainingQuantity - event.fillQuantity.value = 0
  · exact .inl ⟨hz, by simp [filledRecord, h, hz], by simp [filledRecord, h, hz]⟩
  · exact .inr ⟨hz, by simp [filledRecord, h, hz], by simp [filledRecord, h, hz]⟩

theorem filledRecord_not_resting (h : ¬(r.status = .opened ∨ r.status = .partiallyFilled ∨ r.status = .unknown)) :
    (filledRecord r event).status = r.status ∧ (filledRecord r event).inflight = r.inflight := by
  simp [filledRecord, h]

def sampleOrder : SubmitOrderRequest where
  order := { token := ⟨1, 1, 1⟩, clientOrderId := ⟨[65]⟩, instrumentId := 7
             quantity := ⟨10, 0⟩, price := ⟨5, 0⟩ }
  routing := { venue := 1, productType := 1, catalogRevision := 1, tickSize := 1, lotSize := 1
               venueSymbol := ⟨[66]⟩ }

def sampleEngine : StateEngine := (StateEngine.create 4 4).get (by decide +kernel)

theorem sampleEngine_reach : EngineReach H sampleEngine := @EngineReach.start H 4 4 _ (Option.some_get _).symm

section

variable (h : Sane r)

include h

variable {status : OrderStatus}

theorem Sane.restate {inflight : InflightAction}
    (ho : status = .opened → r.cumulativeQuantity = 0)
    (hp : status = .partiallyFilled → 0 < r.cumulativeQuantity ∧ r.cumulativeQuantity < r.request.quantity.value)
    (hf : status = .filled → r.remainingQuantity = 0) (ht : isTerminal status → inflight = .none)
    (hs : inflight = .submit → status = .pendingSubmit)
    (hi : status = .pendingSubmit → inflight = .submit ∨ inflight = .cancel) :
    Sane { r with status := status, inflight := inflight } :=
  ⟨⟨h.quantity, h.remaining, ho, hp, hf, ht, hs, hi⟩, h.cumulative⟩

theorem Sane.settled (ht : isTerminal status)
    (hf : status = .filled → r.remainingQuantity = 0) : Sane (settled r status) := by
  refine h.restate ?_ ?_ hf (fun _ => rfl) (by simp) ?_ <;> rintro rfl <;> simp [isTerminal] at ht

theorem Sane.partly (hc : r.cumulativeQuantity ≠ 0) (hr : r.remainingQuantity ≠ 0) :
    0 < r.cumulativeQuantity ∧ r.cumulativeQuantity < r.request.quantity.value := by
  have := h.quantity
  have := h.remaining
  have := h.cumulative
  omega

theorem Sane.ack : Sane (ackRecord r) := by
  have hsub : ackInflight r ≠ .submit := by
    unfold ackInflight
    split
    next => simp
    next hc => exact fun he => hc (.inl he)
  have hke : r.inflight = .none → ackInflight r = .none := by
    intro he
    unfold ackInflight
    split
    next => rfl
    next => exact he
  unfold ackRecord
  rcases ackStatus_cases with ⟨hp, hs⟩ | ⟨hc, hs⟩ | ⟨hr, hs⟩ | ⟨hc, hr, hs⟩
  · rw [hs]
    exact h.restate h.opened h.partiallyFilled h.filled (fun ht => hke (h.terminal ht))
      (fun he => absurd he hsub) (fun he => absurd he hp)
  · rw [hs]
    exact h.restate (fun _ => hc) (by simp) (by simp) (by simp [isTerminal]) (fun he => absurd he hsub) (by simp)
  · have hno : ackInflight r = .none := by rw [ackInflight, if_pos (.inr hs)]
    rw [hs]
    exact h.restate (by simp) (by simp) (fun _ => hr) (fun _ => hno) (fun he => absurd he hsub) (by simp)
  · rw [hs]
    exact h.restate (by simp) (fun _ => h.partly hc hr) (by simp) (by simp [isTerminal])
      (fun he => absurd he hsub) (by simp)

theorem Sane.reacted (hr : Reacted r event r') : Sane r' := by
  cases hr with
  | same => exact h
  | newAck => exact h.ack
  | newReject | cancelAck | expire => exact h.settled rfl (by simp)
  | cancelReject _ hi =>
    have htm : ¬isTerminal r.status := fun ht => by simp [h.terminal ht] at hi
    refine h.restate h.opened h.partiallyFilled h.filled (fun ht => absurd ht htm) ?_ ?_
    · split
      next hp => exact fun _ => hp
      next => simp
    · intro hp
      exact .inl (if_pos hp)
  | reconcileOpen _ hrem =>
    split
    next hc => exact h.restate (fun _ => hc) (by simp) (by simp) (by simp [isTerminal]) (by simp) (by simp)
    next hc =>
    exact h.restate (by simp) (fun _ => h.partly hc hrem) (by simp) (by simp [isTerminal]) (by simp) (by simp)
  | reconcileTerminal _ he hf => exact h.settled he fun hs => by_contra fun hne => hf ⟨hs, hne⟩

theorem Sane.fill (hq : 0 < event.fillQuantity.value)
    (hr : event.fillQuantity.value ≤ r.remainingQuantity) : Sane (filledRecord r event) := by
  have hqty : (filledRecord r event).cumulativeQuantity +
      (filledRecord r event).remainingQuantity = (filledRecord r event).request.quantity.value := by
    have := h.quantity
    simp only [filledRecord]
    omega
  have hrem : 0 ≤ (filledRecord r event).remainingQuantity := by
    simp only [filledRecord]
    omega
  have hcum : 0 < (filledRecord r event).cumulativeQuantity := by
    have := h.cumulative
    simp only [filledRecord]
    omega
  refine ⟨?_, le_of_lt hcum⟩
  by_cases hrs : r.status = .opened ∨ r.status = .partiallyFilled ∨ r.status = .unknown
  · rcases filledRecord_resting hrs with ⟨hz, hs, hi⟩ | ⟨hz, hs, hi⟩
    · refine ⟨hqty, hrem, ?_, ?_, fun _ => hz, fun _ => hi, ?_, ?_⟩ <;> simp [hs, hi]
    · have hsub : r.inflight ≠ .submit := fun he => by simp [h.submitting he] at hrs
      refine ⟨hqty, hrem, ?_, fun _ => ⟨hcum, by omega⟩, ?_, ?_, ?_, ?_⟩ <;> simp [hs, hi, hsub, isTerminal]
  · obtain ⟨hs, hi⟩ := filledRecord_not_resting hrs
    simp only [not_or] at hrs
    refine ⟨hqty, hrem, ?_, ?_, ?_, ?_, ?_, ?_⟩ <;> rw [hs]
    · exact fun he => absurd he hrs.1
    · exact fun he => absurd he hrs.2.1
    · intro he
      have := h.filled he
      omega
    · rw [hi]; exact h.terminal
    · rw [hi]; exact h.submitting
    · rw [hi]; exact h.pending

end

theorem RecordStep.sane {cause : Cause} (hs : RecordStep cause r r') (h : Sane r) : Sane r' := by
  cases hs with
  | bind => exact ⟨⟨h.quantity, h.remaining, h.opened, h.partiallyFilled, h.filled, h.terminal,
      h.submitting, h.pending⟩, h.cumulative⟩
  | react _ hr => exact h.reacted hr
  | fill _ hq hr => exact h.fill hq hr
  | reject | expire => exact h.settled rfl (by simp)
  | cancel hs =>
    exact h.restate h.opened h.partiallyFilled h.filled (fun ht => absurd ht hs)
      (fun he => by cases he) (fun _ => .inr rfl)

theorem EngineReach.sane (h : EngineReach H s) (ho : s.orders.order slot = some r) : Sane r :=
  h.orders_keep (P := Sane) freshRecord_sane RecordStep.sane ho

theorem engine_lifeCycle (h : EngineReach H s) {slot : Nat} (hb : slot < s.orders.capacity)
    (ho : (s.orders.record slot).occupied) : LifeCycle (s.orders.record slot) := by
  have hl := (h.sane (order_of_occupied hb ho)).toLifeCycle
  exact ⟨hl.quantity, hl.remaining, hl.opened, hl.partiallyFilled, hl.filled, hl.terminal, hl.submitting, hl.pending⟩

theorem engine_lifeCycle_sample :
    let s := (sampleEngine.perform sourceHashes (.submit sampleOrder)).engine
    (s.orders.record 0).occupied ∧ LifeCycle (s.orders.record 0) :=
  ⟨by decide +kernel, engine_lifeCycle (sampleEngine_reach.next _) (by decide +kernel) (by decide +kernel)⟩

open StateEngine

variable {handle : OrderHandle} {cause : Cause}

def AppliesTo (H : OrderHashes) (s : StateEngine) (handle : OrderHandle) (type : VenueEventType) : EngineOp → Prop
  | .apply event => event.type = type ∧ identify H s.orders event = .ok (some handle.slot)
  | _ => False

/-- The call reports the order of the handle as resting while it can still trade. -/
def Reopens (H : OrderHashes) (s : StateEngine) (handle : OrderHandle) (op : EngineOp) : Prop :=
  AppliesTo H s handle .reconcileOpen op ∧ ∃ r, s.orders.liveOrder handle = some r ∧
    r.remainingQuantity ≠ 0 ∧ ¬isTerminal r.status

/-- A cancel of the order of the handle was requested and not rejected since, and the order
was not reopened since. -/
inductive CancelPending (H : OrderHashes) (handle : OrderHandle) : StateEngine → Prop
  | requested {s : StateEngine} {r : OrderRecord} (h : EngineReach H s)
      (hr : s.orders.liveOrder handle = some r)
      (hok : (s.requestCancel H r.request.token).error = .ok) :
      CancelPending H handle (s.requestCancel H r.request.token).engine
  | next {s : StateEngine} {op : EngineOp} (h : CancelPending H handle s)
      (hlive : ((s.perform H op).engine.orders.liveOrder handle).isSome)
      (hreject : ¬AppliesTo H s handle .cancelReject op) (hreopen : ¬Reopens H s handle op) :
      CancelPending H handle (s.perform H op).engine

def AwaitsCancel (r : OrderRecord) : Prop := r.inflight = .cancel ∨ isTerminal r.status

theorem AwaitsCancel.ack (h : AwaitsCancel r) : AwaitsCancel (ackRecord r) := by
  have hstt : (ackRecord r).status = ackStatus r := rfl
  have hinfl : (ackRecord r).inflight = ackInflight r := rfl
  unfold AwaitsCancel
  rw [hstt, hinfl]
  rcases h with hi | ht
  · by_cases hf : ackStatus r = .filled
    · exact .inr (by rw [hf]; rfl)
    · refine .inl ?_
      rw [ackInflight, if_neg (by rw [hi]; simp [hf])]
      exact hi
  · refine .inr ?_
    unfold ackStatus
    rw [if_neg]
    · exact ht
    · rintro (he | he) <;> simp [he, isTerminal] at ht

theorem AwaitsCancel.fill (h : AwaitsCancel r) : AwaitsCancel (filledRecord r event) := by
  by_cases hrs : r.status = .opened ∨ r.status = .partiallyFilled ∨ r.status = .unknown
  · rcases filledRecord_resting hrs with ⟨_, hs, _⟩ | ⟨_, _, hi⟩
    · exact .inr (by rw [hs]; rfl)
    · rcases h with hc | ht
      · exact .inl (hi.trans hc)
      · rcases hrs with he | he | he <;> simp [he, isTerminal] at ht
  · obtain ⟨hs, hi⟩ := filledRecord_not_resting hrs
    rcases h with hc | ht
    · exact .inl (hi.trans hc)
    · exact .inr (by rw [hs]; exact ht)

/-- The cause neither rejects a cancel nor reopens an order that can still trade. -/
def Harmless (cause : Cause) (r : OrderRecord) : Prop :=
  ∀ event slot, cause = .event event slot → event.type ≠ .cancelReject ∧
    (event.type = .reconcileOpen → r.remainingQuantity = 0 ∨ isTerminal r.status)

theorem harmless_command : Harmless .command r := by
  intro event slot he
  cases he

theorem Harmless.not_reopened (hh : Harmless (.event event slot) r)
    (ht : event.type = .reconcileOpen) (hrem : r.remainingQuantity ≠ 0)
    (hs : ¬(isTerminal r.status ∧ r.status ≠ .unknown)) : False := by
  rcases (hh event slot rfl).2 ht with hz | htm
  · exact hrem hz
  · exact hs ⟨htm, by rintro he; simp [he, isTerminal] at htm⟩

theorem AwaitsCancel.reacted (h : AwaitsCancel r) (hh : Harmless (.event event slot) r)
    (hr : Reacted r event r') : AwaitsCancel r' := by
  cases hr with
  | same => exact h
  | newAck => exact h.ack
  | newReject | cancelAck | expire => exact .inr rfl
  | cancelReject ht => exact absurd ht (hh event slot rfl).1
  | reconcileOpen ht hrem hs => exact (hh.not_reopened ht hrem hs).elim
  | reconcileTerminal _ he => exact .inr he

theorem Harmless.reacted (hh : Harmless (.event event slot) r)
    (hr : Reacted r event r') : Harmless (.event event slot) r' := by
  rintro _ _ ⟨rfl, rfl⟩
  refine ⟨(hh event slot rfl).1, fun ht => ?_⟩
  cases hr with
  | same => exact (hh event slot rfl).2 ht
  | reconcileOpen _ hrem hs => exact (hh.not_reopened ht hrem hs).elim
  | newAck ht' | newReject ht' | cancelAck ht' | cancelReject ht' | expire ht' | reconcileTerminal ht' =>
    cases ht.symm.trans ht'

theorem RecordStep.awaitsCancel (hs : RecordStep cause r r') (h : AwaitsCancel r ∧ Harmless cause r) :
    AwaitsCancel r' ∧ Harmless cause r' := by
  obtain ⟨ha, hh⟩ := h
  cases hs with
  | bind => exact ⟨ha, hh⟩
  | react _ hr => exact ⟨ha.reacted hh hr, hh.reacted hr⟩
  | fill ht =>
    refine ⟨ha.fill, ?_⟩
    rintro event slot ⟨rfl, rfl⟩
    refine ⟨(hh _ _ rfl).1, fun he => ?_⟩
    simp [he, isFill] at ht
  | reject | expire => exact ⟨.inr rfl, harmless_command⟩
  | cancel => exact ⟨.inl rfl, harmless_command⟩

theorem requestCancel_rewrites (h : EngineReach H s) (hr : s.orders.liveOrder handle = some r)
    (hok : (s.requestCancel H r.request.token).error = .ok) :
    (s.requestCancel H r.request.token).engine.orders.liveOrder handle = some { r with inflight := .cancel } := by
  obtain ⟨hz, hg, ho, hgen⟩ := liveOrder_eq_some.mp hr
  rcases requestCancel_spec h.valid r.request.token with ⟨hne, _⟩ | ⟨slot, r₁, ho₁, htok, _, _, hw⟩
  · exact absurd hok hne
  · have hsl := h.valid.token.slot_unique ho₁ ho (congrArg some htok) rfl
    subst hsl
    rw [ho] at ho₁
    cases ho₁
    refine liveOrder_eq_some.mpr ⟨hz, hg, ?_, hgen⟩
    rw [hw.order, Function.update_self]

theorem harmless_of_cause {op : EngineOp} (hr : s.orders.liveOrder handle = some r)
    (hrej : ¬AppliesTo H s handle .cancelReject op) (hreo : ¬Reopens H s handle op)
    (hat : (op.cause H s).At handle.slot) : Harmless (op.cause H s) r := by
  intro event slot hc
  obtain ⟨rfl, hid⟩ := EngineOp.cause_eq_event hc
  rw [hc] at hat
  obtain rfl : slot = handle.slot := hat
  refine ⟨fun ht => hrej ⟨ht, hid⟩, fun ht => ?_⟩
  by_contra hno
  rw [not_or] at hno
  exact hreo ⟨⟨ht, hid⟩, r, hr, hno⟩

theorem react_cancelAck (ht : event.type = .cancelAck) (hi : r.inflight = .cancel)
    (htm : ¬isTerminal r.status) : react r event = .accept (settled r .canceled) true (some .canceled) := by
  have hnc : r.status ≠ .canceled := by rintro he; simp [he, isTerminal] at htm
  have hnf : r.status ≠ .filled := by rintro he; simp [he, isTerminal] at htm
  simp [react, ht, hi, hnc, hnf]

def sampleCanceling : StateEngine :=
  ((sampleEngine.perform sourceHashes (.submit sampleOrder)).engine.requestCancel sourceHashes ⟨1, 1, 1⟩).engine

theorem sampleCanceling_pending : CancelPending sourceHashes ⟨0, 0, 1⟩ sampleCanceling :=
  .requested (r := freshRecord sampleOrder 1) (sampleEngine_reach.next (.submit sampleOrder))
    (by decide +kernel) (by decide +kernel)

theorem cancelAck_refused_after_reconcileOpen :
    let s := (sampleCanceling.perform sourceHashes (.apply { type := .reconcileOpen, token := ⟨1, 1, 1⟩ })).engine
    let event : VenueEvent := { type := .cancelAck, token := ⟨1, 1, 1⟩ }
    ((sampleEngine.perform sourceHashes (.submit sampleOrder)).engine.requestCancel sourceHashes
        ⟨1, 1, 1⟩).error = .ok ∧
      EngineReach sourceHashes s ∧ (s.orders.record 0).status = .opened ∧
      (resolve sourceHashes s.orders event).1 = .ok 0 ∧
      (s.apply sourceHashes event).error = .invalidTransition :=
  ⟨by decide +kernel, ((sampleEngine_reach.next (.submit sampleOrder)).next
    (.requestCancel ⟨1, 1, 1⟩)).next _, by decide +kernel, by decide +kernel, by decide +kernel⟩

section

variable (h : CancelPending H handle s)

include h

theorem CancelPending.reach : EngineReach H s := by
  induction h with
  | requested h _ _ => exact h.next (.requestCancel _)
  | next _ _ _ _ ih => exact ih.next _

theorem CancelPending.live : ∃ r, s.orders.liveOrder handle = some r := by
  cases h with
  | requested h hr hok => exact ⟨_, requestCancel_rewrites h hr hok⟩
  | next _ hlv _ _ => exact Option.isSome_iff_exists.mp hlv

theorem CancelPending.awaits : ∀ r, s.orders.liveOrder handle = some r → AwaitsCancel r := by
  induction h with
  | requested h hr hok =>
    intro r' hr'
    rw [requestCancel_rewrites h hr hok] at hr'
    cases hr'
    exact .inl rfl
  | @next s op h hlv hrej hreo ih =>
    intro r' hr'
    rcases perform_live h.reach.valid op hr' with ⟨r, hr, rfl | ⟨hsts, hat⟩⟩ | ⟨_, hno, _⟩
    · exact ih r' hr
    · have hharm := harmless_of_cause hr hrej hreo hat
      exact (RecordSteps.keep (P := fun x => AwaitsCancel x ∧ Harmless (op.cause H s) x)
        RecordStep.awaitsCancel hsts ⟨ih r hr, hharm⟩).1
    · obtain ⟨r, hr⟩ := h.live
      rw [hno] at hr
      cases hr

end

theorem cancelAck_answers (h : CancelPending H handle s) (hr : s.orders.liveOrder handle = some r)
    (hterm : ¬isTerminal r.status) (ht : event.type = .cancelAck) {t : OrderTable}
    (hres : resolve H s.orders event = (.ok handle.slot, t)) :
    (s.apply H event).error = .ok ∧
      ∃ r', (s.apply H event).engine.orders.liveOrder handle = some r' ∧
        r'.status = .canceled ∧ r'.inflight = .none := by
  obtain ⟨hz, hg, ho, hgen⟩ := liveOrder_eq_some.mp hr
  have hcancel : r.inflight = .cancel := (h.awaits r hr).resolve_right hterm
  obtain ⟨s₁, r₁, hto⟩ := resolvesTo_of_resolve h.reach.valid ho hres
  have hsame : r₁.status = r.status ∧ r₁.inflight = r.inflight ∧ r₁.generation = r.generation := by
    cases hto.resolved <;> exact ⟨rfl, rfl, rfl⟩
  obtain ⟨_, _, hcore⟩ := order_eq_some hto.after
  have hreact : react (s₁.orders.record handle.slot) event =
      .accept (settled (s₁.orders.record handle.slot) .canceled) true (some .canceled) := by
    apply react_cancelAck ht
    · rw [← hcancel, ← hsame.2.1, hcore]; rfl
    · rw [← isTerminal_core, ← hcore, hsame.1]; exact hterm
  obtain ⟨_, hw⟩ := applyReaction_accept (hto.resolved.keeps h.reach.valid).valid hto.after hreact
  rw [hto.apply, applyAt_react (by rw [ht]; rfl)]
  refine ⟨hw.ok, settled r₁ .canceled, liveOrder_eq_some.mpr ⟨hz, hg, ?_, ?_⟩, rfl, rfl⟩
  · rw [hw.order, Function.update_self, hcore]
    rfl
  · exact hsame.2.2.trans hgen

theorem cancelAck_answers_sample :
    (sampleCanceling.apply sourceHashes { type := .cancelAck, token := ⟨1, 1, 1⟩ }).error = .ok :=
  (cancelAck_answers sampleCanceling_pending (r := { freshRecord sampleOrder 1 with inflight := .cancel })
    (by decide +kernel) (by decide) rfl (Prod.ext (by decide +kernel) rfl)).1

open Probe StateEngine

variable {s₁ : StateEngine} {r₁ : OrderRecord}

def Admits (r : OrderRecord) (event : VenueEvent) : Prop :=
  match event.type with
  | .newAck => r.status ≠ .rejected
  | .newReject => r.status = .rejected ∨ (r.status = .pendingSubmit ∧ r.cumulativeQuantity = 0)
  | .cancelAck => r.status = .canceled ∨ (r.inflight = .cancel ∧ r.status ≠ .filled)
  | .cancelReject => r.inflight = .cancel ∨ ¬isTerminal r.status
  | .expire => r.status = .expired ∨ ¬isTerminal r.status
  | .reconcileOpen => r.remainingQuantity ≠ 0 ∧ ¬isTerminal r.status
  | .reconcileTerminal => isTerminal event.reconciledStatus ∧
      (event.reconciledStatus = .filled → r.remainingQuantity = 0) ∧
      (isTerminal r.status → r.status = event.reconciledStatus)
  | .fill | .other _ => False

instance (r : OrderRecord) (event : VenueEvent) : Decidable (Admits r event) := by
  unfold Admits
  cases event.type <;> infer_instance

def AdmitsFill (H : OrderHashes) (s : StateEngine) (slot : Nat) (event : VenueEvent) : Prop :=
  let r := s.orders.record slot
  let found := (s.checkDuplicate H (s.orders.handleOf slot) event).1
  WellFormedFill r event ∧ (found = .duplicate ∨ (found = .ok ∧
    event.fillQuantity.value ≤ r.remainingQuantity ∧
    r.cumulativeQuantity ≤ int64Max - event.fillQuantity.value ∧
    (filledRecord r event).averagePrice ≤ int64Max ∧
    int64Min ≤ (filledRecord r event).averagePrice))

def Admissible (H : OrderHashes) (s : StateEngine) (slot : Nat) (event : VenueEvent) : Prop :=
  Admits (s.orders.record slot) event ∨ (isFill event.type ∧ AdmitsFill H s slot event)

theorem isTerminal_ne_unknown {status : OrderStatus} (h : isTerminal status) : status ≠ .unknown := by
  rintro rfl
  simp [isTerminal] at h

theorem react_refuses_iff (ht : isFill event.type = false) :
    (∃ error, react r event = .refuse error) ↔ ¬Admits r event := by
  unfold react Admits
  cases h : event.type with
  | fill | other => simp [h, isFill] at ht
  | newAck | cancelReject | expire | reconcileTerminal => dsimp only; split_ifs <;> simp_all
  | newReject | cancelAck => dsimp only; split_ifs <;> simp_all; tauto
  | reconcileOpen =>
    have hu : isTerminal r.status → r.status ≠ .unknown := isTerminal_ne_unknown
    dsimp only
    split_ifs <;> simp_all
    tauto

theorem applyFill_ok_iff : (s.applyFill H slot event).error = .ok ↔ AdmitsFill H s slot event := by
  unfold applyFill AdmitsFill
  dsimp only
  split
  next hsc =>
    simp only [reduceCtorEq, false_iff]
    rintro ⟨hw, _⟩
    exact hsc.elim (fun h => h hw.quantityScale) (fun h => h hw.priceScale)
  next hsc =>
    split
    next hpos =>
      simp only [reduceCtorEq, false_iff]
      rintro ⟨hw, _⟩
      have := hw.quantityPos
      have := hw.pricePos
      omega
    next hpos =>
      simp only [not_or, not_not, ne_eq, not_le] at hsc hpos
      rw [and_iff_right ⟨hsc.1, hsc.2, hpos.1, hpos.2⟩]
      split
      next hd => simp [hd]
      next cell hd =>
        rw [hd]
        split
        next h => simp; omega
        split
        next h => simp; omega
        split
        next h => simp; omega
        next h => simp; omega
      next error _ hdup hok hd => simp [hd, show error ≠ .ok from hok, show error ≠ .duplicate from hdup]

theorem applyAt_ok_iff : (s.applyAt H slot event).error = .ok ↔ Admissible H s slot event := by
  cases ht : isFill event.type with
  | false =>
    have hno : ¬(isFill event.type ∧ AdmitsFill H s slot event) := by simp [ht]
    have hiff := react_refuses_iff (r := s.orders.record slot) ht
    rw [applyAt_react ht, Admissible, or_iff_left hno]
    cases hr : react (s.orders.record slot) event with
    | refuse error =>
      have hne := react_refuse_ne_ok hr
      simp only [applyReaction, hne, false_iff]
      exact hiff.mp ⟨error, hr⟩
    | accept r' observe emit =>
      simp only [applyReaction, true_iff]
      by_contra hn
      obtain ⟨error, he⟩ := hiff.mpr hn
      rw [hr] at he
      cases he
  | true =>
    have hno : ¬Admits (s.orders.record slot) event := by
      unfold Admits
      cases h : event.type <;> simp_all [isFill]
    rw [applyAt_fill ht, Admissible, or_iff_right hno, and_iff_right ht]
    exact applyFill_ok_iff

theorem checkDuplicate_congr (hl : ∀ handle, s₁.orders.lookup handle = s.orders.lookup handle)
    (hd : s₁.fillDedup = s.fillDedup) (handle : OrderHandle) (event : VenueEvent) :
    s₁.checkDuplicate H handle event = s.checkDuplicate H handle event := by
  have hlv : s₁.liveEntry = s.liveEntry := by
    funext entry
    simp only [liveEntry, hl]
  simp only [checkDuplicate, hd, hlv]

theorem wellFormedFill_bind {venueId : VenueOrderId} :
    WellFormedFill { r with venueOrderId := venueId } event ↔ WellFormedFill r event :=
  ⟨fun h => ⟨h.quantityScale, h.priceScale, h.quantityPos, h.pricePos⟩,
    fun h => ⟨h.quantityScale, h.priceScale, h.quantityPos, h.pricePos⟩⟩

theorem admissible_bound {t : OrderTable} (hb : Bound H s.orders slot event.venueOrderId t) :
    Admissible H { s with orders := t } slot event ↔ Admissible H s slot event := by
  have hdup : ∀ handle event, checkDuplicate H { s with orders := t } handle event =
      s.checkDuplicate H handle event := checkDuplicate_congr hb.lookup rfl
  have hrec : t.record slot = { s.orders.record slot with venueOrderId := event.venueOrderId } := by
    rw [hb.record, if_pos rfl]
  unfold Admissible AdmitsFill
  dsimp only
  rw [hdup, hb.handleOf, hrec, wellFormedFill_bind]
  rfl

/-- Resolution will write the venue identifier of the event into the order of `slot`. -/
def BindsVenueId (H : OrderHashes) (t : OrderTable) (event : VenueEvent) (slot : Nat) : Prop :=
  identify H t event = .ok (some slot) ∧ NewVenueId H t event ∧ (t.record slot).venueOrderId.length = 0

theorem OrderTable.Bound.ne (hid : validId event.venueOrderId) {t t' : OrderTable}
    (hb : Bound H t slot event.venueOrderId t') : t' ≠ t := by
  rintro rfl
  have hrec := hb.record slot
  rw [if_pos rfl] at hrec
  have hlen : (t'.record slot).venueOrderId.length = event.venueOrderId.length := by
    rw [hrec]
  rw [hb.unbound] at hlen
  simp only [validId, Bool.and_eq_true, decide_eq_true_eq] at hid
  omega

theorem apply_atomic_iff (h : EngineReach H s) (event : VenueEvent) :
    ((s.apply H event).error ≠ .ok → (s.apply H event).engine = s ∧ (s.apply H event).updates = []) ↔
      ∀ slot, BindsVenueId H s.orders event slot → Admissible H s slot event := by
  constructor
  · rintro hatomic slot ⟨hid, hnew, hlen⟩
    by_contra hadm
    rcases resolve_cases h.valid with ⟨_, _, _, hset⟩ | ⟨slot', r, s₁, r₁, hr⟩
    · exact hset slot hid hlen
    · have hslot : slot' = slot := by
        have := hr.identify.symm.trans hid
        simpa using this
      subst hslot
      have happly := hr.apply
      cases hr.resolved with
      | known hn => exact hn hnew
      | bound _ hb =>
        have hne : (s.apply H event).error ≠ .ok := by
          rw [happly, ne_eq, applyAt_ok_iff, admissible_bound hb]
          exact hadm
        have heng := (hatomic hne).1
        have hat := applyAt_spec (hr.resolved.keeps h.valid).valid hr.after event
        rw [← happly] at hat
        cases hat with
        | refused _ hs _ =>
          rw [hs] at heng
          exact hb.ne (hr.identified.venueValid hnew.1) (congrArg orders heng)
        | reacted _ _ hw => exact hne hw.ok
        | duplicate _ _ _ he _ _ => exact hne he
        | filled _ _ _ hf => exact hne hf.ok
  · intro hcond hne
    rcases apply_spec h.valid event with ⟨_, hs, hu⟩ | ⟨slot, r, s₁, r₁, hr, ha⟩
    · exact ⟨hs, hu⟩
    · cases ha with
      | reacted _ _ hw => exact absurd hw.ok hne
      | duplicate _ _ _ he _ _ => exact absurd he hne
      | filled _ _ _ hf => exact absurd hf.ok hne
      | refused _ hs hu =>
        have happly := hr.apply
        cases hr.resolved with
        | known => exact ⟨hs, hu⟩
        | bound hnew hb =>
          refine absurd ?_ hne
          rw [happly, applyAt_ok_iff, admissible_bound hb]
          exact hcond slot ⟨hr.identify, hnew, hb.unbound⟩

def strayCancelAck : VenueEvent := { type := .cancelAck, token := ⟨1, 1, 1⟩, venueOrderId := ⟨[88]⟩ }

theorem apply_atomic_iff_sample :
    let s := (sampleEngine.perform sourceHashes (.submit sampleOrder)).engine
    let event := { strayCancelAck with type := .newAck }
    (s.apply sourceHashes event).error ≠ .ok →
      (s.apply sourceHashes event).engine = s ∧ (s.apply sourceHashes event).updates = [] :=
  (apply_atomic_iff (sampleEngine_reach.next _) _).mpr fun slot hb => by
    have hs : slot = 0 := by
      have hi : identify sourceHashes
          (sampleEngine.perform sourceHashes (.submit sampleOrder)).engine.orders
          { strayCancelAck with type := .newAck } = .ok (some 0) := by decide +kernel
      have := hb.1.symm.trans hi
      simpa using this
    subst hs
    exact .inl (by decide +kernel)

theorem apply_not_atomic :
    let s := (sampleEngine.perform sourceHashes (.submit sampleOrder)).engine
    EngineReach sourceHashes s ∧ (s.apply sourceHashes strayCancelAck).error = .invalidTransition ∧
      (s.apply sourceHashes strayCancelAck).engine ≠ s ∧
      ((s.apply sourceHashes strayCancelAck).engine.orders.record 0).venueOrderId = ⟨[88]⟩ :=
  ⟨sampleEngine_reach.next _, by decide +kernel, by decide +kernel, by decide +kernel⟩

end SelfQuant.Oms
