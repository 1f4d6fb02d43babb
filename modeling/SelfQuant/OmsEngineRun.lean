import SelfQuant.OmsEngineStep

namespace SelfQuant.Oms

open Probe OrderTable Option Function RecordSteps NewOrderRequest

variable {H : OrderHashes} {s s' : StateEngine} {slot : Nat} {r r' : OrderRecord} {event : VenueEvent} {op : EngineOp}

namespace StateEngine

theorem react_refuse_ne_ok {error : Error} (h : react r event = .refuse error) : error ≠ .ok := by
  unfold react at h
  repeat' split at h
  all_goals cases h
  all_goals simp

variable {s₁ : StateEngine} {r₁ : OrderRecord} {observe : Bool}

theorem react_silent (h : react r event = .accept r' observe none) : r' = r := by
  unfold react at h
  repeat' split at h
  all_goals cases h
  all_goals rfl

structure WellFormedFill (r : OrderRecord) (event : VenueEvent) : Prop where
  quantityScale : event.fillQuantity.scale = r.request.quantity.scale
  priceScale : event.fillPrice.scale = r.request.price.scale
  quantityPos : 0 < event.fillQuantity.value
  pricePos : 0 < event.fillPrice.value

def fillEntry (handle : OrderHandle) (event : VenueEvent) : FillDedupEntry :=
  { handle := handle, tradeId := event.tradeId
    quantity := event.fillQuantity.value, price := event.fillPrice.value }

structure Filled (H : OrderHashes) (s : StateEngine) (slot : Nat) (r : OrderRecord)
    (event : VenueEvent) (cell : Nat) (out : Outcome) : Prop where
  fresh : s.checkDuplicate H ⟨slot, 0, r.generation⟩ event = (.ok, cell)
  fits : event.fillQuantity.value ≤ r.remainingQuantity
  ok : out.error = .ok
  valid : out.engine.orders.Valid H
  framed : Framed s.orders out.engine.orders
  order : out.engine.orders.order = update s.orders.order slot (some (filledRecord r event))
  fillDedup : out.engine.fillDedup = s.fillDedup.set cell (.full (fillEntry ⟨slot, 0, r.generation⟩ event))
  updates : out.updates = [emitFill ⟨slot, 0, r.generation⟩ (filledRecord r event) event]

inductive FillResult (H : OrderHashes) (s : StateEngine) (slot : Nat) (r : OrderRecord)
    (event : VenueEvent) (out : Outcome) : Prop
  | refused (he : out.error ≠ .ok) (hs : out.engine = s) (hu : out.updates = [])
  | duplicate (hw : WellFormedFill r event)
      (hd : (s.checkDuplicate H ⟨slot, 0, r.generation⟩ event).1 = .duplicate)
      (he : out.error = .ok) (hs : out.engine = s) (hu : out.updates = [])
  | filled (cell : Nat) (hw : WellFormedFill r event) (hf : Filled H s slot r event cell out)

inductive AppliedAt (H : OrderHashes) (s : StateEngine) (slot : Nat) (r : OrderRecord)
    (event : VenueEvent) (out : Outcome) : Prop
  | refused (he : out.error ≠ .ok) (hs : out.engine = s) (hu : out.updates = [])
  | reacted {r' : OrderRecord} (ht : isFill event.type = false) (hr : Reacted r event r')
      (hw : Rewrote H s slot r r' out)
  | duplicate (ht : isFill event.type) (hw : WellFormedFill r event)
      (hd : (s.checkDuplicate H ⟨slot, 0, r.generation⟩ event).1 = .duplicate)
      (he : out.error = .ok) (hs : out.engine = s) (hu : out.updates = [])
  | filled (cell : Nat) (ht : isFill event.type) (hw : WellFormedFill r event)
      (hf : Filled H s slot r event cell out)

theorem applyAt_fill (ht : isFill event.type) : s.applyAt H slot event = s.applyFill H slot event := by
  unfold applyAt
  cases h : event.type <;> simp_all [isFill]

theorem applyAt_react (ht : isFill event.type = false) :
    s.applyAt H slot event = s.applyReaction slot (react (s.orders.record slot) event) := by
  unfold applyAt
  cases h : event.type <;> simp_all [isFill]

inductive Resolved (H : OrderHashes) (s : StateEngine) (event : VenueEvent) (slot : Nat)
    (r : OrderRecord) : StateEngine → OrderRecord → Prop
  | known (hn : ¬NewVenueId H s.orders event) : Resolved H s event slot r s r
  | bound {t : OrderTable} (hn : NewVenueId H s.orders event)
      (hb : Bound H s.orders slot event.venueOrderId t) :
      Resolved H s event slot r { s with orders := t } { r with venueOrderId := event.venueOrderId }

section

variable (h : Resolved H s event slot r s' r')

include h

theorem Resolved.order (ho : s.orders.order slot = some r) :
    s'.orders.order = update s.orders.order slot (some r') := by
  cases h with
  | known => rw [← ho, update_eq_self]
  | bound _ hb => exact hb.order ho

theorem Resolved.steps (ho : s.orders.order slot = some r) : RecordSteps (.event event slot) r r' := by
  cases h with
  | known => exact .refl
  | bound _ hb =>
    obtain ⟨_, _, rfl⟩ := order_eq_some ho
    exact .single (.bind hb.unbound)

theorem Resolved.status : r'.status = r.status := by
  cases h <;> rfl

end

/-- The event names the order `r` of `slot`; its resolution leaves `s₁` with `r₁` there. -/
structure ResolvesTo (H : OrderHashes) (s : StateEngine) (event : VenueEvent) (slot : Nat)
    (r : OrderRecord) (s₁ : StateEngine) (r₁ : OrderRecord) : Prop where
  identify : identify H s.orders event = .ok (some slot)
  before : s.orders.order slot = some r
  resolved : Resolved H s event slot r s₁ r₁
  result : resolve H s.orders event = (.ok slot, s₁.orders)

section

variable (h : ResolvesTo H s event slot r s₁ r₁)

include h

theorem ResolvesTo.identified : Identified H s.orders event slot := identify_eq_ok h.identify

theorem ResolvesTo.after : s₁.orders.order slot = some r₁ := by
  rw [h.resolved.order h.before, update_self]

theorem ResolvesTo.apply : s.apply H event = s₁.applyAt H slot event := by
  unfold StateEngine.apply
  rw [h.result]
  cases h.resolved <;> rfl

end

section

variable (hv : s.orders.Valid H)

include hv

theorem Resolved.keeps (h : Resolved H s event slot r s' r') : Keeps H s s' := by
  cases h with
  | known => exact Keeps.refl hv
  | bound _ hb => exact ⟨hb.valid, hb.framed, rfl⟩

theorem resolve_cases :
    (∃ error, resolve H s.orders event = (.error error, s.orders) ∧ error ≠ .ok ∧
        ∀ slot, identify H s.orders event = .ok (some slot) → (s.orders.record slot).venueOrderId.length ≠ 0) ∨
      ∃ slot r s₁ r₁, ResolvesTo H s event slot r s₁ r₁ := by
  rcases resolve_spec hv with h | ⟨slot, r, t', he, hid, ho, ⟨hn, rfl⟩ | ⟨hn, hb⟩⟩
  · exact .inl h
  · exact .inr ⟨slot, r, s, r, hid, ho, .known hn, he⟩
  · exact .inr ⟨slot, r, _, _, hid, ho, .bound hn hb, he⟩

section

variable (ho : s.orders.order slot = some r)

include ho

theorem applyReaction_accept
    {emit : Option UpdateType} (hr : react (s.orders.record slot) event = .accept r' observe emit) :
    Reacted r event r'.core ∧ Rewrote H s slot r r'.core
      (s.applyReaction slot (react (s.orders.record slot) event)) := by
  obtain ⟨_, _, hco⟩ := order_eq_some ho
  have hre := react_accept hr
  have hsm : SameOrder r r' := by
    rw [hco]
    have := hre.sameOrder
    exact ⟨this.request, this.routing, this.venueOrderId, this.generation, this.occupied⟩
  obtain ⟨hk, hord⟩ := setRecord_keeps hv ho hsm
  rw [hr]
  refine ⟨by rw [hco]; exact hre.core, rfl, ?_, ?_, ?_, ?_⟩
  · dsimp only [applyReaction]
    split
    · exact hk.trans (observeTerminal_keeps hk.valid _)
    · exact hk
  · dsimp only [applyReaction]
    split
    · exact observeTerminal_relinked.order.trans hord
    · exact hord
  · intro u hu
    simp only [applyReaction, List.mem_map] at hu
    obtain ⟨type, _, rfl⟩ := hu
    exact ⟨type, by rw [handleOf_order ho]; rfl⟩
  · cases emit with
    | none => exact .inl (by rw [hco, react_silent hr])
    | some type => exact .inr (by simp [applyReaction])

theorem applyReaction_spec :
    ((s.applyReaction slot (react (s.orders.record slot) event)).error ≠ .ok ∧
        (s.applyReaction slot (react (s.orders.record slot) event)).engine = s ∧
        (s.applyReaction slot (react (s.orders.record slot) event)).updates = []) ∨
      ∃ r', Reacted r event r' ∧
        Rewrote H s slot r r' (s.applyReaction slot (react (s.orders.record slot) event)) := by
  cases hr : react (s.orders.record slot) event with
  | refuse error => exact .inl ⟨react_refuse_ne_ok hr, rfl, rfl⟩
  | accept r' observe emit =>
    have h := applyReaction_accept hv ho hr
    rw [hr] at h
    exact .inr ⟨r'.core, h⟩

theorem applyFill_spec : FillResult H s slot r event (s.applyFill H slot event) := by
  obtain ⟨_, _, hco⟩ := order_eq_some ho
  have hh := handleOf_order ho
  unfold applyFill
  dsimp only
  split
  next => exact .refused (by simp) rfl rfl
  next hsc =>
  split
  next => exact .refused (by simp) rfl rfl
  next hpos =>
  simp only [not_or, not_not, ne_eq, not_le] at hsc hpos
  have hw : WellFormedFill r event := by
    rw [hco]; exact ⟨hsc.1, hsc.2, hpos.1, hpos.2⟩
  rw [hh]
  split
  next hd => exact .duplicate hw (by rw [hd]) rfl rfl rfl
  next cell hd =>
    split
    next => exact .refused (by simp) rfl rfl
    next hfit =>
    split
    next => exact .refused (by simp) rfl rfl
    split
    next => exact .refused (by simp) rfl rfl
    have hset : SameOrder r (filledRecord (s.orders.record slot) event) := by
      rw [hco]; exact ⟨rfl, rfl, rfl, rfl, rfl⟩
    obtain ⟨hk, hord⟩ := setRecord_keeps hv ho hset
    have hk' := hk.trans (observeTerminal_keeps hk.valid ⟨slot, 0, r.generation⟩)
    refine .filled cell hw ⟨hd, ?_, rfl, hk'.valid, hk'.framed, ?_, ?_, ?_⟩
    · rw [hco]; exact not_lt.mp hfit
    · refine observeTerminal_relinked.order.trans (hord.trans ?_)
      rw [hco]
      rfl
    · dsimp only [recordFill]
      rw [observeTerminal_fillDedup]
      rfl
    · rw [hco]
      rfl
  next hok _ => exact .refused hok rfl rfl

theorem applyAt_spec (event : VenueEvent) : AppliedAt H s slot r event (s.applyAt H slot event) := by
  cases ht : isFill event.type with
  | true =>
    rw [applyAt_fill ht]
    cases applyFill_spec hv ho with
    | refused he hs hu => exact .refused he hs hu
    | duplicate hw hd he hs hu => exact .duplicate ht hw hd he hs hu
    | filled cell hw hf => exact .filled cell ht hw hf
  | false =>
    rw [applyAt_react ht]
    rcases applyReaction_spec hv ho with ⟨he, hs, hu⟩ | ⟨r', hr, hw⟩
    · exact .refused he hs hu
    · exact .reacted ht hr hw

theorem resolvesTo_of_resolve {t : OrderTable}
    (hres : resolve H s.orders event = (.ok slot, t)) : ∃ s₁ r₁, ResolvesTo H s event slot r s₁ r₁ := by
  rcases resolve_cases hv with ⟨_, he, _⟩ | ⟨slot', r₀, s₁, r₁, hto⟩
  · rw [hres] at he
    cases he
  · have hsl := hres.symm.trans hto.result
    obtain ⟨rfl, _⟩ := hsl
    have hbef := hto.before
    rw [ho] at hbef
    cases hbef
    exact ⟨s₁, r₁, hto⟩

end

theorem apply_spec (event : VenueEvent) :
    ((s.apply H event).error ≠ .ok ∧ (s.apply H event).engine = s ∧ (s.apply H event).updates = []) ∨
      ∃ slot r s₁ r₁, ResolvesTo H s event slot r s₁ r₁ ∧ AppliedAt H s₁ slot r₁ event (s.apply H event) := by
  rcases resolve_cases hv with ⟨error, he, hne, _⟩ | ⟨slot, r, s₁, r₁, h⟩
  · unfold apply
    rw [he]
    exact .inl ⟨hne, rfl, rfl⟩
  · refine .inr ⟨slot, r, s₁, r₁, h, ?_⟩
    rw [h.apply]
    exact applyAt_spec (h.resolved.keeps hv).valid h.after event

end

end StateEngine

open Function

variable {o o' : OrderMap} {updates : List SinkUpdate}

inductive EngineOp
  | submit (prepared : SubmitOrderRequest)
  | rejectLocal (handle : OrderHandle)
  | requestCancel (token : RequestToken)
  | expireOneForRetirement (instrumentId : InstrumentId)
  | apply (event : VenueEvent)
  | erase (handle : OrderHandle)
  | eraseTerminalByInstrument (instrumentId : InstrumentId)

namespace StateEngine

def perform (H : OrderHashes) (s : StateEngine) : EngineOp → Outcome
  | .submit prepared => s.submit H prepared
  | .rejectLocal handle => s.rejectLocal handle
  | .requestCancel token => s.requestCancel H token
  | .expireOneForRetirement instrumentId => s.expireOneForRetirement instrumentId
  | .apply event => s.apply H event
  | .erase handle =>
    { error := (s.orders.erase H handle).1
      engine := { s with orders := (s.orders.erase H handle).2 } }
  | .eraseTerminalByInstrument instrumentId =>
    { error := (s.orders.eraseTerminalByInstrument H instrumentId).1
      engine := { s with orders := (s.orders.eraseTerminalByInstrument H instrumentId).2 } }

end StateEngine

inductive EngineReach (H : OrderHashes) : StateEngine → Prop
  | start {orderCapacity fillDedupCapacity : Nat} {s : StateEngine}
      (h : StateEngine.create orderCapacity fillDedupCapacity = some s) : EngineReach H s
  | next {s : StateEngine} (h : EngineReach H s) (op : EngineOp) :
      EngineReach H (s.perform H op).engine

def EngineOp.cause (H : OrderHashes) (s : StateEngine) : EngineOp → Cause
  | .submit prepared => if (s.submit H prepared).error = .ok then
      .submission (s.submit H prepared).handle else .command
  | .apply event =>
    match identify H s.orders event with
    | .ok (some slot) => .event event slot
    | _ => .command
  | _ => .command

theorem EngineOp.cause_eq_event {op : EngineOp} {event : VenueEvent} (h : op.cause H s = .event event slot) :
    op = .apply event ∧ identify H s.orders event = .ok (some slot) := by
  unfold cause at h
  split at h
  next => split at h <;> cases h
  next =>
    split at h
    next hi => cases h; exact ⟨rfl, hi⟩
    next => cases h
  next => cases h

def Cause.At : Cause → Nat → Prop
  | .command, _ => True
  | .submission _, _ => False
  | .event _ slot, slot' => slot = slot'

inductive Effect (cause : Cause) (o : OrderMap) : OrderMap → List SinkUpdate → Prop
  | quiet {o' : OrderMap} (h : Dropped o o') : Effect cause o o' []
  | erased (slot : Nat) : Effect cause o (update o slot none) []
  | placed {o₁ : OrderMap} {submitted : SubmitOrderRequest} {handle : OrderHandle}
      (hc : cause = .submission handle) (hz : handle.reserved = 0) (hd : Dropped o o₁)
      (hq : 0 < submitted.order.quantity.value) (hfree : o₁ handle.slot = none)
      (hstale : ∀ r, o handle.slot = some r → r.generation ≠ handle.generation) :
      Effect cause o (update o₁ handle.slot (some (freshRecord submitted handle.generation)))
        [emitOrder .submitted handle (freshRecord submitted handle.generation)]
  | changed {slot : Nat} {r r' : OrderRecord} {updates : List SinkUpdate}
      (ho : o slot = some r) (hs : RecordSteps cause r r') (hc : cause.At slot)
      (hu : ∀ u ∈ updates, u.token = r.request.token ∧ u.handle = ⟨slot, 0, r.generation⟩)
      (ht : r'.status = r.status ∨ updates ≠ []) :
      Effect cause o (update o slot (some r')) updates

variable {cause : Cause}

variable {P : OrderRecord → Prop}

theorem Effect.keep (h : Effect cause o o' updates)
    (hfr : ∀ {submitted generation}, 0 < submitted.order.quantity.value → P (freshRecord submitted generation))
    (hst : ∀ {r r'}, RecordStep cause r r' → P r → P r') (hp : ∀ {slot r}, o slot = some r → P r) :
    ∀ {slot r}, o' slot = some r → P r := by
  intro slot r hr
  cases h with
  | quiet hd => exact hp (hd.of_some hr)
  | erased s => exact hp (of_update_none hr).2
  | @placed o₁ submitted handle _ _ hd hq =>
    obtain ⟨-, hr⟩ | ⟨-, hr⟩ := update_eq_some.mp hr
    · cases hr
      exact hfr hq
    · exact hp (hd.of_some hr)
  | @changed s r₀ r₁ updates ho hsts =>
    obtain ⟨rfl, he⟩ | ⟨-, hr⟩ := update_eq_some.mp hr
    · cases he
      exact keep hst hsts (hp ho)
    · exact hp hr

theorem Effect.origin (h : Effect cause o o' updates) (ho' : o' slot = some r') :
    (∃ r, o slot = some r ∧ r.generation = r'.generation ∧ (r' = r ∨ (RecordSteps cause r r' ∧ cause.At slot))) ∨
      ∃ submitted handle, cause = .submission handle ∧ handle.reserved = 0 ∧ slot = handle.slot ∧
        r' = freshRecord submitted handle.generation ∧
        ∀ r, o slot = some r → r.generation ≠ handle.generation := by
  cases h with
  | quiet hd => exact .inl ⟨r', hd.of_some ho', rfl, .inl rfl⟩
  | erased s => exact .inl ⟨r', (of_update_none ho').2, rfl, .inl rfl⟩
  | @placed o₁ submitted handle hc hz hd _ _ hstl =>
    obtain ⟨rfl, he⟩ | ⟨-, ho'⟩ := update_eq_some.mp ho'
    · exact .inr ⟨submitted, handle, hc, hz, rfl, (some.inj he).symm, hstl⟩
    · exact .inl ⟨r', hd.of_some ho', rfl, .inl rfl⟩
  | @changed s r₀ r₁ updates ho hsts hc =>
    obtain ⟨rfl, he⟩ | ⟨-, ho'⟩ := update_eq_some.mp ho'
    · cases he
      exact .inl ⟨r₀, ho, (identity hsts).2.symm, .inr ⟨hsts, hc⟩⟩
    · exact .inl ⟨r', ho', rfl, .inl rfl⟩

theorem Effect.none : Effect cause o o [] := .quiet (Dropped.refl o)

namespace StateEngine

variable {out : Outcome} {event : VenueEvent}

theorem Rewrote.effect (h : Rewrote H s slot r r' out) (ho : s.orders.order slot = some r)
    (hs : RecordStep .command r r') : Effect .command s.orders.order out.engine.orders.order out.updates := by
  rw [h.order]
  refine .changed ho (.single hs) trivial (fun u hu => ?_) h.told
  obtain ⟨type, rfl⟩ := h.updates u hu
  exact ⟨congrArg token hs.identity.1, rfl⟩

theorem AppliedAt.effect {s₁ : StateEngine} {r₁ : OrderRecord}
    (hr : ResolvesTo H s event slot r s₁ r₁) (h : AppliedAt H s₁ slot r₁ event out) :
    Effect (.event event slot) s.orders.order out.engine.orders.order out.updates := by
  have ho := hr.before
  have ho₁ := hr.resolved.order ho
  have hs := hr.resolved.steps ho
  obtain ⟨hreq, hgen⟩ := identity hs
  have hst := hr.resolved.status
  cases h with
  | refused _ he hu => rw [he, hu, ho₁]; exact .changed ho hs rfl (by simp) (.inl hst)
  | duplicate _ _ _ _ he hu => rw [he, hu, ho₁]; exact .changed ho hs rfl (by simp) (.inl hst)
  | reacted ht hre hw =>
    rw [hw.order, ho₁, update_idem]
    refine .changed ho (hs.tail (.react ht hre)) rfl (fun u hu => ?_) (hst ▸ hw.told)
    obtain ⟨type, rfl⟩ := hw.updates u hu
    exact ⟨congrArg token (hre.sameOrder.request.trans hreq), by rw [← hgen]; rfl⟩
  | filled cell ht hw hf =>
    rw [hf.order, ho₁, update_idem, hf.updates]
    refine .changed ho (hs.tail (.fill ht hw.quantityPos hf.fits)) rfl (fun u hu => ?_) (.inr (by simp))
    rw [List.mem_singleton] at hu
    subst hu
    exact ⟨congrArg token hreq, by rw [← hgen]; rfl⟩

theorem AppliedAt.table (hv : s.orders.Valid H) (h : AppliedAt H s slot r event out) :
    out.engine.orders.Valid H ∧ Framed s.orders out.engine.orders := by
  cases h with
  | refused _ he _ => rw [he]; exact ⟨hv, .refl _⟩
  | duplicate _ _ _ _ he _ => rw [he]; exact ⟨hv, .refl _⟩
  | reacted _ _ hw => exact ⟨hw.keeps.valid, hw.keeps.framed⟩
  | filled _ _ _ hf => exact ⟨hf.valid, hf.framed⟩

/-- Only a retirement touches more of the table than its orders and its links, and only an event the trades seen. -/
theorem perform_spec (hv : s.orders.Valid H) (op : EngineOp) : (s.perform H op).engine.orders.Valid H ∧
      (Framed s.orders (s.perform H op).engine.orders ∨ (∃ inst, op = .eraseTerminalByInstrument inst) ∧
        (s.perform H op).engine.orders.records.length = s.orders.records.length) ∧
      ((∀ event, op ≠ .apply event) → (s.perform H op).engine.fillDedup = s.fillDedup) ∧
      Effect (op.cause H s) s.orders.order (s.perform H op).engine.orders.order (s.perform H op).updates := by
  cases op with
  | submit prepared =>
    obtain ⟨hk, o, hd, ⟨_, ho, hu⟩ | ⟨he, _, hadm, ho, hu⟩⟩ := submit_spec hv prepared
    · refine ⟨hk.valid, .inl hk.framed, fun _ => hk.fillDedup, ?_⟩
      simp only [perform]
      rw [hu, ho]
      exact .quiet hd
    · refine ⟨hk.valid, .inl hk.framed, fun _ => hk.fillDedup, ?_⟩
      simp only [perform]
      rw [hu, ho]
      refine .placed (if_pos he) hadm.reserved hd hadm.quantityPos hadm.free fun r hr => ?_
      obtain ⟨_, _, rfl⟩ := order_eq_some hr
      exact hadm.stale
  | rejectLocal handle =>
    simp only [perform]
    rcases rejectLocal_spec hv handle with ⟨_, he, hu⟩ | ⟨r, hr, hs, hi, hw⟩
    · rw [he, hu]
      exact ⟨hv, .inl (.refl _), fun _ => rfl, .none⟩
    · exact ⟨hw.keeps.valid, .inl hw.keeps.framed, fun _ => hw.keeps.fillDedup, hw.effect (liveOrder_eq_some.mp hr).2.2.1 (.reject hs hi)⟩
  | requestCancel token =>
    simp only [perform]
    rcases requestCancel_spec hv token with ⟨_, he, hu⟩ | ⟨slot, r, ho, _, hs, hi, hw⟩
    · rw [he, hu]
      exact ⟨hv, .inl (.refl _), fun _ => rfl, .none⟩
    · exact ⟨hw.keeps.valid, .inl hw.keeps.framed, fun _ => hw.keeps.fillDedup, hw.effect ho (.cancel hs hi)⟩
  | expireOneForRetirement instrumentId =>
    simp only [perform]
    rcases expireOneForRetirement_spec hv instrumentId with ⟨_, he, hu⟩ | ⟨slot, r, ho, _, hs, hw⟩
    · rw [he, hu]
      exact ⟨hv, .inl (.refl _), fun _ => rfl, .none⟩
    · exact ⟨hw.keeps.valid, .inl hw.keeps.framed, fun _ => hw.keeps.fillDedup, hw.effect ho (.expire hs)⟩
  | apply event =>
    simp only [perform]
    rcases apply_spec hv event with ⟨_, he, hu⟩ | ⟨slot, r, s₁, r₁, hr, ha⟩
    · rw [he, hu]
      exact ⟨hv, .inl (.refl _), fun _ => rfl, .none⟩
    · simp only [EngineOp.cause, hr.identify]
      have hk := hr.resolved.keeps hv
      have ht := ha.table hk.valid
      exact ⟨ht.1, .inl (hk.framed.trans ht.2), fun hop => absurd rfl (hop event), ha.effect hr⟩
  | erase handle =>
    simp only [perform]
    cases hl : s.orders.lookup handle with
    | none =>
      rw [show s.orders.erase H handle = (.staleHandle, s.orders) by simp [erase, hl]]
      exact ⟨hv, .inl (.refl _), fun _ => trivial, .none⟩
    | some slot =>
      obtain ⟨t', he, her⟩ := erase_spec (H := H) hl
      obtain ⟨_, _, hb, hocc⟩ := lookup_eq_some hl
      rw [he]
      refine ⟨hv.erased hb hocc her, .inl her.framed, fun _ => trivial, ?_⟩
      rw [her.order]
      exact .erased slot
  | eraseTerminalByInstrument instrumentId =>
    simp only [perform]
    rcases eraseTerminalByInstrument_spec hv with ⟨error, he, _⟩ | ⟨t', he, hv', hlen, _, hd, _⟩
    · rw [he]
      exact ⟨hv, .inl (.refl _), fun _ => trivial, .none⟩
    · rw [he]
      exact ⟨hv', .inr ⟨⟨_, rfl⟩, hlen⟩, fun _ => trivial, .quiet hd⟩

theorem perform_framed (hv : s.orders.Valid H) (op : EngineOp) (hop : ∀ inst, op ≠ .eraseTerminalByInstrument inst) :
    Framed s.orders (s.perform H op).engine.orders :=
  (perform_spec hv op).2.1.resolve_right fun h => hop _ h.1.choose_spec

end StateEngine

theorem perform_live {handle : OrderHandle} (hv : s.orders.Valid H) (op : EngineOp)
    (h : (s.perform H op).engine.orders.liveOrder handle = some r') :
    (∃ r, s.orders.liveOrder handle = some r ∧
        (r' = r ∨ (RecordSteps (op.cause H s) r r' ∧ (op.cause H s).At handle.slot))) ∨
      (op.cause H s = .submission handle ∧ s.orders.liveOrder handle = none ∧
        ∃ submitted, r' = freshRecord submitted handle.generation) := by
  obtain ⟨hz, hg, ho, hgen⟩ := liveOrder_eq_some.mp h
  rcases (StateEngine.perform_spec hv op).2.2.2.origin ho with ⟨r, hr, hsm, hcs⟩ |
    ⟨submitted, handle', hc, hz', hsl, rfl, hstl⟩
  · exact .inl ⟨r, liveOrder_eq_some.mpr ⟨hz, hg, hr, hsm.trans hgen⟩, hcs⟩
  · have he : handle' = handle := by
      cases handle
      cases handle'
      simp_all [freshRecord]
    subst he
    refine .inr ⟨hc, ?_, submitted, rfl⟩
    by_contra hlv
    obtain ⟨r, hr⟩ := ne_none_iff_exists'.mp hlv
    obtain ⟨_, _, hro, hrg⟩ := liveOrder_eq_some.mp hr
    exact hstl r hro hrg

theorem create_orders {orderCapacity fillDedupCapacity : Nat}
    (h : StateEngine.create orderCapacity fillDedupCapacity = some s) :
    ∃ size, create orderCapacity = some s.orders ∧
      fillDedupSize fillDedupCapacity = some size ∧ s.fillDedup = List.replicate size .empty := by
  obtain ⟨t, ht, h⟩ := bind_eq_some_iff.mp h
  obtain ⟨size, hs, h⟩ := bind_eq_some_iff.mp h
  cases some.inj h
  exact ⟨size, ht, hs, rfl⟩

theorem EngineReach.valid (h : EngineReach H s) : s.orders.Valid H := by
  induction h with
  | start h =>
    obtain ⟨_, ht, _⟩ := create_orders h
    exact create_valid ht
  | next _ op ih => exact (StateEngine.perform_spec ih op).1

theorem EngineReach.orders_keep (hfr : ∀ {submitted generation}, 0 < submitted.order.quantity.value →
      P (freshRecord submitted generation))
    (hst : ∀ {cause r r'}, RecordStep cause r r' → P r → P r') (h : EngineReach H s) :
    ∀ {slot r}, s.orders.order slot = some r → P r := by
  induction h with
  | start h =>
    obtain ⟨_, ht, _⟩ := create_orders h
    intro slot r hr
    rw [(create_empty ht).1] at hr
    cases hr
  | next h op ih => exact (StateEngine.perform_spec h.valid op).2.2.2.keep hfr hst ih

end SelfQuant.Oms
