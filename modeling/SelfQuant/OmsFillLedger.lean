import SelfQuant.OmsFillAccept

namespace SelfQuant.Oms

open Function Probe OrderTable StateEngine List Function

structure AcceptedFill where
  tradeId : TradeId
  (quantity price : Int)
deriving DecidableEq

abbrev FillLedger := OrderHandle → List AcceptedFill

def FillLedger.record (ledger : FillLedger) : SinkUpdate → FillLedger
  | .fill update => Function.update ledger update.handle (ledger update.handle ++
      [⟨update.tradeId, update.quantity.value, update.price.value⟩])
  | .order _ => ledger

/-- The ledger after a call: a submitted order starts with no fills, and every fill update of
an applied event is entered. -/
def FillLedger.after (H : OrderHashes) (s : StateEngine) (ledger : FillLedger) : EngineOp → FillLedger
  | .submit prepared => if (s.submit H prepared).error = .ok then
      update ledger (s.submit H prepared).handle [] else ledger
  | .apply event => (s.apply H event).updates.foldl record ledger
  | _ => ledger

inductive FillRun (H : OrderHashes) : StateEngine → FillLedger → Prop
  | start {orderCapacity fillDedupCapacity : Nat} {s : StateEngine}
      (h : create orderCapacity fillDedupCapacity = some s) : FillRun H s fun _ => []
  | next {s : StateEngine} {ledger : FillLedger} (h : FillRun H s ledger) (op : EngineOp) :
      FillRun H (s.perform H op).engine (ledger.after H s op)

variable {H : OrderHashes} {s s' s₁ : StateEngine} {ledger : FillLedger} {handle : OrderHandle}
  {r r' r₁ : OrderRecord} {event : VenueEvent} {slot : Nat} {fills : List AcceptedFill}

theorem FillRun.reach (h : FillRun H s ledger) : EngineReach H s := by
  induction h with
  | start h => exact .start h
  | next _ op ih => exact ih.next op

/-- An order's totals are the sums over its fills, each trade counted once. -/
structure Accounted (r : OrderRecord) (fills : List AcceptedFill) : Prop where
  distinct : (fills.map AcceptedFill.tradeId).Nodup
  quantity : r.cumulativeQuantity = (fills.map AcceptedFill.quantity).sum
  notional : r.cumulativeNotional = (fills.map fun f => f.price * f.quantity).sum

theorem Accounted.fill (h : Accounted r fills) (hnew : event.tradeId ∉ fills.map AcceptedFill.tradeId) :
    Accounted (filledRecord r event)
      (fills ++ [⟨event.tradeId, event.fillQuantity.value, event.fillPrice.value⟩]) := by
  refine ⟨?_, ?_, ?_⟩
  · rw [map_append, nodup_append]
    refine ⟨h.distinct, by simp, ?_⟩
    rintro a ha b hb rfl
    simp only [map_cons, map_nil, mem_singleton] at hb
    exact hnew (hb ▸ ha)
  · simp [filledRecord, h.quantity]
  · simp [filledRecord, h.notional]

def Recorded (s : StateEngine) (handle : OrderHandle) (f : AcceptedFill) : Prop :=
  ¬(f.tradeId.length = 0 ∨ f.tradeId.length > 96) ∧
    ∃ cell : Nat, s.fillDedup[cell]? = some (Cell.full ⟨handle, f.tradeId, f.quantity, f.price⟩)

structure LedgerSound (H : OrderHashes) (s : StateEngine) (ledger : FillLedger) : Prop where
  dedup : DedupSound H s.fillDedup
  accounted : ∀ {handle r}, s.orders.liveOrder handle = some r → Accounted r (ledger handle)
  recorded : ∀ {handle r f}, s.orders.liveOrder handle = some r → f ∈ ledger handle → Recorded s handle f

theorem LedgerSound.keep (h : LedgerSound H s ledger) (hd : s'.fillDedup = s.fillDedup)
    (hl : ∀ {handle r'}, s'.orders.liveOrder handle = some r' →
      ∃ r, s.orders.liveOrder handle = some r ∧ r'.cumulativeQuantity = r.cumulativeQuantity ∧
        r'.cumulativeNotional = r.cumulativeNotional) : LedgerSound H s' ledger where
  dedup := by rw [hd]; exact h.dedup
  accounted hr' := by
    obtain ⟨r, hr, hq, hn⟩ := hl hr'
    have hacct := h.accounted hr
    exact ⟨hacct.distinct, hq.trans hacct.quantity, hn.trans hacct.notional⟩
  recorded hr' hf := by
    obtain ⟨r, hr, _⟩ := hl hr'
    obtain ⟨hid, cell, hc⟩ := h.recorded hr hf
    exact ⟨hid, cell, by rw [hd]; exact hc⟩

variable {x : OrderRecord} {out : Outcome} {op : EngineOp} {cell : Nat}

theorem liveOrder_update (ho : s.orders.order slot = some r)
    (ho' : s'.orders.order = update s.orders.order slot (some r'))
    (hg : r'.generation = r.generation) {h : OrderHandle} (hx : s'.orders.liveOrder h = some x) :
    (h.slot = slot ∧ x = r' ∧ s.orders.liveOrder h = some r) ∨ (h.slot ≠ slot ∧ s.orders.liveOrder h = some x) := by
  obtain ⟨hz, hgz, hox, hgx⟩ := liveOrder_eq_some.mp hx
  rw [ho'] at hox
  obtain ⟨hs, hox⟩ | ⟨hs, hox⟩ := update_eq_some.mp hox
  · cases hox
    exact .inl ⟨hs, rfl, liveOrder_eq_some.mpr ⟨hz, hgz, by rw [hs]; exact ho, hg.symm.trans hgx⟩⟩
  · exact .inr ⟨hs, liveOrder_eq_some.mpr ⟨hz, hgz, hox, hgx⟩⟩

theorem Recorded.filled {own : OrderHandle} {f : AcceptedFill} (h : Recorded s handle f)
    (hnew : NewTrade H s own event cell) (hf : Filled H s slot r event cell out)
    (hx : s.orders.liveOrder handle = some x) : Recorded out.engine handle f := by
  obtain ⟨hid, i, hi⟩ := h
  have hne : cell ≠ i := by
    rintro rfl
    exact hnew.stale hi (lookup_isSome_iff.mpr ⟨x, hx⟩)
  refine ⟨hid, i, ?_⟩
  rw [hf.fillDedup, getElem?_set_ne hne]
  exact hi

theorem record_orders {updates : List SinkUpdate}
    (h : ∀ u ∈ updates, ∃ type handle x, u = emitOrder type handle x) :
    updates.foldl FillLedger.record ledger = ledger := by
  induction updates with
  | nil => rfl
  | cons u updates ih =>
    obtain ⟨type, handle, x, rfl⟩ := h u mem_cons_self
    exact ih (forall_mem_cons.mp h).2

section

variable (h : LedgerSound H s ledger)

include h

theorem LedgerSound.rewrite (hd : s'.fillDedup = s.fillDedup)
    (ho : s.orders.order slot = some r)
    (ho' : s'.orders.order = update s.orders.order slot (some r'))
    (hg : r'.generation = r.generation) (hq : r'.cumulativeQuantity = r.cumulativeQuantity)
    (hn : r'.cumulativeNotional = r.cumulativeNotional) : LedgerSound H s' ledger := by
  refine h.keep hd fun hx => ?_
  rcases liveOrder_update ho ho' hg hx with ⟨_, rfl, hr⟩ | ⟨_, hr⟩
  · exact ⟨r, hr, hq, hn⟩
  · exact ⟨_, hr, rfl, rfl⟩

theorem LedgerSound.resolved (hto : ResolvesTo H s event slot r s₁ r₁) : LedgerSound H s₁ ledger := by
  have hsm : s₁.fillDedup = s.fillDedup ∧ r₁.generation = r.generation ∧
      r₁.cumulativeQuantity = r.cumulativeQuantity ∧
      r₁.cumulativeNotional = r.cumulativeNotional := by
    cases hto.resolved <;> exact ⟨rfl, rfl, rfl, rfl⟩
  exact h.rewrite hsm.1 hto.before (hto.resolved.order hto.before) hsm.2.1 hsm.2.2.1 hsm.2.2.2

theorem LedgerSound.filled (hv : s.orders.Valid H)
    (ho : s.orders.order slot = some r) (hf : Filled H s slot r event cell out) :
    LedgerSound H out.engine (out.updates.foldl FillLedger.record ledger) := by
  let own : OrderHandle := ⟨slot, 0, r.generation⟩
  have hlv : s.orders.liveOrder own = some r := liveOrder_eq_some.mpr ⟨rfl, hv.generationPos ho, ho, rfl⟩
  have hnew := checkDuplicate_new h.dedup (lookup_isSome_iff.mpr ⟨r, hlv⟩) hf.fresh
  have hbd : cell < s.fillDedup.length := by
    rcases hnew.path with hp | hp
    · exact probeSeq_lt (takeWhile_subset _ hp)
    · exact (List.getElem?_eq_some_iff.mp (firstEmpty_spec hp)).1
  have hledger : out.updates.foldl FillLedger.record ledger = update ledger own
      (ledger own ++ [⟨event.tradeId, event.fillQuantity.value, event.fillPrice.value⟩]) := by
    rw [hf.updates]
    rfl
  have hown : ∀ {handle : OrderHandle}, handle.slot = slot → s.orders.liveOrder handle = some r → handle = own := by
    intro handle hs hr
    obtain ⟨hz, _, _, hg⟩ := liveOrder_eq_some.mp hr
    cases handle
    simp_all [own]
  rw [hledger]
  refine ⟨?_, ?_, ?_⟩
  · rw [hf.fillDedup]
    exact h.dedup.set hnew.path hnew.absent
  · intro handle x hx
    rcases liveOrder_update ho hf.order rfl hx with ⟨hs, rfl, hr⟩ | ⟨hs, hr⟩
    · obtain rfl := hown hs hr
      rw [update_self]
      refine (h.accounted hlv).fill fun hm => ?_
      obtain ⟨f, hfm, hft⟩ := mem_map.mp hm
      obtain ⟨_, i, hi⟩ := h.recorded hlv hfm
      exact hnew.absent hi ⟨rfl, hft⟩
    · rw [update_of_ne (by rintro rfl; exact hs rfl)]
      exact h.accounted hr
  · intro handle x f hx hm
    rcases liveOrder_update ho hf.order rfl hx with ⟨hs, rfl, hr⟩ | ⟨hs, hr⟩
    · obtain rfl := hown hs hr
      rw [update_self] at hm
      rcases mem_append.mp hm with hm | hm
      · exact (h.recorded hr hm).filled hnew hf hr
      · rw [mem_singleton] at hm
        subst hm
        exact ⟨hnew.validId, cell, by rw [hf.fillDedup]; simp [hbd, fillEntry, own]⟩
    · rw [update_of_ne (by rintro rfl; exact hs rfl)] at hm
      exact (h.recorded hr hm).filled hnew hf hr

theorem LedgerSound.apply (hv : s.orders.Valid H) :
    LedgerSound H (s.apply H event).engine ((s.apply H event).updates.foldl FillLedger.record ledger) := by
  rcases apply_spec hv event with ⟨_, hs, hu⟩ | ⟨slot, r, s₁, r₁, hto, ha⟩
  · rw [hs, hu]
    exact h
  · have h₁ := h.resolved hto
    cases ha with
    | refused _ hs hu => rw [hs, hu]; exact h₁
    | duplicate _ _ _ _ hs hu => rw [hs, hu]; exact h₁
    | reacted _ hr hw =>
      rw [record_orders]
      · exact h₁.rewrite hw.keeps.fillDedup hto.after hw.order hr.sameOrder.generation
          hr.quantities.1 hr.quantities.2.2
      · intro u hu
        obtain ⟨type, rfl⟩ := hw.updates u hu
        exact ⟨type, _, _, rfl⟩
    | filled cell _ _ hf => exact h₁.filled (hto.resolved.keeps hv).valid hto.after hf

end

section

variable (h : LedgerSound H s ledger) (hv : s.orders.Valid H)

include h hv

theorem LedgerSound.command (hop : ∀ event, op ≠ .apply event) (hc : op.cause H s = .command) :
    LedgerSound H (s.perform H op).engine ledger := by
  refine h.keep ((perform_spec hv op).2.2.1 hop) fun hr' => ?_
  rcases perform_live hv op hr' with ⟨r, hr, rfl | ⟨hs, _⟩⟩ | ⟨he, _⟩
  · exact ⟨_, hr, rfl, rfl⟩
  · rw [hc] at hs
    exact ⟨r, hr, RecordSteps.keep (P := fun x => x.cumulativeQuantity = r.cumulativeQuantity ∧
      x.cumulativeNotional = r.cumulativeNotional) (fun hs hp => by cases hs <;> exact hp) hs ⟨rfl, rfl⟩⟩
  · rw [hc] at he
    cases he

theorem LedgerSound.submit {prep : SubmitOrderRequest} (hok : (s.submit H prep).error = .ok) :
    LedgerSound H (s.submit H prep).engine (update ledger (s.submit H prep).handle []) := by
  obtain ⟨hk, o, hd, ⟨hne, _⟩ | ⟨_, _, hadm, _, _⟩⟩ := submit_spec hv prep
  · exact absurd hok hne
  have hstl : ∀ {x : OrderRecord}, s.orders.liveOrder (s.submit H prep).handle ≠ some x := by
    intro x hx
    obtain ⟨_, _, ho, hg⟩ := liveOrder_eq_some.mp hx
    obtain ⟨_, _, rfl⟩ := order_eq_some ho
    exact hadm.stale hg
  have horigin : ∀ {handle : OrderHandle} {x : OrderRecord},
      (s.submit H prep).engine.orders.liveOrder handle = some x →
      (handle ≠ (s.submit H prep).handle ∧ s.orders.liveOrder handle = some x) ∨
        (handle = (s.submit H prep).handle ∧ ∃ submitted, x = freshRecord submitted handle.generation) := by
    intro handle x hx
    have hcause : (EngineOp.submit prep).cause H s = .submission (s.submit H prep).handle := if_pos hok
    rcases perform_live hv (.submit prep) hx with ⟨r, hr, rfl | ⟨_, hat⟩⟩ | ⟨hc, _, hfr⟩
    · exact .inl ⟨by rintro rfl; exact hstl hr, hr⟩
    · rw [hcause] at hat
      exact hat.elim
    · rw [hcause] at hc
      cases hc
      exact .inr ⟨rfl, hfr⟩
  refine ⟨by rw [hk.fillDedup]; exact h.dedup, ?_, ?_⟩
  · intro handle x hx
    rcases horigin hx with ⟨hne, hr⟩ | ⟨rfl, submitted, rfl⟩
    · rw [update_of_ne hne]
      exact h.accounted hr
    · rw [update_self]
      exact ⟨nodup_nil, rfl, rfl⟩
  · intro handle x f hx hf
    rcases horigin hx with ⟨hne, hr⟩ | ⟨rfl, _⟩
    · rw [update_of_ne hne] at hf
      obtain ⟨hid, cell, hc⟩ := h.recorded hr hf
      exact ⟨hid, cell, by rw [hk.fillDedup]; exact hc⟩
    · rw [update_self] at hf
      cases hf

theorem LedgerSound.perform (op : EngineOp) : LedgerSound H (s.perform H op).engine (ledger.after H s op) := by
  cases op with
  | submit prepared =>
    simp only [FillLedger.after]
    split
    next hok => exact h.submit hv hok
    next hne => exact h.command hv (by simp) (if_neg hne)
  | apply event => exact h.apply hv
  | rejectLocal | requestCancel | expireOneForRetirement | erase | eraseTerminalByInstrument =>
    exact h.command hv (by simp) rfl

end

theorem FillRun.sound (h : FillRun H s ledger) : LedgerSound H s ledger := by
  induction h with
  | start h =>
    obtain ⟨size, ht, _, hd⟩ := create_orders h
    have hno := (create_empty ht).1
    exact ⟨by rw [hd]; exact dedupSound_replicate size, fun hr => by simp [liveOrder, hno] at hr,
      fun hr => by simp [liveOrder, hno] at hr⟩
  | next h op ih => exact ih.perform h.reach.valid op

variable {H : OrderHashes} {s s₁ : StateEngine} {ledger : FillLedger} {handle : OrderHandle}
  {r r₁ : OrderRecord} {event : VenueEvent} {slot : Nat}

theorem applyFill_of_known {error : Error} {cell : Nat} (ho : s.orders.order slot = some r)
    (hw : WellFormedFill r event) (he : error = .duplicate ∨ error = .protocolConflict)
    (hd : s.checkDuplicate H ⟨slot, 0, r.generation⟩ event = (error, cell)) : s.applyFill H slot event =
      { error := if error = .duplicate then .ok else .protocolConflict, engine := s } := by
  obtain ⟨_, _, hco⟩ := order_eq_some ho
  rw [← handleOf_order ho] at hd
  rw [hco] at hw
  have h₁ := hw.quantityScale
  have h₂ := hw.priceScale
  have h₃ := hw.quantityPos
  have h₄ := hw.pricePos
  simp only [OrderRecord.core] at h₁ h₂
  unfold applyFill
  rcases he with rfl | rfl <;> simp [h₁, h₂, hd, not_le.mpr h₃, not_le.mpr h₄]

/-- The two states differ at most in venue identifiers, and only if the event brings a new one. -/
structure SameButVenueId (H : OrderHashes) (event : VenueEvent) (s s' : StateEngine) : Prop where
  fillDedup : s'.fillDedup = s.fillDedup
  record : ∀ slot, { s'.orders.record slot with
    venueOrderId := (s.orders.record slot).venueOrderId } = s.orders.record slot
  unchanged : ¬NewVenueId H s.orders event → s' = s

theorem StateEngine.Resolved.sameButVenueId (h : Resolved H s event slot r s₁ r₁) :
    SameButVenueId H event s s₁ := by
  cases h with
  | known => exact ⟨rfl, fun _ => rfl, fun _ => rfl⟩
  | bound hn hb =>
    refine ⟨rfl, fun slot' => ?_, fun hn' => absurd hn hn'⟩
    rw [hb.record]
    split
    next hs => subst hs; rfl
    next => rfl

theorem fills_counted_once (h : FillRun H s ledger) (hr : s.orders.liveOrder handle = some r) :
    Accounted r (ledger handle) ∧
      ∀ {event t f}, event.type = .fill → resolve H s.orders event = (.ok handle.slot, t) →
        WellFormedFill r event → f ∈ ledger handle → f.tradeId = event.tradeId →
        (s.apply H event).error = (if f.quantity = event.fillQuantity.value ∧
          f.price = event.fillPrice.value then .ok else .protocolConflict) ∧
        (s.apply H event).updates = [] ∧ SameButVenueId H event s (s.apply H event).engine := by
  refine ⟨h.sound.accounted hr, ?_⟩
  intro event t f ht hres hw hf hid
  obtain ⟨hz, hg, ho, hgen⟩ := liveOrder_eq_some.mp hr
  obtain ⟨s₁, r₁, hto⟩ := resolvesTo_of_resolve h.reach.valid ho hres
  have hown : handle = ⟨handle.slot, 0, r₁.generation⟩ := by
    have : r₁.generation = r.generation := by cases hto.resolved <;> rfl
    cases handle
    simp_all
  have hw₁ : WellFormedFill r₁ event := by
    cases hto.resolved with
    | known => exact hw
    | bound => exact ⟨hw.quantityScale, hw.priceScale, hw.quantityPos, hw.pricePos⟩
  have hlive₁ : s₁.orders.liveOrder handle = some r₁ := by
    refine liveOrder_eq_some.mpr ⟨hz, hg, hto.after, ?_⟩
    exact (congrArg OrderHandle.generation hown).symm
  have hs₁ := h.sound.resolved hto
  obtain ⟨hvid, cell, hcell⟩ := hs₁.recorded hlive₁ hf
  have hfound := checkDuplicate_found hs₁.dedup (lookup_isSome_iff.mpr ⟨r₁, hlive₁⟩)
    (by rw [← hid]; exact hvid) hcell hid
  rw [hown] at hfound
  rw [hto.apply, applyAt_fill (by rw [ht]; rfl)]
  split at hfound
  next heq =>
    rw [applyFill_of_known hto.after hw₁ (.inl rfl) hfound, if_pos heq]
    exact ⟨rfl, rfl, hto.resolved.sameButVenueId⟩
  next hne =>
    rw [applyFill_of_known hto.after hw₁ (.inr rfl) hfound, if_neg hne]
    exact ⟨rfl, rfl, hto.resolved.sameButVenueId⟩

def sampleFill : VenueEvent where
  type := .fill
  token := ⟨1, 1, 1⟩
  tradeId := ⟨[84]⟩
  fillQuantity := ⟨1, 0⟩
  fillPrice := ⟨5, 0⟩

def sampleFilled : StateEngine :=
  ((sampleEngine.perform sourceHashes (.submit sampleOrder)).engine.perform sourceHashes (.apply sampleFill)).engine

def sampleLedger : FillLedger :=
  (FillLedger.after sourceHashes sampleEngine (fun _ => []) (.submit sampleOrder)).after sourceHashes
    (sampleEngine.perform sourceHashes (.submit sampleOrder)).engine (.apply sampleFill)

theorem sampleFilled_run : FillRun sourceHashes sampleFilled sampleLedger :=
  ((@FillRun.start sourceHashes 4 4 sampleEngine (Option.some_get _).symm).next
    (.submit sampleOrder)).next (.apply sampleFill)

theorem fills_counted_once_sample :
    sampleLedger ⟨0, 0, 1⟩ = [⟨⟨[84]⟩, 1, 5⟩] ∧
      (sampleFilled.apply sourceHashes sampleFill).error = .ok ∧
      (sampleFilled.apply sourceHashes { sampleFill with fillPrice := ⟨6, 0⟩ }).error = .protocolConflict := by
  have hr : sampleFilled.orders.liveOrder ⟨0, 0, 1⟩ =
      some (filledRecord (freshRecord sampleOrder 1) sampleFill) := by decide +kernel
  have hf : (⟨⟨[84]⟩, 1, 5⟩ : AcceptedFill) ∈ sampleLedger ⟨0, 0, 1⟩ := by decide +kernel
  obtain ⟨_, hagain⟩ := fills_counted_once sampleFilled_run hr
  refine ⟨by decide +kernel, ?_, ?_⟩
  · exact (hagain rfl (Prod.ext (by decide +kernel) rfl) ⟨rfl, rfl, by decide, by decide⟩ hf rfl).1
  · exact (hagain rfl (Prod.ext (by decide +kernel) rfl) ⟨rfl, rfl, by decide, by decide⟩ hf rfl).1

theorem repeated_fill_not_ignored :
    let named := { sampleFill with venueOrderId := ⟨[88]⟩ }
    let rescaled := { sampleFill with fillQuantity := ⟨10, 1⟩ }
    FillRun sourceHashes sampleFilled sampleLedger ∧
      (⟨⟨[84]⟩, 1, 5⟩ : AcceptedFill) ∈ sampleLedger ⟨0, 0, 1⟩ ∧
      ((sampleFilled.apply sourceHashes named).error = .ok ∧
        (sampleFilled.apply sourceHashes named).engine ≠ sampleFilled) ∧
      (sampleFilled.apply sourceHashes rescaled).error = .invalidScale :=
  ⟨sampleFilled_run, by decide +kernel, ⟨by decide +kernel, by decide +kernel⟩, by decide +kernel⟩

end SelfQuant.Oms
