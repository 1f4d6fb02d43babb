import SelfQuant.OmsFillLedger
import SelfQuant.OmsTableRefines
import Mathlib.Algebra.BigOperators.Group.List.Basic

namespace SelfQuant.Oms

open List Function Probe OrderTable StateEngine OrderRecord

structure Standing where
  status : OrderStatus
  inflight : InflightAction
  (cumulativeQuantity remainingQuantity cumulativeNotional averagePrice : Int)
deriving DecidableEq

def OrderRecord.standing (r : OrderRecord) : Standing where
  status := r.status
  inflight := r.inflight
  cumulativeQuantity := r.cumulativeQuantity
  remainingQuantity := r.remainingQuantity
  cumulativeNotional := r.cumulativeNotional
  averagePrice := r.averagePrice

variable (events : List VenueEvent)

def fillsOf : List VenueEvent := events.filter fun e => e.type = .fill

def filledQuantity : Int := ((fillsOf events).map fun e => e.fillQuantity.value).sum

def filledNotional : Int := ((fillsOf events).map fun e => e.fillPrice.value * e.fillQuantity.value).sum

def acked : Bool := events.any fun e => e.type = .newAck

/-- The standing of an order for `quantity` that these acknowledgements and fills give it, in
whatever order they came. -/
def standingAfter (quantity : Int) (events : List VenueEvent) : Standing where
  status := if !acked events then .pendingSubmit
    else if filledQuantity events = 0 then .opened
    else if filledQuantity events = quantity then .filled else .partiallyFilled
  inflight := if acked events then .none else .submit
  cumulativeQuantity := filledQuantity events
  remainingQuantity := quantity - filledQuantity events
  cumulativeNotional := filledNotional events
  averagePrice := (filledNotional events).tdiv (filledQuantity events)

namespace StateEngine

def applyAll (H : OrderHashes) : StateEngine → List VenueEvent → List Error × StateEngine
  | s, [] => ([], s)
  | s, event :: events =>
    ((s.apply H event).error :: (applyAll H (s.apply H event).engine events).1,
      (applyAll H (s.apply H event).engine events).2)

def liveFills (s : StateEngine) : Nat := s.fillDedup.countP fun cell => !s.spareCell cell

end StateEngine

variable {H : OrderHashes} {s s' s₁ : StateEngine} {handle : OrderHandle} {slot : Nat}
  {submitted : SubmitOrderRequest} {venueId : VenueOrderId} {event : VenueEvent}
  {done events events' : List VenueEvent} {r r' r₁ : OrderRecord} {quantity : Int}
  {fills : List AcceptedFill} {ledger : FillLedger}

section Totals

theorem fillsOf_append : fillsOf (events ++ events') = fillsOf events ++ fillsOf events' := filter_append ..

theorem fillsOf_fill (ht : event.type = .fill) : fillsOf [event] = [event] := by
  simp [fillsOf, ht]

theorem fillsOf_ack (ht : event.type = .newAck) : fillsOf [event] = [] := by
  simp [fillsOf, ht]

theorem filledQuantity_append :
    filledQuantity (events ++ events') = filledQuantity events + filledQuantity events' := by
  simp [filledQuantity, fillsOf_append]

theorem filledQuantity_fill (ht : event.type = .fill) :
    filledQuantity (done ++ [event]) = filledQuantity done + event.fillQuantity.value := by
  simp [filledQuantity, fillsOf, ht]

theorem standingAfter_perm (hp : events.Perm events') :
    standingAfter quantity events = standingAfter quantity events' := by
  have hfls : (fillsOf events).Perm (fillsOf events') := hp.filter _
  have hq : filledQuantity events = filledQuantity events' := (hfls.map _).sum_eq
  have hn : filledNotional events = filledNotional events' := (hfls.map _).sum_eq
  have ha : acked events = acked events' := hp.any_eq
  simp only [standingAfter, hq, hn, ha]

structure FillRange (event : VenueEvent) : Prop where
  quantityPos : 0 < event.fillQuantity.value
  pricePos : 0 < event.fillPrice.value
  price : event.fillPrice.value ≤ int64Max

theorem totals_between (lo hi : Int) (h : ∀ f ∈ fills, 0 < f.quantity ∧ lo ≤ f.price ∧ f.price ≤ hi) :
    (fills.length : Int) ≤ (fills.map AcceptedFill.quantity).sum ∧
      lo * (fills.map AcceptedFill.quantity).sum ≤ (fills.map fun f => f.price * f.quantity).sum ∧
      (fills.map fun f => f.price * f.quantity).sum ≤ hi * (fills.map AcceptedFill.quantity).sum := by
  induction fills with
  | nil => simp
  | cons f fills ih =>
    obtain ⟨hs, hl, hh⟩ := ih (forall_mem_cons.mp h).2
    obtain ⟨hq, hlo, hhi⟩ := h f mem_cons_self
    have hl' := mul_le_mul_of_nonneg_right hlo hq.le
    have hh' := mul_le_mul_of_nonneg_right hhi hq.le
    simp only [map_cons, sum_cons, mul_add, length_cons, Nat.cast_succ]
    exact ⟨by omega, by omega, by omega⟩

theorem tdiv_between {n q lo hi : Int} (hq : 0 < q) (hlo : 0 ≤ lo) (hl : lo * q ≤ n) (hh : n ≤ hi * q) :
    lo ≤ n.tdiv q ∧ n.tdiv q ≤ hi := by
  rw [Int.tdiv_eq_ediv_of_nonneg ((mul_nonneg hlo hq.le).trans hl)]
  exact ⟨Int.le_ediv_of_mul_le hq hl, Int.ediv_le_of_le_mul hq hh⟩

theorem filledTotals (h : ∀ e ∈ fillsOf events, FillRange e) :
    0 ≤ filledQuantity events ∧ 0 ≤ filledNotional events ∧
      filledNotional events ≤ int64Max * filledQuantity events := by
  have hbt := @totals_between ((fillsOf events).map fun e => ⟨e.tradeId, e.fillQuantity.value, e.fillPrice.value⟩)
    0 int64Max (forall_mem_map.mpr fun e he => ⟨(h e he).quantityPos, (h e he).pricePos.le, (h e he).price⟩)
  simp only [map_map, comp_def, zero_mul] at hbt
  exact ⟨by unfold filledQuantity; omega, hbt.2⟩

end Totals

theorem EngineReach.averaged (h : EngineReach H s) (ho : s.orders.order slot = some r) :
    r.averagePrice = r.cumulativeNotional.tdiv r.cumulativeQuantity := by
  refine h.orders_keep (P := fun r => r.averagePrice = r.cumulativeNotional.tdiv r.cumulativeQuantity)
    (fun _ => rfl) (fun hs hp => ?_) ho
  cases hs with
  | react _ hr => cases hr <;> exact hp
  | fill => rfl
  | bind | reject | expire | cancel => exact hp

theorem applyFill_overflow (h : (s.applyFill H slot event).error = .arithmeticOverflow) :
    let r := s.orders.record slot
    0 < event.fillQuantity.value ∧ 0 < event.fillPrice.value ∧ event.fillQuantity.value ≤ r.remainingQuantity ∧
      (int64Max < r.cumulativeQuantity + event.fillQuantity.value ∨
        ¬(0 ≤ (filledRecord r event).averagePrice ∧ (filledRecord r event).averagePrice ≤ int64Max)) := by
  have hchk : ∀ handle, (s.checkDuplicate H handle event).1 ≠ .arithmeticOverflow := by
    intro handle
    unfold checkDuplicate
    split
    next => simp
    dsimp only
    split <;> grind
  unfold applyFill int64Min at h
  grind

theorem fill_totals_exact (h : FillRun H s ledger) (hr : s.orders.liveOrder handle = some r)
    (hmax : r.request.quantity.value ≤ int64Max)
    (hf : ∀ f ∈ ledger handle, 0 < f.quantity ∧ 0 < f.price ∧ f.price ≤ int64Max) :
    let quantity := ((ledger handle).map AcceptedFill.quantity).sum
    let notional := ((ledger handle).map fun f => f.price * f.quantity).sum
    r.cumulativeNotional = notional ∧ notional < 2 ^ 127 ∧ r.averagePrice = notional / quantity ∧
    (ledger handle ≠ [] → ∀ lo hi, (∀ f ∈ ledger handle, lo ≤ f.price ∧ f.price ≤ hi) →
      lo ≤ r.averagePrice ∧ r.averagePrice ≤ hi) ∧
    ∀ event t, event.type = .fill → event.fillPrice.value ≤ int64Max →
      resolve H s.orders event = (.ok handle.slot, t) → (s.apply H event).error ≠ .arithmeticOverflow := by
  intro quantity notional
  obtain ⟨-, -, ho, -⟩ := liveOrder_eq_some.mp hr
  obtain ⟨-, hquantity, hnotional⟩ := h.sound.accounted hr
  have hsane := h.reach.sane ho
  obtain ⟨hq, hn, hle⟩ := totals_between 0 int64Max fun f hm => ⟨(hf f hm).1, (hf f hm).2.1.le, (hf f hm).2.2⟩
  have hcum : quantity ≤ int64Max := by
    have := hsane.quantity
    have := hsane.remaining
    omega
  have havg : r.averagePrice = notional / quantity := by
    rw [h.reach.averaged ho, hnotional, hquantity, Int.tdiv_eq_ediv_of_nonneg (by omega)]
  refine ⟨hnotional, ?_, havg, fun hne lo hi hp => ?_, fun event t ht hprice hres hov => ?_⟩
  · exact hle.trans_lt ((mul_le_mul_of_nonneg_left hcum (by decide)).trans_lt (by decide))
  · have := length_pos_iff.mpr hne
    obtain ⟨-, hlo, hhi⟩ := totals_between lo hi fun f hm => ⟨(hf f hm).1, hp f hm⟩
    rw [havg]
    exact ⟨Int.le_ediv_of_mul_le (by omega) hlo, Int.ediv_le_of_le_mul (by omega) hhi⟩
  · obtain ⟨s₁, r₁, hto⟩ := resolvesTo_of_resolve h.reach.valid ho hres
    rw [hto.apply, applyAt_fill (by rw [ht]; rfl)] at hov
    obtain ⟨hqp, hpp, hfit, hbad⟩ := applyFill_overflow hov
    have hsm : r₁.cumulativeQuantity = r.cumulativeQuantity ∧ r₁.remainingQuantity = r.remainingQuantity ∧
        r₁.cumulativeNotional = r.cumulativeNotional := by
      cases hto.resolved <;> exact ⟨rfl, rfl, rfl⟩
    obtain ⟨-, -, rfl⟩ := order_eq_some hto.after
    obtain ⟨hc, hrem, hnot⟩ := hsm
    dsimp only [core] at hc hrem hnot
    rcases hbad with hbad | hbad
    · have := hsane.quantity
      omega
    · have hlow := mul_nonneg hpp.le hqp.le
      have hhigh := mul_le_mul_of_nonneg_right hprice hqp.le
      refine hbad (tdiv_between (by omega) le_rfl (by omega) ?_)
      rw [hnot, hc, hnotional, hquantity, mul_add]
      exact add_le_add hle hhigh

theorem fill_totals_exact_sample :
    ∃ r, sampleFilled.orders.liveOrder ⟨0, 0, 1⟩ = some r ∧ r.averagePrice = 5 := by
  have hr : sampleFilled.orders.liveOrder ⟨0, 0, 1⟩ =
      some (filledRecord (freshRecord sampleOrder 1) sampleFill) := by decide +kernel
  obtain ⟨-, -, havg, -⟩ := fill_totals_exact sampleFilled_run hr (by decide) (by decide +kernel)
  exact ⟨_, hr, havg.trans (by decide +kernel)⟩

theorem ackRecord_of_unchanged (h : ackChanged r = false) : ackRecord r = r := by
  simp only [ackChanged, Bool.or_eq_false_iff, decide_eq_false_iff_not] at h
  obtain ⟨⟨hpd, hsub⟩, hfil⟩ := h
  have hstt : ackStatus r = r.status := if_neg hpd
  have hinfl : ackInflight r = r.inflight := by
    unfold ackInflight
    split
    next hc =>
      rcases hc with hc | hc
      · exact absurd hc hsub
      · by_contra hne
        exact hfil ⟨hc, symm hne⟩
    next => rfl
  unfold ackRecord
  rw [hstt, hinfl]

theorem ackRecord_standing (ht : event.type = .newAck) (hs : r.standing = standingAfter quantity done) :
    (ackRecord r).standing = standingAfter quantity (done ++ [event]) := by
  have hack : acked (done ++ [event]) = true := by simp [acked, ht]
  have hq : filledQuantity (done ++ [event]) = filledQuantity done := by simp [filledQuantity, fillsOf, ht]
  have hn : filledNotional (done ++ [event]) = filledNotional done := by simp [filledNotional, fillsOf, ht]
  simp only [standing, standingAfter, Standing.mk.injEq] at hs
  obtain ⟨hstt, hinfl, hcum, hrem, hnot, havg⟩ := hs
  have hrs : r.remainingQuantity = 0 ↔ filledQuantity done = quantity := by
    omega
  have hack' : ackStatus r = if filledQuantity done = 0 then .opened
      else if filledQuantity done = quantity then .filled else .partiallyFilled := by
    unfold ackStatus
    simp only [hcum, hrs, hstt]
    cases acked done with
    | false => simp
    | true =>
      by_cases hz : filledQuantity done = 0
      · simp [hz]
      · by_cases hf : filledQuantity done = quantity <;> simp [hz, hf]
  have hno : ackInflight r = .none := by
    unfold ackInflight
    rw [hinfl]
    cases acked done <;> simp
  simp only [standing, ackRecord, standingAfter, hack, hq, hn, hack', hno, hcum, hrem, hnot, havg]
  simp

/-- A fill finds the acknowledgement, or waits for it. -/
theorem filledRecord_standing (ht : event.type = .fill) (hpos : 0 < event.fillQuantity.value)
    (hnn : 0 ≤ filledQuantity done) (hfit : filledQuantity done + event.fillQuantity.value ≤ quantity)
    (hs : r.standing = standingAfter quantity done) :
    (filledRecord r event).standing = standingAfter quantity (done ++ [event]) := by
  have hack : acked (done ++ [event]) = acked done := by simp [acked, ht]
  have hq := @filledQuantity_fill event done ht
  have hn : filledNotional (done ++ [event]) =
      filledNotional done + event.fillPrice.value * event.fillQuantity.value := by simp [filledNotional, fillsOf, ht]
  simp only [standing, standingAfter, Standing.mk.injEq] at hs
  obtain ⟨hstt, hinfl, hcum, hrem, hnot, havg⟩ := hs
  have hz : ¬(filledQuantity done + event.fillQuantity.value = 0) := by omega
  have hop : ¬(filledQuantity done = quantity) := by omega
  have hla : quantity - filledQuantity done - event.fillQuantity.value = 0 ↔
      filledQuantity done + event.fillQuantity.value = quantity := by omega
  simp only [standing, filledRecord, standingAfter, hack, hq, hn, hcum, hrem, hnot,
    hstt, hinfl, hla, Standing.mk.injEq, hz, hop, if_false]
  refine ⟨?_, ?_, trivial, by omega, trivial, trivial⟩
  · cases acked done with
    | false => simp
    | true => by_cases h0 : filledQuantity done = 0 <;> simp [h0]
  · cases acked done with
    | false | true => simp

/-- The order is only being waited for: nothing of it has been applied, and the dedup table holds
nothing under its handle. -/
structure Awaited (H : OrderHashes) (s : StateEngine) (handle : OrderHandle)
    (submitted : SubmitOrderRequest) : Prop where
  reach : EngineReach H s
  live : s.orders.liveOrder handle = some (freshRecord submitted handle.generation)
  quantity : submitted.order.quantity.value ≤ int64Max
  unrecorded : ∀ entry, Cell.full entry ∈ s.fillDedup → entry.handle ≠ handle

/-- An acknowledgement or a well-formed fill that names the order by identifiers it has. -/
structure Addresses (handle : OrderHandle) (submitted : SubmitOrderRequest) (venueId : VenueOrderId)
    (event : VenueEvent) : Prop where
  type : event.type = .newAck ∨ event.type = .fill
  handle : event.handle.generation ≠ 0 → event.handle = handle
  token : event.token.sequence ≠ 0 → event.token = submitted.order.token
  client : event.clientOrderId.length ≠ 0 → event.clientOrderId = submitted.order.clientOrderId
  venue : event.venueOrderId.length ≠ 0 → event.venueOrderId = venueId ∧ validId venueId
  named : event.handle.generation ≠ 0 ∨ event.token.sequence ≠ 0 ∨ event.clientOrderId.length ≠ 0
  range : event.type = .fill → FillRange event
  scales : event.type = .fill → event.fillQuantity.scale = submitted.order.quantity.scale ∧
    event.fillPrice.scale = submitted.order.price.scale
  tradeId : event.type = .fill → ¬(event.tradeId.length = 0 ∨ event.tradeId.length > 96)

structure Batch (H : OrderHashes) (s : StateEngine) (handle : OrderHandle)
    (submitted : SubmitOrderRequest) (events : List VenueEvent) : Prop where
  addressed : ∃ venueId, s.orders.findVenue H venueId = none ∧
    ∀ event ∈ events, Addresses handle submitted venueId event
  trades : ((fillsOf events).map fun e => e.tradeId).Nodup
  total : filledQuantity events ≤ submitted.order.quantity.value
  room : s.liveFills + (fillsOf events).length ≤ s.fillDedup.length

theorem Batch.perm (h : Batch H s handle submitted events) (hp : events.Perm events') :
    Batch H s handle submitted events' := by
  have hfls : (fillsOf events).Perm (fillsOf events') := hp.filter _
  obtain ⟨venueId, hfree, haddr⟩ := h.addressed
  refine ⟨⟨venueId, hfree, fun e he => haddr e (hp.mem_iff.mpr he)⟩, ?_, ?_, ?_⟩
  · exact (hfls.map _).nodup_iff.mp h.trades
  · have hq : filledQuantity events = filledQuantity events' := (hfls.map _).sum_eq
    rw [← hq]
    exact h.total
  · rw [← hfls.length_eq]
    exact h.room

structure Progress (H : OrderHashes) (s : StateEngine) (handle : OrderHandle)
    (submitted : SubmitOrderRequest) (venueId : VenueOrderId) (done : List VenueEvent)
    (s' : StateEngine) (r : OrderRecord) : Prop where
  valid : s'.orders.Valid H
  order : s'.orders.order = update s.orders.order handle.slot (some r)
  request : r.request = submitted.order
  generation : r.generation = handle.generation
  venue : r.venueOrderId.length = 0 ∨ r.venueOrderId = venueId
  standing : r.standing = standingAfter submitted.order.quantity.value done
  recorded : ∀ entry, Cell.full entry ∈ s'.fillDedup → entry.handle = handle →
    entry.tradeId ∈ (fillsOf done).map fun e => e.tradeId
  length : s'.fillDedup.length = s.fillDedup.length
  room : s'.liveFills ≤ s.liveFills + (fillsOf done).length

theorem Progress.start (h : Awaited H s handle submitted) :
    Progress H s handle submitted venueId [] s (freshRecord submitted handle.generation) := by
  obtain ⟨_, _, ho, _⟩ := liveOrder_eq_some.mp h.live
  refine ⟨h.reach.valid, ?_, rfl, rfl, .inl rfl, ?_, ?_, rfl, Nat.le_refl _⟩
  · rw [← ho, update_eq_self]
  · simp [OrderRecord.standing, freshRecord, standingAfter, acked, filledQuantity, filledNotional, fillsOf]
  · intro entry he hh
    exact absurd hh (h.unrecorded entry he)

theorem Progress.at (h : Progress H s handle submitted venueId done s' r) : s'.orders.order handle.slot = some r := by
  rw [h.order, update_self]

theorem lookup_isSome_update (ho : s.orders.order slot = some r)
    (ho' : s'.orders.order = update s.orders.order slot (some r')) (hg : r'.generation = r.generation)
    (h : OrderHandle) : (s'.orders.lookup h).isSome ↔ (s.orders.lookup h).isSome := by
  simp only [lookup_isSome_iff, liveOrder_eq_some, ho']
  by_cases hs : h.slot = slot
  · subst hs
    simp [ho, hg]
  · simp [update_of_ne hs]

theorem spareCell_congr (h : ∀ handle, (s'.orders.lookup handle).isSome ↔ (s.orders.lookup handle).isSome)
    (cell : Cell FillDedupEntry) : s'.spareCell cell = s.spareCell cell := by
  cases cell with
  | empty | deleted => rfl
  | full entry => simp only [spareCell, liveEntry, Bool.eq_iff_iff.mpr (h entry.handle)]

theorem countP_set_le {α : Type} (p : α → Bool) (xs : List α) (i : Nat) (a : α) :
    (xs.set i a).countP p ≤ xs.countP p + 1 := by
  induction xs generalizing i with
  | nil => simp
  | cons x xs ih =>
    cases i with
    | zero =>
      rw [set_cons_zero, countP_cons, countP_cons]
      split <;> split <;> omega
    | succ i =>
      have := ih i
      rw [set_cons_succ, countP_cons, countP_cons]
      omega

section

variable (h : Progress H s handle submitted venueId done s' r)

include h

theorem Progress.rewrite {s₂ : StateEngine} (hv : s₂.orders.Valid H)
    (ho : s₂.orders.order = update s'.orders.order handle.slot (some r'))
    (hdedup : s₂.fillDedup = s'.fillDedup) (hreq : r'.request = r.request)
    (hgen : r'.generation = r.generation) (hven : r'.venueOrderId.length = 0 ∨ r'.venueOrderId = venueId)
    {done' : List VenueEvent} (hfls : fillsOf done' = fillsOf done)
    (hs : r'.standing = standingAfter submitted.order.quantity.value done') :
    Progress H s handle submitted venueId done' s₂ r' := by
  have hlv := lookup_isSome_update h.at ho hgen
  refine ⟨hv, ?_, hreq.trans h.request, hgen.trans h.generation, hven, hs, ?_, ?_, ?_⟩
  · rw [ho, h.order, update_idem]
  · rw [hdedup, hfls]
    exact h.recorded
  · rw [hdedup]
    exact h.length
  · rw [hfls]
    refine le_trans (le_of_eq ?_) h.room
    unfold liveFills
    rw [hdedup]
    exact countP_congr fun cell _ => by rw [spareCell_congr hlv]

section

variable (ha : Awaited H s handle submitted) (hfree : s.orders.findVenue H venueId = none)
  (he : Addresses handle submitted venueId event)

include ha hfree he

omit hfree he in
theorem Progress.own : (⟨handle.slot, 0, r.generation⟩ : OrderHandle) = handle := by
  obtain ⟨hz, -⟩ := liveOrder_eq_some.mp ha.live
  rw [h.generation]
  cases handle
  simp_all

theorem Progress.identified : Identified H s'.orders event handle.slot ∧
      (NewVenueId H s'.orders event → r.venueOrderId.length = 0) := by
  obtain ⟨-, -, hfr, -⟩ := liveOrder_eq_some.mp ha.live
  have ho := h.at
  have hclient : validId r.request.clientOrderId := by
    obtain ⟨finished, hrun⟩ := ha.reach.tableRun
    obtain ⟨slots, hq, _⟩ := hrun.queued
    rw [h.request]
    exact (hq.ids hfr).client
  -- A venue identifier of the batch is bound to this order or to none.
  have hven : ∀ {id}, id = venueId → validId id → s'.orders.findVenue H id = none ∨
      s'.orders.findVenue H id = some handle.slot := by
    rintro id rfl hid
    cases hf : s'.orders.findVenue H id with
    | none => exact .inl rfl
    | some slot =>
      obtain ⟨x, hx, hk⟩ := h.valid.findVenue_order hf
      by_cases hs : slot = handle.slot
      · exact .inr (by rw [hs])
      · rw [h.order, update_of_ne hs] at hx
        have hoth := ha.reach.valid.findVenue_of hx (by rw [hk]; exact hid)
        rw [hk, hfree] at hoth
        cases hoth
  refine ⟨⟨fun hgen => ?_, fun hseq => ?_, fun hlen => ?_, fun hlen => ?_, fun hlen => ?_, ?_⟩, ?_⟩
  · rw [he.handle hgen, ← h.own ha]
    exact h.valid.lookup_of_order ho
  · rw [h.valid.findToken_iff]
    exact ⟨r, ho, by rw [he.token hseq, h.request]⟩
  · rw [he.client hlen, ← h.request]
    exact h.valid.findClient_of ho hclient
  · rw [(he.venue hlen).1]
    exact (he.venue hlen).2
  · obtain ⟨heq, hid⟩ := he.venue hlen
    exact hven heq (by rw [heq]; exact hid)
  · rcases he.named with hn | hn | hn
    · exact .inl hn
    · exact .inr (.inl hn)
    · exact .inr (.inr (.inl hn))
  · rintro ⟨hlen, hno⟩
    obtain ⟨heq, hid⟩ := he.venue hlen
    refine h.venue.resolve_right fun hbd => ?_
    have hfound := h.valid.findVenue_of ho (by rw [hbd]; exact hid)
    rw [hbd, ← heq, hno] at hfound
    cases hfound

theorem Progress.resolved : ∃ s₁ r₁, ResolvesTo H s' event handle.slot r s₁ r₁ ∧
      Progress H s handle submitted venueId done s₁ r₁ := by
  obtain ⟨hid, hbind⟩ := h.identified ha hfree he
  obtain ⟨s₁, r₁, hto⟩ := hid.resolvesTo h.valid h.at hbind
  refine ⟨s₁, r₁, hto, ?_⟩
  have hk := hto.resolved.keeps h.valid
  have ho := hto.resolved.order hto.before
  cases hto.resolved with
  | known => exact h
  | bound hn _ => exact h.rewrite hk.valid ho rfl rfl rfl (.inr (he.venue hn.1).1) rfl h.standing

end

theorem Progress.ack (ht : event.type = .newAck) : (s'.applyAt H handle.slot event).error = .ok ∧
      Progress H s handle submitted venueId (done ++ [event])
        (s'.applyAt H handle.slot event).engine (ackRecord r) := by
  obtain ⟨_, _, hco⟩ := order_eq_some h.at
  have hstt := congrArg Standing.status h.standing
  have hrejected : (s'.orders.record handle.slot).status ≠ .rejected := by
    have hne : r.status ≠ .rejected := by
      simp only [OrderRecord.standing, standingAfter] at hstt
      rw [hstt]
      split
      · simp
      · split
        · simp
        · split <;> simp
    rw [hco] at hne
    exact hne
  have hrct : ∃ emit, react (s'.orders.record handle.slot) event =
      .accept (ackRecord (s'.orders.record handle.slot)) true emit := by
    unfold react
    rw [ht]
    rw [if_neg hrejected]
    cases hc : ackChanged (s'.orders.record handle.slot) with
    | true => exact ⟨_, if_pos rfl⟩
    | false => exact ⟨none, by rw [ackRecord_of_unchanged hc]; simp⟩
  obtain ⟨emit, hrct⟩ := hrct
  obtain ⟨_, hw⟩ := applyReaction_accept h.valid h.at hrct
  have hrec : (ackRecord (s'.orders.record handle.slot)).core = ackRecord r := by
    rw [hco]
    rfl
  rw [hrec] at hw
  rw [applyAt_react (by rw [ht]; rfl)]
  refine ⟨hw.ok, h.rewrite hw.keeps.valid hw.order hw.keeps.fillDedup rfl rfl h.venue ?_
    (ackRecord_standing ht h.standing)⟩
  rw [fillsOf_append, fillsOf_ack ht, append_nil]

section

variable (ha : Awaited H s handle submitted)

include ha

theorem Progress.fill (he : Addresses handle submitted venueId event)
    (ht : event.type = .fill) (hdone : ∀ e ∈ fillsOf done, FillRange e)
    (hnew : event.tradeId ∉ (fillsOf done).map fun e => e.tradeId)
    (hfit : filledQuantity done + event.fillQuantity.value ≤ submitted.order.quantity.value)
    (hrm : s.liveFills + (fillsOf done).length < s.fillDedup.length) :
    (s'.applyAt H handle.slot event).error = .ok ∧
      Progress H s handle submitted venueId (done ++ [event])
        (s'.applyAt H handle.slot event).engine (filledRecord r event) := by
  have hrg := he.range ht
  have hqp := hrg.quantityPos
  have hnn := (filledTotals hdone).1
  have hstand := filledRecord_standing ht hqp hnn hfit h.standing
  have hw : WellFormedFill r event := by
    obtain ⟨hq, hp⟩ := he.scales ht
    exact ⟨by rw [h.request]; exact hq, by rw [h.request]; exact hp, hrg.quantityPos, hrg.pricePos⟩
  have hcum : r.cumulativeQuantity = filledQuantity done := congrArg Standing.cumulativeQuantity h.standing
  have hrem : r.remainingQuantity = submitted.order.quantity.value - filledQuantity done :=
    congrArg Standing.remainingQuantity h.standing
  have hmax := ha.quantity
  have havg : (filledRecord r event).averagePrice ≤ int64Max ∧ int64Min ≤ (filledRecord r event).averagePrice := by
    have heq : (filledRecord r event).averagePrice = (filledNotional (done ++ [event])).tdiv
        (filledQuantity (done ++ [event])) := congrArg Standing.averagePrice hstand
    have hrgs : ∀ e ∈ fillsOf (done ++ [event]), FillRange e := by
      intro e hmem
      rw [fillsOf_append, fillsOf_fill ht, mem_append, mem_singleton] at hmem
      rcases hmem with hmem | rfl
      · exact hdone e hmem
      · exact hrg
    obtain ⟨-, hn, hle⟩ := filledTotals hrgs
    have hpos : 0 < filledQuantity (done ++ [event]) := by
      rw [filledQuantity_fill ht]
      omega
    obtain ⟨hlow, hhg⟩ := tdiv_between hpos le_rfl ((zero_mul _).trans_le hn) hle
    rw [heq]
    exact ⟨hhg, by unfold int64Min; omega⟩
  obtain ⟨cell, hce⟩ : ∃ cell, s'.checkDuplicate H handle event = (.ok, cell) := by
    refine checkDuplicate_ok (he.tradeId ht) (fun hi hsm => ?_) ?_
    · refine hnew ?_
      rw [← hsm.2]
      exact h.recorded _ (mem_of_getElem? hi) hsm.1
    · by_contra hno
      have hall : s'.liveFills = s'.fillDedup.length := by
        refine countP_eq_length.mpr fun cell hc => ?_
        have hspare : ¬(s'.spareCell cell) := fun hs => hno ⟨cell, hc, hs⟩
        simpa using hspare
      have := h.room
      have := h.length
      omega
  rw [← h.own ha] at hce
  have hf := applyFill_filled h.valid h.at hw hce (by omega) (by omega) havg
  rw [applyAt_fill (by rw [ht]; rfl)]
  have hlv := lookup_isSome_update h.at hf.order rfl
  refine ⟨hf.ok, hf.valid, ?_, h.request, h.generation, h.venue, hstand, ?_, ?_, ?_⟩
  · rw [hf.order, h.order, update_idem]
  · intro entry hent hh
    rw [fillsOf_append, fillsOf_fill ht, map_append, mem_append]
    rw [hf.fillDedup] at hent
    rcases mem_or_eq_of_mem_set hent with hold | hent
    · exact .inl (h.recorded entry hold hh)
    · cases hent
      exact .inr (by simp [fillEntry])
  · rw [hf.fillDedup, length_set]
    exact h.length
  · rw [fillsOf_append, fillsOf_fill ht, length_append]
    refine le_trans ?_ (Nat.add_le_add_right h.room 1)
    unfold liveFills
    rw [hf.fillDedup, countP_congr fun c _ => by rw [spareCell_congr hlv]]
    exact countP_set_le _ _ _ _

theorem Progress.step (hfree : s.orders.findVenue H venueId = none)
    (he : Addresses handle submitted venueId event) (hdone : ∀ e ∈ fillsOf done, FillRange e)
    (hnew : event.type = .fill → event.tradeId ∉ (fillsOf done).map fun e => e.tradeId)
    (hfit : event.type = .fill → filledQuantity done + event.fillQuantity.value ≤ submitted.order.quantity.value)
    (hrm : event.type = .fill → s.liveFills + (fillsOf done).length < s.fillDedup.length) :
    (s'.apply H event).error = .ok ∧
      ∃ r', Progress H s handle submitted venueId (done ++ [event]) (s'.apply H event).engine r' := by
  obtain ⟨s₁, r₁, hto, h₁⟩ := h.resolved ha hfree he
  rw [hto.apply]
  rcases he.type with ht | ht
  · obtain ⟨hok, h'⟩ := h₁.ack ht
    exact ⟨hok, _, h'⟩
  · obtain ⟨hok, h'⟩ := h₁.fill ha he ht hdone (hnew ht) (hfit ht) (hrm ht)
    exact ⟨hok, _, h'⟩

/-- The run: `done` is behind, `events` are still to come. -/
theorem Progress.run (hfree : s.orders.findVenue H venueId = none)
    (haddr : ∀ e ∈ done ++ events, Addresses handle submitted venueId e)
    (htrd : ((fillsOf (done ++ events)).map fun e => e.tradeId).Nodup)
    (htot : filledQuantity (done ++ events) ≤ submitted.order.quantity.value)
    (hrm : s.liveFills + (fillsOf (done ++ events)).length ≤ s.fillDedup.length) :
    (s'.applyAll H events).1 = events.map (fun _ => .ok) ∧
      ∃ r', Progress H s handle submitted venueId (done ++ events) (s'.applyAll H events).2 r' := by
  induction events generalizing done s' r with
  | nil => exact ⟨rfl, r, by simpa [applyAll] using h⟩
  | cons event events ih =>
    have hrg : ∀ {es : List VenueEvent}, (∀ e ∈ es, e ∈ done ++ event :: events) → ∀ e ∈ fillsOf es, FillRange e := by
      intro es hsub e hmem
      obtain ⟨hes, ht⟩ := mem_filter.mp hmem
      exact (haddr e (hsub e hes)).range (by simpa using ht)
    have hrs : ∀ e ∈ fillsOf events, FillRange e := hrg fun e hmem => by simp [hmem]
    have hlat := (filledTotals hrs).1
    have hspl : done ++ event :: events = (done ++ [event]) ++ events := by simp
    have hfls : event.type = .fill → fillsOf (done ++ event :: events) = fillsOf done ++ event :: fillsOf events := by
      intro ht
      rw [hspl, fillsOf_append, fillsOf_append, fillsOf_fill ht]
      simp
    have hnew : event.type = .fill → event.tradeId ∉ (fillsOf done).map fun e => e.tradeId := by
      intro ht hmem
      rw [hfls ht, map_append, nodup_append] at htrd
      exact htrd.2.2 _ hmem _ (by simp) rfl
    have hfit : event.type = .fill →
        filledQuantity done + event.fillQuantity.value ≤ submitted.order.quantity.value := by
      intro ht
      rw [hspl, filledQuantity_append, filledQuantity_fill ht] at htot
      omega
    have hce : event.type = .fill → s.liveFills + (fillsOf done).length < s.fillDedup.length := by
      intro ht
      rw [hfls ht, length_append, length_cons] at hrm
      omega
    obtain ⟨hok, r', h'⟩ := h.step ha hfree (haddr event (by simp)) (hrg fun e hmem => by simp [hmem]) hnew hfit hce
    rw [hspl] at haddr htrd htot hrm
    obtain ⟨hall, r'', h''⟩ := ih h' haddr htrd htot hrm
    refine ⟨?_, r'', ?_⟩
    · simp only [applyAll, map_cons, hok, hall]
    · rw [hspl]
      exact h''

end

end

/-- Whatever the order in which they are applied, every event is accepted and the order ends up with
the standing that the multiset of its events gives it. -/
theorem acks_and_fills_commute (ha : Awaited H s handle submitted)
    (hb : Batch H s handle submitted events) (hp : events.Perm events') :
    (s.applyAll H events').1 = events'.map (fun _ => .ok) ∧
      ∃ r, (s.applyAll H events').2.orders.liveOrder handle = some r ∧
        r.standing = standingAfter submitted.order.quantity.value events := by
  have hb' := hb.perm hp
  obtain ⟨venueId, hfree, haddr⟩ := hb'.addressed
  obtain ⟨hz, hg, _, _⟩ := liveOrder_eq_some.mp ha.live
  have hstart : Progress H s handle submitted venueId [] s (freshRecord submitted handle.generation) :=
    Progress.start ha
  obtain ⟨hok, r, h⟩ := hstart.run ha hfree haddr hb'.trades hb'.total hb'.room
  refine ⟨hok, r, liveOrder_eq_some.mpr ⟨hz, hg, h.at, h.generation⟩, ?_⟩
  rw [standingAfter_perm hp]
  exact h.standing

def samplePart (trade : UInt8) (quantity price : Int) : VenueEvent where
  type := .fill
  token := ⟨1, 1, 1⟩
  tradeId := ⟨[trade]⟩
  fillQuantity := ⟨quantity, 0⟩
  fillPrice := ⟨price, 0⟩

def sampleBatch : List VenueEvent :=
  [{ type := .newAck, token := ⟨1, 1, 1⟩, venueOrderId := ⟨[88]⟩ }, samplePart 84 4 5, samplePart 85 6 4]

def sampleSubmitted : StateEngine := (sampleEngine.perform sourceHashes (.submit sampleOrder)).engine

theorem sampleSubmitted_awaited : Awaited sourceHashes sampleSubmitted ⟨0, 0, 1⟩ sampleOrder := by
  refine ⟨sampleEngine_reach.next _, by decide +kernel, by decide, fun entry hm => ?_⟩
  have hemp : ∀ cell ∈ sampleSubmitted.fillDedup, cell = .empty := by decide +kernel
  cases hemp _ hm

theorem samplePart_addresses (trade : UInt8) {quantity price : Int} (hq : 0 < quantity)
    (hp : 0 < price) (hmax : price ≤ int64Max) :
    Addresses ⟨0, 0, 1⟩ sampleOrder ⟨[88]⟩ (samplePart trade quantity price) where
  type := .inr rfl
  handle h := absurd rfl h
  token _ := rfl
  client h := absurd rfl h
  venue h := absurd rfl h
  named := .inr (.inl Nat.one_ne_zero)
  range _ := ⟨hq, hp, hmax⟩
  scales _ := ⟨rfl, rfl⟩
  tradeId _ := by simp [samplePart, FixedId.length]

theorem sampleBatch_batch : Batch sourceHashes sampleSubmitted ⟨0, 0, 1⟩ sampleOrder sampleBatch := by
  refine ⟨⟨⟨[88]⟩, by decide +kernel, fun event hm => ?_⟩, by decide +kernel, by decide +kernel, by decide +kernel⟩
  simp only [sampleBatch, mem_cons, not_mem_nil, or_false] at hm
  rcases hm with rfl | rfl | rfl
  · exact ⟨.inl rfl, fun h => absurd rfl h, fun _ => rfl, fun h => absurd rfl h,
      fun _ => ⟨rfl, by decide⟩, .inr (.inl (by decide)), fun h => (by cases h),
      fun h => (by cases h), fun h => (by cases h)⟩
  · exact samplePart_addresses 84 (by decide) (by decide) (by decide)
  · exact samplePart_addresses 85 (by decide) (by decide) (by decide)

theorem acks_and_fills_commute_sample :
    ∃ r, (sampleSubmitted.applyAll sourceHashes sampleBatch.reverse).2.orders.liveOrder ⟨0, 0, 1⟩ =
      some r ∧ r.standing = ⟨.filled, .none, 10, 0, 44, 4⟩ := by
  obtain ⟨_, r, hr, hs⟩ := acks_and_fills_commute sampleSubmitted_awaited sampleBatch_batch
    (reverse_perm sampleBatch).symm
  exact ⟨r, hr, hs.trans (by decide +kernel)⟩

/-- A fill that names its order by venue identifier alone is lost before the acknowledgement that
brings the identifier, and a fill at no price is refused wherever it comes. -/
theorem acks_and_fills_not_commute :
    let ack : VenueEvent := { type := .newAck, token := ⟨1, 1, 1⟩, venueOrderId := ⟨[88]⟩ }
    let fill := { samplePart 84 4 5 with token := {}, venueOrderId := ⟨[88]⟩ }
    EngineReach sourceHashes sampleSubmitted ∧
      (sampleSubmitted.applyAll sourceHashes [ack, fill]).1 = [.ok, .ok] ∧
      (sampleSubmitted.applyAll sourceHashes [fill, ack]).1 = [.notFound, .ok] ∧
      (sampleSubmitted.applyAll sourceHashes [ack, samplePart 84 4 0]).1 = [.ok, .invalidArgument] :=
  ⟨sampleEngine_reach.next _, by decide +kernel, by decide +kernel, by decide +kernel⟩

end SelfQuant.Oms
