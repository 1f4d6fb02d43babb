import SelfQuant.OmsTableTurns

namespace SelfQuant.Oms

open List Function Probe Bool

namespace OrderTable

variable {H : OrderHashes} {t t' : OrderTable} {slot : Nat} {handle : OrderHandle}
  {slots slots' : List Nat} {finished : List OrderHandle} {r : OrderRecord}
  {submitted : SubmitOrderRequest}

def Taken (t : OrderTable) (slot : Nat) : Prop := slot < t.capacity ∧ (t.record slot).occupied

def Full (t : OrderTable) : Prop := ∀ slot < t.capacity, (t.record slot).occupied

def terminalSlots (t : OrderTable) : List Nat := walk kMissing t.nextOf t.capacity t.terminalHead.slot

def finishedSlots (t : OrderTable) : List Nat :=
  (range t.capacity).filter fun slot => (t.record slot).occupied && isTerminal (t.record slot).status

/-- The history of the finished orders of a table, oldest first, after one more call: those that are
still there, and then those that were not finished before. -/
def finishedAfter (t : OrderTable) (finished : List OrderHandle) : List OrderHandle :=
  finished.filter (fun handle => (t.lookup handle).isSome) ++
    (t.finishedSlots.map t.handleOf).filter fun handle => handle ∉ finished

structure NewKeys (t : OrderTable) (submitted : SubmitOrderRequest) : Prop where
  sequence : submitted.order.token.sequence ≠ 0
  clientId : validId submitted.order.clientOrderId
  quantity : 0 < submitted.order.quantity.value
  token : ∀ slot, t.Taken slot → (t.record slot).request.token ≠ submitted.order.token
  client : ∀ slot, t.Taken slot → (t.record slot).request.clientOrderId ≠ submitted.order.clientOrderId

def withOrder (orders : OrderHandle → Option OrderRecord) (handle : OrderHandle)
    (submitted : SubmitOrderRequest) : OrderHandle → Option OrderRecord :=
  update orders handle (some (freshRecord submitted handle.generation))

/-- Insertion into a finite map that evicts the oldest finished order when it is full. -/
structure InsertsOrEvicts (H : OrderHashes) (t : OrderTable) (finished : List OrderHandle)
    (submitted : SubmitOrderRequest) : Prop where
  refuses : (∀ slot < t.capacity, (t.record slot).occupied ∧ ¬isTerminal (t.record slot).status) →
    t.insert H submitted = (.capacityExceeded, {}, t)
  accepts : ¬(∀ slot < t.capacity, (t.record slot).occupied ∧ ¬isTerminal (t.record slot).status) →
    ∃ handle t', t.insert H submitted = (.ok, handle, t') ∧
      (¬t.Full → t.liveOrder handle = none ∧ t'.liveOrder = withOrder t.liveOrder handle submitted ∧
        t'.terminalSlots.map t'.handleOf = finished) ∧
      (t.Full → ∃ oldest rest, finished = oldest :: rest ∧ t.liveOrder handle = none ∧
        t'.liveOrder = withOrder (update t.liveOrder oldest none) handle submitted ∧
        t'.terminalSlots.map t'.handleOf = rest)

/-- A finite map of orders with three keys, whose finished orders stand in the order of `finished`. -/
structure FiniteMap (H : OrderHashes) (t : OrderTable) (finished : List OrderHandle) : Prop where
  token : ∀ token slot, t.findToken H token = some slot ↔ t.Taken slot ∧ (t.record slot).request.token = token
  client : ∀ id slot, t.findClient H id = some slot ↔ t.Taken slot ∧ (t.record slot).request.clientOrderId = id
  venue : ∀ id slot, t.findVenue H id = some slot ↔ t.Taken slot ∧ (t.record slot).venueOrderId = id ∧ id.length ≠ 0
  listed : t.terminalSlots.map t.handleOf = finished
  once : t.terminalSlots.Nodup
  terminal : ∀ slot, slot ∈ t.terminalSlots ↔ t.Taken slot ∧ isTerminal (t.record slot).status
  size : t.size = t.occupiedCount
  insert : ∀ submitted, t.NewKeys submitted → InsertsOrEvicts H t finished submitted

theorem taken_iff : t.Taken slot ↔ t.order slot = some (t.record slot).core := by
  unfold Taken capacity order
  constructor
  · intro h
    rw [if_pos h]
  · intro h
    by_contra hn
    rw [if_neg hn] at h
    cases h

theorem order_taken (h : t.order slot = some r) : t.Taken slot ∧ r = (t.record slot).core := by
  obtain ⟨hb, hocc, hco⟩ := order_eq_some h
  exact ⟨⟨hb, hocc⟩, hco⟩

theorem full_iff (hv : Valid H t) : t.Full ↔ t.freeSlots = [] := by
  rw [eq_nil_iff_forall_not_mem]
  constructor
  · intro hf s hs
    have hb := ((hv.freeIff s).mp hs).1
    have hu := hv.unused_of_free hs
    rw [hf s hb] at hu
    cases hu
  · intro hf s hs
    by_contra hocc
    refine hf s ((hv.freeIff s).mpr ⟨hs, ?_⟩)
    unfold order
    rw [if_neg fun h => hocc h.2]

theorem NewKeys.fresh (hv : Valid H t) (h : NewKeys t submitted) : Fresh H t submitted := by
  refine ⟨h.sequence, h.clientId, ?_, ?_⟩
  · by_contra hl
    obtain ⟨handle, hl⟩ := Option.ne_none_iff_exists'.mp hl
    obtain ⟨r, ho, hk, _⟩ := (hv.token.agrees _ handle).mp hl
    obtain ⟨ht, rfl⟩ := order_taken ho
    exact h.token _ ht (Option.some.inj hk)
  · by_contra hl
    obtain ⟨handle, hl⟩ := Option.ne_none_iff_exists'.mp hl
    obtain ⟨r, ho, hk, _⟩ := (hv.client.agrees _ handle).mp hl
    obtain ⟨ht, rfl⟩ := order_taken ho
    exact h.client _ ht (Option.some.inj hk)

theorem liveOrder_withOrder {gen : Nat} {orders : OrderHandle → Option OrderRecord}
    (ho : t'.order = update t.order slot (some (freshRecord submitted gen)))
    (hg : gen ≠ 0) (hsl : ∀ handle, handle.slot = slot → orders handle = none)
    (hoth : ∀ handle, handle.slot ≠ slot → orders handle = t.liveOrder handle) :
    t'.liveOrder = withOrder orders ⟨slot, 0, gen⟩ submitted := by
  funext handle
  rw [withOrder, update_apply]
  split
  next he =>
    rw [liveOrder_eq_some, he, ho]
    exact ⟨rfl, hg, update_self _ _ _, rfl⟩
  next he =>
    by_cases hs : handle.slot = slot
    · rw [hsl handle hs, Option.eq_none_iff_forall_ne_some]
      intro x hx
      obtain ⟨hz, _, hx, hgen⟩ := liveOrder_eq_some.mp hx
      rw [ho, hs, update_self] at hx
      cases hx
      cases handle
      simp_all [freshRecord]
    · rw [hoth handle hs]
      ext x
      rw [liveOrder_eq_some, liveOrder_eq_some, ho, update_of_ne hs]

theorem liveOrder_of_unused (h : t.order handle.slot = none) : t.liveOrder handle = none := by
  rw [Option.eq_none_iff_forall_ne_some]
  intro x hx
  rw [(liveOrder_eq_some.mp hx).2.2.1] at h
  cases h

theorem liveOrder_stale (h : handle ≠ t.handleOf handle.slot) : t.liveOrder handle = none := by
  rw [Option.eq_none_iff_forall_ne_some]
  intro x hx
  obtain ⟨hz, _, ho, hg⟩ := liveOrder_eq_some.mp hx
  obtain ⟨_, rfl⟩ := order_taken ho
  cases handle
  simp_all [handleOf, OrderRecord.core]

theorem Turned.handleOf_eq (h : Turned H t slots t' slots') (hs' : slot ∈ slots')
    (hs : slot ∈ slots) : t'.handleOf slot = t.handleOf slot := by
  obtain ⟨new, rfl, _, hnew⟩ := h.turn
  rcases mem_append.mp hs' with hm | hm
  · have hstay : Stays t t' slot := by simpa using (mem_filter.mp hm).2
    simp [handleOf, hstay.2]
  · exact absurd hs (hnew slot hm)

theorem lookup_handleOf (hg : (t.record slot).generation ≠ 0) (hb : slot < t'.records.length) :
    (t'.lookup (t.handleOf slot)).isSome ↔ Stays t t' slot := by
  have hc : ¬((t.record slot).generation = 0 ∨ 0 ≠ 0 ∨ t'.records.length ≤ slot) := by
    simpa [hg] using hb
  unfold lookup handleOf Stays
  rw [if_neg hc]
  split <;> simp_all

theorem filter_range_of_short {new : List Nat} {n : Nat} (hlen : new.length ≤ 1)
    (hb : ∀ s ∈ new, s < n) : (range n).filter (fun s => s ∈ new) = new := by
  match new, hlen with
  | [], _ => simp
  | [x], _ =>
    have hx : x ∈ range n := mem_range.mpr (hb x (by simp))
    simp only [mem_singleton]
    rw [show (fun s => decide (s = x)) = fun s => s == x from rfl, filter_beq, count_eq_one_of_mem nodup_range hx]
    rfl

section

variable (hq : Queued H t slots)

include hq

theorem Queued.terminalSlots_eq : t.terminalSlots = slots := by
  have hlen : slots.length ≤ t.records.length := by
    have hsub : slots ⊆ range t.records.length := fun s hs => mem_range.mpr (hq.list.lt hs)
    simpa using (hq.list.nodup.subperm hsub).length_le
  have hhe : t.terminalHead.slot = slots.headD kMissing := by
    rw [hq.list.head]
    cases slots <;> rfl
  unfold terminalSlots capacity
  rw [hhe]
  exact hq.list.linked.walk hq.list.missing hlen

theorem Queued.mem_iff : slot ∈ slots ↔ t.Taken slot ∧ isTerminal (t.record slot).status := by
  constructor
  · intro hs
    exact ⟨⟨hq.list.lt hs, (hq.list.finished slot hs).1⟩, (hq.list.finished slot hs).2⟩
  · intro h
    exact hq.complete slot h.1.1 h.1.2 h.2

theorem Queued.findClient_iff {id : ClientOrderId} : t.findClient H id = some slot ↔
      t.Taken slot ∧ (t.record slot).request.clientOrderId = id := by
  constructor
  · intro h
    obtain ⟨r, ho, hk⟩ := hq.valid.findClient_order h
    obtain ⟨ht, rfl⟩ := order_taken ho
    exact ⟨ht, hk⟩
  · rintro ⟨ht, rfl⟩
    have ho := taken_iff.mp ht
    have hfd := hq.valid.findClient_of ho (hq.ids ho).client
    exact hfd

theorem Queued.findVenue_iff {id : VenueOrderId} : t.findVenue H id = some slot ↔
      t.Taken slot ∧ (t.record slot).venueOrderId = id ∧ id.length ≠ 0 := by
  constructor
  · intro h
    obtain ⟨r, ho, hk⟩ := hq.valid.findVenue_order h
    obtain ⟨ht, rfl⟩ := order_taken ho
    refine ⟨ht, hk, ?_⟩
    unfold findVenue at h
    split at h
    next hid =>
      simp only [validId, and_eq_true, decide_eq_true_eq] at hid
      exact ne_of_gt hid.1
    next => cases h
  · rintro ⟨ht, rfl, hlen⟩
    have ho := taken_iff.mp ht
    have hfd := hq.valid.findVenue_of ho ((hq.ids ho).venue hlen)
    exact hfd

theorem Queued.findToken_iff {token : RequestToken} :
    t.findToken H token = some slot ↔ t.Taken slot ∧ (t.record slot).request.token = token := by
  rw [hq.valid.findToken_iff]
  constructor
  · rintro ⟨r, ho, hk⟩
    obtain ⟨ht, rfl⟩ := order_taken ho
    exact ⟨ht, hk⟩
  · rintro ⟨ht, hk⟩
    exact ⟨_, taken_iff.mp ht, hk⟩

theorem Queued.all_open_iff :
    (∀ slot < t.capacity, (t.record slot).occupied ∧ ¬isTerminal (t.record slot).status) ↔
      t.freeSlots = [] ∧ slots = [] := by
  rw [← full_iff hq.valid, eq_nil_iff_forall_not_mem]
  constructor
  · intro h
    refine ⟨fun s hs => (h s hs).1, fun s hs => ?_⟩
    exact (h s (hq.list.lt hs)).2 (hq.list.finished s hs).2
  · intro ⟨hfu, hno⟩ s hs
    exact ⟨hfu s hs, fun ht => hno s (hq.complete s hs (hfu s hs) ht)⟩

theorem Queued.insertsOrEvicts (hid : ∀ s ∈ slots, (t.record s).inflight = .none)
    (hk : NewKeys t submitted) : InsertsOrEvicts H t (slots.map t.handleOf) submitted := by
  have hop := hq.all_open_iff
  rcases hq.insert_fresh hid (hk.fresh hq.valid) hk.quantity with
    ⟨hfe, hnil, he⟩ | ⟨slot, t', slots', he, htn, ho, hcs⟩
  · exact ⟨fun _ => he, fun hno => absurd (hop.mpr ⟨hfe, hnil⟩) hno⟩
  have hnew : t.liveOrder ⟨slot, 0, nextGeneration (t.record slot).generation⟩ = none :=
    liveOrder_stale fun h => nextGeneration_ne_self _ (congrArg OrderHandle.generation h)
  have hlisted : (∀ s ∈ slots', s ∈ slots) → t'.terminalSlots.map t'.handleOf = slots'.map t.handleOf := by
    intro hsub
    rw [htn.queued.terminalSlots_eq]
    exact map_congr_left fun s hs => htn.handleOf_eq hs (hsub s hs)
  refine ⟨fun hall => ?_, fun _ => ⟨_, t', he, fun hrm => ?_, fun hfu => ?_⟩⟩
  · obtain ⟨hfe, hnil⟩ := hop.mp hall
    rcases hcs with ⟨hmem, _⟩ | ⟨_, hcn⟩
    · simp [hfe] at hmem
    · simp [hnil] at hcn
  · rw [full_iff hq.valid] at hrm
    obtain ⟨hmem, rfl⟩ := hcs.resolve_right fun h => hrm h.1
    refine ⟨hnew, liveOrder_withOrder ho (nextGeneration_ne_zero _) (fun handle hs => ?_)
      fun _ _ => rfl, hlisted fun _ hs => hs⟩
    refine liveOrder_of_unused ?_
    rw [hs]
    exact ((hq.valid.freeIff slot).mp hmem).2
  · rw [full_iff hq.valid] at hfu
    obtain ⟨_, rfl⟩ := hcs.resolve_left fun h => by simp [hfu] at h
    refine ⟨t.handleOf slot, slots'.map t.handleOf, rfl, hnew,
      liveOrder_withOrder ho (nextGeneration_ne_zero _) (fun handle hs => ?_) (fun handle hs => ?_),
      hlisted fun _ hs => mem_cons_of_mem _ hs⟩
    · rw [update_apply]
      split
      next => rfl
      next hold => exact liveOrder_stale (by rw [hs]; exact hold)
    · refine update_of_ne (fun he => hs ?_) _ _
      rw [he]
      rfl

theorem Queued.finiteMap (hid : ∀ s ∈ slots, (t.record s).inflight = .none) :
    FiniteMap H t (slots.map t.handleOf) := by
  have hsls := hq.terminalSlots_eq
  refine ⟨fun _ _ => hq.findToken_iff, fun _ _ => hq.findClient_iff, fun _ _ => hq.findVenue_iff,
    by rw [hsls], by rw [hsls]; exact hq.list.nodup, fun slot => ?_, hq.size,
    fun _ hk => hq.insertsOrEvicts hid hk⟩
  rw [hsls]
  exact hq.mem_iff

theorem Turned.finishedAfter (h : Turned H t slots t' slots') :
    t'.finishedAfter (slots.map t.handleOf) = slots'.map t'.handleOf := by
  have htn := h
  obtain ⟨new, hsls, hlen, hnew⟩ := h.turn
  have hmemNew : ∀ s ∈ new, s ∈ slots' := fun s hs => by rw [hsls]; simp [hs]
  unfold OrderTable.finishedAfter
  rw [hsls, map_append]
  congr 1
  · rw [filter_map]
    have hkt : slots.filter ((fun handle => (t'.lookup handle).isSome) ∘ t.handleOf) =
        slots.filter fun s => Stays t t' s := by
      refine filter_congr fun s hs => eq_iff_iff.mpr ?_
      rw [decide_eq_true_iff]
      refine lookup_handleOf ?_ (by rw [htn.length]; exact hq.list.lt hs)
      have hpos := hq.valid.generationPos (order_of_occupied (hq.list.lt hs) (hq.list.finished s hs).1)
      exact hpos
    rw [hkt]
    refine map_congr_left fun s hs => ?_
    have hstay : Stays t t' s := by simpa using (mem_filter.mp hs).2
    simp [handleOf, hstay.2]
  · rw [filter_map]
    congr 1
    unfold finishedSlots
    rw [filter_filter]
    refine (filter_congr fun s hs => ?_).trans (filter_range_of_short hlen fun s hs =>
      htn.queued.list.lt (hmemNew s hs))
    have hb : s < t'.records.length := mem_range.mp hs
    have hmem : s ∈ slots' ↔ (t'.record s).occupied ∧ isTerminal (t'.record s).status := by
      rw [htn.queued.mem_iff]
      simp [Taken, capacity, hb]
    have hold : t'.handleOf s ∈ slots.map t.handleOf → s ∈ slots := by
      intro hm
      obtain ⟨s₀, hs₀, he⟩ := mem_map.mp hm
      have : s₀ = s := congrArg OrderHandle.slot he
      exact this ▸ hs₀
    refine eq_iff_iff.mpr ?_
    simp only [and_eq_true, comp_apply, decide_eq_true_eq, decide_not, not_eq_true', decide_eq_false_iff_not]
    constructor
    · rintro ⟨hno, hfin⟩
      have hs' : s ∈ slots' := hmem.mpr hfin
      rw [hsls] at hs'
      rcases mem_append.mp hs' with hk | hk
      · refine absurd (mem_map.mpr ⟨s, (mem_filter.mp hk).1, ?_⟩) hno
        exact (htn.handleOf_eq (hmem.mpr hfin) (mem_filter.mp hk).1).symm
      · exact hk
    · intro hk
      exact ⟨fun hm => hnew s hk (hold hm), hmem.mp (hmemNew s hk)⟩

end

end OrderTable

open OrderTable

variable {H : OrderHashes} {s : StateEngine} {finished : List OrderHandle}

/-- A run of an engine together with the history of its finished orders. -/
inductive TableRun (H : OrderHashes) : StateEngine → List OrderHandle → Prop
  | start {orderCapacity fillDedupCapacity : Nat} {s : StateEngine}
      (h : StateEngine.create orderCapacity fillDedupCapacity = some s) : TableRun H s []
  | next {s : StateEngine} {finished : List OrderHandle} (h : TableRun H s finished) (op : EngineOp) :
      TableRun H (s.perform H op).engine ((s.perform H op).engine.orders.finishedAfter finished)

theorem TableRun.reach (h : TableRun H s finished) : EngineReach H s := by
  induction h with
  | start h => exact .start h
  | next _ op ih => exact .next ih op

theorem TableRun.queued (h : TableRun H s finished) :
    ∃ slots, Queued H s.orders slots ∧ finished = slots.map s.orders.handleOf := by
  induction h with
  | start h =>
    obtain ⟨_, ht, _⟩ := create_orders h
    exact ⟨[], Queued.create ht, rfl⟩
  | next hrun op ih =>
    obtain ⟨slots, hq, rfl⟩ := ih
    have hid := fun {slot : Nat} {r : OrderRecord} (ho : _ = some r) =>
      (@EngineReach.sane H _ r slot hrun.reach ho).terminal
    obtain ⟨slots', htn⟩ := (StateEngine.Turning.mk hq hid).perform op
    exact ⟨slots', htn.queued, htn.finishedAfter hq⟩

theorem EngineReach.tableRun (h : EngineReach H s) : ∃ finished, TableRun H s finished := by
  induction h with
  | start h => exact ⟨[], .start h⟩
  | next _ op ih =>
    obtain ⟨finished, hrun⟩ := ih
    exact ⟨_, hrun.next op⟩

theorem orderTable_finiteMap (h : TableRun H s finished) : FiniteMap H s.orders finished := by
  obtain ⟨slots, hq, rfl⟩ := h.queued
  refine hq.finiteMap fun slot hs => ?_
  have ho := order_of_occupied (hq.list.lt hs) (hq.list.finished slot hs).1
  have hsane := h.reach.sane ho
  exact hsane.terminal (hq.list.finished slot hs).2

theorem orderTable_finiteMap_sample :
    let s := ((sampleEngine.perform sourceHashes (.submit sampleOrder)).engine.perform sourceHashes
      (.rejectLocal ⟨0, 0, 1⟩)).engine
    TableRun sourceHashes s [⟨0, 0, 1⟩] ∧ FiniteMap sourceHashes s.orders [⟨0, 0, 1⟩] := by
  intro s
  have hrun : TableRun sourceHashes s _ :=
    ((TableRun.start (Option.some_get _).symm).next (.submit sampleOrder)).next (.rejectLocal ⟨0, 0, 1⟩)
  have hfinished : s.orders.finishedAfter ((sampleEngine.perform sourceHashes
      (.submit sampleOrder)).engine.orders.finishedAfter []) = [⟨0, 0, 1⟩] := by decide +kernel
  have hone : TableRun sourceHashes s [⟨0, 0, 1⟩] := hfinished ▸ hrun
  exact ⟨hone, orderTable_finiteMap hone⟩

end SelfQuant.Oms
