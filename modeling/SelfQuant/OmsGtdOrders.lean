import SelfQuant.OmsSchedulerOps
import SelfQuant.OmsTells

namespace SelfQuant.Oms

open Function DeadlineScheduler OmsApi Option

structure Deadlines where
  scheduler : DeadlineScheduler
  gtdHandles : List OrderHandle
  orderDeadlines : List DeadlineHandle
  deadlineDepth : Nat

def OmsApi.deadlines (api : OmsApi) : Deadlines :=
  ⟨api.scheduler, api.gtdHandles, api.orderDeadlines, api.deadlineDepth⟩

/-- The order `handle` of `slot` and a waiting deadline point at each other. -/
structure Holds (d : Deadlines) (slot : Nat) (handle : OrderHandle) (deadline : Deadline)
    (sequence : Nat) : Prop where
  linked : d.orderDeadlines[slot]? = some deadline.handle
  waiting : d.scheduler.pending deadline.handle.slot = some (deadline, sequence)
  back : d.gtdHandles[deadline.handle.slot]? = some handle

/-- The deadlines stand for the orders of `g`, by slot, and for no others, in a table of
`capacity` orders. -/
structure Synced (capacity : Nat) (g : Nat → Option OrderHandle) (d : Deadlines) : Prop where
  wf : WF d.scheduler
  bounded : d.scheduler.capacity ≤ 2 ^ 32 - 1
  handles : d.gtdHandles.length = d.scheduler.capacity
  orders : d.orderDeadlines.length = capacity
  named : ∀ slot handle, g slot = some handle → handle.slot = slot
  owed : ∀ slot handle, g slot = some handle → ∃ deadline sequence, Holds d slot handle deadline sequence
  waits : ∀ place deadline sequence, d.scheduler.pending place = some (deadline, sequence) →
    ∃ slot handle, g slot = some handle ∧ Holds d slot handle deadline sequence
  idle : ∀ slot deadline, g slot = none → d.orderDeadlines[slot]? = some deadline → deadline.generation = 0
  depth : d.deadlineDepth = d.scheduler.size

structure Steady (capacity : Nat) (g : Nat → Option OrderHandle) (d : Deadlines) : Prop
    extends Synced capacity g d where
  quiet : Quiet d.scheduler

variable {api : OmsApi} {scheduler : DeadlineScheduler} {g : Nat → Option OrderHandle}
  {handle handle' : OrderHandle} {deadline deadline' : Deadline} {entry : DeadlineHandle}
  {cap slot slot' place sequence sequence' : Nat} {d : Deadlines}

theorem Synced.place_eq (h : Synced cap g d)
    (hp : d.scheduler.pending place = some (deadline, sequence)) : deadline.handle.slot = place := by
  rw [(h.wf.pending_handle hp).1]

theorem Synced.holds_inj (h : Synced cap g d) (hg : g slot = some handle)
    (hh : Holds d slot handle deadline sequence) (hg' : g slot' = some handle')
    (hh' : Holds d slot' handle' deadline' sequence')
    (he : deadline'.handle.slot = deadline.handle.slot) : slot' = slot := by
  have hbc := hh'.back
  rw [he, hh.back] at hbc
  rw [← h.named slot' handle' hg', ← h.named slot handle hg, some.inj hbc]

theorem Synced.size_lt (h : Synced cap g d) : d.scheduler.size < 2 ^ 64 - 1 := by
  have hsz := h.wf.size_le
  have hcap := h.bounded
  omega

theorem Holds.unlink (hh : Holds api.deadlines slot' handle' deadline' sequence')
    (hc : Changed api.scheduler scheduler place none) (hne : slot' ≠ handle.slot)
    (hpl : deadline'.handle.slot ≠ place) :
    Holds (api.unlinkDeadline scheduler handle).deadlines slot' handle' deadline' sequence' := by
  refine ⟨?_, ?_, hh.back⟩
  · simp only [deadlines, unlinkDeadline]
    rw [List.getElem?_set_ne (symm hne)]
    exact hh.linked
  · simp only [deadlines, unlinkDeadline, hc.pending]
    rw [update_of_ne hpl]
    exact hh.waiting

theorem Synced.unlink (h : Synced cap g api.deadlines) (hg : g slot = some handle)
    (hh : Holds api.deadlines slot handle deadline sequence)
    (hc : Changed api.scheduler scheduler deadline.handle.slot none)
    (hs : scheduler.size + 1 = api.scheduler.size) :
    Steady cap (update g slot none) (api.unlinkDeadline scheduler handle).deadlines := by
  have hsl := h.named slot handle hg
  have hin : slot < api.orderDeadlines.length := (getElem?_eq_some_iff.mp hh.linked).1
  refine ⟨⟨hc.wf, ?_, ?_, ?_, ?_, ?_, ?_, ?_, ?_⟩, hc.quiet⟩
  · exact hc.capacity ▸ h.bounded
  · exact h.handles.trans hc.capacity.symm
  · simp only [deadlines, unlinkDeadline, List.length_set]
    exact h.orders
  · intro slot' handle' hg'
    exact h.named slot' handle' (of_update_none hg').2
  · intro slot' handle' hg'
    obtain ⟨he, hg'⟩ := of_update_none hg'
    obtain ⟨deadline', sequence', hh'⟩ := h.owed slot' handle' hg'
    exact ⟨deadline', sequence', hh'.unlink hc (hsl ▸ he) fun hpl => he (h.holds_inj hg hh hg' hh' hpl)⟩
  · intro place deadline' sequence' hp
    simp only [deadlines, unlinkDeadline, hc.pending] at hp
    obtain ⟨hpl, hp⟩ := of_update_none hp
    obtain ⟨slot', handle', hg', hh'⟩ := h.waits place deadline' sequence' hp
    have hpl' : deadline'.handle.slot ≠ deadline.handle.slot := by
      rw [h.place_eq hp]
      exact hpl
    have hne : slot' ≠ slot := by
      rintro rfl
      have hlkd := hh'.linked
      rw [hh.linked] at hlkd
      exact hpl' (by rw [some.inj hlkd])
    exact ⟨slot', handle', by rw [update_of_ne hne]; exact hg', hh'.unlink hc (hsl ▸ hne) hpl'⟩
  · intro slot' deadline' hg' hd
    simp only [deadlines, unlinkDeadline, hsl] at hd
    by_cases he : slot' = slot
    · rw [he, List.getElem?_set_self hin] at hd
      cases hd
      rfl
    · rw [List.getElem?_set_ne (symm he)] at hd
      rw [update_of_ne he] at hg'
      exact h.idle slot' deadline' hg' hd
  · have hlt : api.scheduler.size < 2 ^ 64 - 1 := h.size_lt
    have hdepth : api.deadlineDepth = api.scheduler.size := h.depth
    simp only [deadlines, unlinkDeadline]
    omega

section

variable (hc : Changed api.scheduler scheduler entry.slot (some (deadline, sequence)))

include hc

theorem Holds.link (hh : Holds api.deadlines slot' handle' deadline' sequence')
    (hn : api.scheduler.pending entry.slot = none) (hne : slot' ≠ handle.slot) :
    Holds ({ api with scheduler := scheduler }.linkDeadline handle entry).deadlines slot' handle'
      deadline' sequence' := by
  have hwt : api.scheduler.pending deadline'.handle.slot = some (deadline', sequence') := hh.waiting
  have hpl : deadline'.handle.slot ≠ entry.slot := by
    intro he
    rw [he, hn] at hwt
    cases hwt
  refine ⟨?_, ?_, ?_⟩
  · simp only [deadlines, linkDeadline]
    rw [List.getElem?_set_ne (symm hne)]
    exact hh.linked
  · simp only [deadlines, linkDeadline, hc.pending]
    rw [update_of_ne hpl]
    exact hwt
  · simp only [deadlines, linkDeadline]
    rw [List.getElem?_set_ne (symm hpl)]
    exact hh.back

theorem holds_linkDeadline (hin : handle.slot < api.orderDeadlines.length)
    (hin' : entry.slot < api.gtdHandles.length) (he : deadline.handle = entry) :
    Holds ({ api with scheduler := scheduler }.linkDeadline handle entry).deadlines handle.slot
      handle deadline sequence := by
  subst he
  refine ⟨?_, ?_, ?_⟩
  · simp only [deadlines, linkDeadline]
    rw [List.getElem?_set_self hin]
  · simp only [deadlines, linkDeadline, hc.pending, update_self]
  · simp only [deadlines, linkDeadline]
    rw [List.getElem?_set_self hin']

theorem Synced.link (h : Synced cap g api.deadlines) (hg : g handle.slot = none)
    (hb : handle.slot < cap) (hp : entry.slot < api.scheduler.capacity)
    (hn : api.scheduler.pending entry.slot = none) (he : deadline.handle = entry)
    (hs : scheduler.size = api.scheduler.size + 1) : Steady cap (update g handle.slot (some handle))
      ({ api with scheduler := scheduler }.linkDeadline handle entry).deadlines := by
  have hlen : api.gtdHandles.length = api.scheduler.capacity := h.handles
  have hnew := holds_linkDeadline hc (h.orders ▸ hb : handle.slot < api.orderDeadlines.length) (hlen ▸ hp) he
  refine ⟨⟨hc.wf, ?_, ?_, ?_, ?_, ?_, ?_, ?_, ?_⟩, hc.quiet⟩
  · exact hc.capacity ▸ h.bounded
  · simp only [deadlines, linkDeadline, List.length_set]
    exact h.handles.trans hc.capacity.symm
  · simp only [deadlines, linkDeadline, List.length_set]
    exact h.orders
  · intro slot' handle' hg'
    obtain ⟨hne, hg'⟩ | ⟨-, hg'⟩ := update_eq_some.mp hg'
    · cases hg'
      exact hne.symm
    · exact h.named slot' handle' hg'
  · intro slot' handle' hg'
    obtain ⟨hne, hg'⟩ | ⟨hne, hg'⟩ := update_eq_some.mp hg'
    · cases hg'
      exact ⟨deadline, sequence, hne ▸ hnew⟩
    · obtain ⟨deadline', sequence', hh'⟩ := h.owed slot' handle' hg'
      exact ⟨deadline', sequence', hh'.link hc hn hne⟩
  · intro place deadline' sequence' hw
    simp only [deadlines, linkDeadline, hc.pending] at hw
    obtain ⟨rfl, he⟩ | ⟨-, hw⟩ := update_eq_some.mp hw
    · cases he
      exact ⟨handle.slot, handle, update_self .., hnew⟩
    · obtain ⟨slot', handle', hg', hh'⟩ := h.waits place deadline' sequence' hw
      have hne : slot' ≠ handle.slot := by
        rintro rfl
        rw [hg] at hg'
        cases hg'
      exact ⟨slot', handle', by rw [update_of_ne hne]; exact hg', hh'.link hc hn hne⟩
  · intro slot' deadline' hg' hd
    by_cases hne : slot' = handle.slot
    · simp [hne] at hg'
    · simp only [deadlines, linkDeadline] at hd
      rw [List.getElem?_set_ne (symm hne)] at hd
      rw [update_of_ne hne] at hg'
      exact h.idle slot' deadline' hg' hd
  · have hlt : api.scheduler.size < 2 ^ 64 - 1 := h.size_lt
    have hdepth : api.deadlineDepth = api.scheduler.size := h.depth
    simp only [deadlines, linkDeadline]
    omega

end

open OrderTable

variable {H : OrderHashes} {s : StateEngine} {o o' : OrderMap} {r r' : OrderRecord} {cause : Cause}
  {event : VenueEvent} {sub : SubmitOrderRequest}

/-- The handle of an order that still needs its deadline. -/
def gtdHandle (slot : Nat) (r : OrderRecord) : Option OrderHandle :=
  if r.request.timeInForce = .gtd ∧ ¬isTerminal r.status then some ⟨slot, 0, r.generation⟩ else none

def liveGtd (o : OrderMap) (slot : Nat) : Option OrderHandle := (o slot).bind (gtdHandle slot)

theorem gtdHandle_eq_some : gtdHandle slot r = some handle ↔
    r.request.timeInForce = .gtd ∧ ¬isTerminal r.status ∧ handle = ⟨slot, 0, r.generation⟩ := by
  unfold gtdHandle
  split
  next h => simp [h, eq_comm]
  next h =>
  simp only [reduceCtorEq, false_iff]
  exact fun h' => h ⟨h'.1, h'.2.1⟩

theorem liveGtd_eq_some : liveGtd o slot = some handle ↔
    ∃ r, o slot = some r ∧ r.request.timeInForce = .gtd ∧ ¬isTerminal r.status ∧
      handle = ⟨slot, 0, r.generation⟩ := by
  simp only [liveGtd, bind_eq_some_iff, gtdHandle_eq_some]

theorem liveGtd_update (entry : Option OrderRecord) :
    liveGtd (update o slot entry) = update (liveGtd o) slot (entry.bind (gtdHandle slot)) := by
  funext x
  unfold liveGtd
  by_cases hx : x = slot
  · subst hx
    rw [update_self, update_self]
  · rw [update_of_ne hx, update_of_ne hx]

theorem liveGtd_dropped (h : Dropped o o') : liveGtd o' = liveGtd o := by
  funext slot
  unfold liveGtd
  rcases h slot with he | ⟨hn, r, hr, ht, _⟩
  · rw [he]
  · simp [hn, hr, gtdHandle, ht]

theorem RecordStep.terminal (h : RecordStep cause r r') (ht : isTerminal r.status) : isTerminal r'.status := by
  cases h with
  | bind | cancel => exact ht
  | react _ hre =>
    cases hre with
    | same | cancelReject => exact ht
    | newAck => cases hs : r.status <;> simp_all [ackRecord, ackStatus, isTerminal]
    | newReject | cancelAck | expire => rfl
    | reconcileOpen _ _ hs => cases hr : r.status <;> simp_all [isTerminal]
    | reconcileTerminal _ he => exact he
  | fill => cases hs : r.status <;> simp_all [filledRecord, isTerminal]
  | reject | expire => rfl

theorem liveGtd_changed (ho : o slot = some r) (hs : RecordSteps cause r r') :
    liveGtd (update o slot (some r')) = if isTerminal r'.status then update (liveGtd o) slot none else liveGtd o := by
  obtain ⟨hreq, hgen⟩ := RecordSteps.identity hs
  rw [liveGtd_update, bind_some]
  split
  next ht => simp [gtdHandle, ht]
  next ht =>
  have htr : ¬isTerminal r.status := fun h =>
    ht (RecordSteps.keep (P := fun x => isTerminal x.status) RecordStep.terminal hs h)
  have hsm : liveGtd o slot = gtdHandle slot r' := by
    simp [liveGtd, ho, gtdHandle, hreq, hgen, ht, htr]
  rw [← hsm, update_eq_self]

namespace StateEngine

theorem Rewrote.liveGtd {out : Outcome} (h : Rewrote H s slot r r' out) (ho : s.orders.order slot = some r)
    (hs : RecordStep .command r r') : liveGtd out.engine.orders.order =
      if isTerminal r'.status then update (liveGtd s.orders.order) slot none
      else liveGtd s.orders.order := by
  rw [h.order]
  exact liveGtd_changed ho (.single hs)

section

variable (hv : s.orders.Valid H)

include hv

theorem requestCancel_liveGtd (token : RequestToken) :
    liveGtd (s.requestCancel H token).engine.orders.order = liveGtd s.orders.order := by
  rcases requestCancel_spec hv token with ⟨_, he, _⟩ | ⟨slot, r, ho, _, hs, hi, hw⟩
  · rw [he]
  · rw [hw.liveGtd ho (.cancel hs hi)]
    exact if_neg hs

theorem eraseTerminal_liveGtd (inst : InstrumentId) :
    liveGtd (s.orders.eraseTerminalByInstrument H inst).2.order = liveGtd s.orders.order := by
  rcases eraseTerminalByInstrument_spec hv with ⟨_, he, _⟩ | ⟨t', he, _, _, _, hd, _⟩
  · rw [he]
  · rw [he]
    exact liveGtd_dropped hd

theorem expireOneForRetirement_liveGtd {inst : InstrumentId}
    (hn : ∀ slot r, s.orders.order slot = some r → r.request.instrumentId = inst →
      ¬isTerminal r.status → r.request.timeInForce ≠ .gtd) :
    liveGtd (s.expireOneForRetirement inst).engine.orders.order = liveGtd s.orders.order := by
  rcases expireOneForRetirement_spec hv inst with ⟨_, he, _⟩ | ⟨slot, r, ho, hi, hs, hw⟩
  · rw [he]
  · have hno : liveGtd s.orders.order slot = none := by
      simp [liveGtd, ho, gtdHandle, hn slot r ho hi hs]
    have htm : isTerminal (settled r .expired).status := rfl
    rw [hw.liveGtd ho (.expire hs), if_pos htm, ← hno, update_eq_self]

theorem submit_liveGtd (sub : SubmitOrderRequest) : ((s.submit H sub).error ≠ .ok ∧
        liveGtd (s.submit H sub).engine.orders.order = liveGtd s.orders.order) ∨
      ((s.submit H sub).error = .ok ∧
        (s.submit H sub).handle.slot < s.orders.records.length ∧
        liveGtd s.orders.order (s.submit H sub).handle.slot = none ∧
        liveGtd (s.submit H sub).engine.orders.order =
          update (liveGtd s.orders.order) (s.submit H sub).handle.slot
            (if sub.order.timeInForce = .gtd then some (s.submit H sub).handle
              else none)) := by
  obtain ⟨_, o, hd, ⟨hne, ho, _⟩ | ⟨hok, _, hadm, ho, _⟩⟩ := submit_spec hv sub
  · exact .inl ⟨hne, by rw [ho]; exact liveGtd_dropped hd⟩
  · refine .inr ⟨hok, hadm.bound, ?_, ?_⟩
    · rw [← liveGtd_dropped hd]
      simp [liveGtd, hadm.free]
    · rw [ho, liveGtd_update, liveGtd_dropped hd]
      have hz := hadm.reserved
      generalize (s.submit H sub).handle = handle at hz ⊢
      cases handle
      cases hz
      simp [gtdHandle, freshRecord, isTerminal]

theorem rejectLocal_liveGtd (hok : (s.submit H sub).error = .ok) :
    liveGtd ((s.submit H sub).engine.rejectLocal (s.submit H sub).handle).engine.orders.order =
      liveGtd s.orders.order := by
  obtain ⟨hv', hr⟩ := submit_liveOrder hv hok
  obtain ⟨_, _, ho, _⟩ := liveOrder_eq_some.mp hr
  rcases submit_liveGtd hv sub with ⟨hne, _⟩ | ⟨_, _, hno, hg⟩
  · exact absurd hok hne
  · have htm : isTerminal (settled (freshRecord sub
        (s.submit H sub).handle.generation) .rejected).status := rfl
    rw [rejectLocal_submitted hv hok, (settle_spec hv' ho _ _).liveGtd ho (.reject rfl rfl),
      if_pos htm, hg, update_idem, ← hno, update_eq_self]

end

theorem AppliedAt.order {s₁ : StateEngine} {r₁ : OrderRecord} {out : Outcome}
    (hr : ResolvesTo H s event slot r s₁ r₁) (h : AppliedAt H s₁ slot r₁ event out) :
    ∃ r', out.engine.orders.order = update s.orders.order slot (some r') ∧ RecordSteps (.event event slot) r r' := by
  have ho₁ := hr.resolved.order hr.before
  have hs := hr.resolved.steps hr.before
  cases h with
  | refused _ he _ => exact ⟨r₁, by rw [he, ho₁], hs⟩
  | duplicate _ _ _ _ he _ => exact ⟨r₁, by rw [he, ho₁], hs⟩
  | reacted ht hre hw => exact ⟨_, by rw [hw.order, ho₁, update_idem], hs.tail (.react ht hre)⟩
  | filled cell ht hw hf => exact ⟨_, by rw [hf.order, ho₁, update_idem], hs.tail (.fill ht hw.quantityPos hf.fits)⟩

theorem apply_refused_liveGtd (hv : s.orders.Valid H) (he : (s.apply H event).error ≠ .ok) :
    liveGtd (s.apply H event).engine.orders.order = liveGtd s.orders.order := by
  rcases apply_spec hv event with ⟨_, hs, _⟩ | ⟨slot, r, s₁, r₁, hr, ha⟩
  · rw [hs]
  · cases ha with
    | refused _ hs =>
      have ho := hr.before
      have hst := hr.resolved.status
      rw [hs, hr.resolved.order ho, liveGtd_changed ho (hr.resolved.steps ho)]
      split
      next ht =>
        have hno : liveGtd s.orders.order slot = none := by
          simp [liveGtd, ho, gtdHandle, ← hst, ht]
        rw [← hno, update_eq_self]
      next => rfl
    | reacted _ _ hw => exact absurd hw.ok he
    | duplicate _ _ _ hok => exact absurd hok he
    | filled _ _ _ hf => exact absurd hf.ok he

theorem apply_liveGtd (hv : s.orders.Valid H) (hok : (s.apply H event).error = .ok) :
    ∃ slot, Identified H s.orders event slot ∧
      liveGtd (s.apply H event).engine.orders.order =
        if isTerminal ((s.apply H event).engine.orders.record slot).status then
          update (liveGtd s.orders.order) slot none
        else liveGtd s.orders.order := by
  rcases apply_spec hv event with ⟨hne, _⟩ | ⟨slot, r, s₁, r₁, hr, ha⟩
  · exact absurd hok hne
  · refine ⟨slot, hr.identified, ?_⟩
    obtain ⟨r', ho, hs⟩ := AppliedAt.order hr ha
    have hsf : (s.apply H event).engine.orders.order slot = some r' := by
      rw [ho, update_self]
    have hst : ((s.apply H event).engine.orders.record slot).status = r'.status :=
      (congrArg OrderRecord.status (order_eq_some hsf).2.2).symm
    rw [hst, ho]
    exact liveGtd_changed hr.before hs

theorem apply_expire_liveGtd (hv : s.orders.Valid H) (hg : liveGtd s.orders.order slot = some handle) :
    liveGtd (s.apply H (expireEvent handle)).engine.orders.order = update (liveGtd s.orders.order) slot none := by
  obtain ⟨r, ho, _, hs, rfl⟩ := liveGtd_eq_some.mp hg
  have hl := hv.lookup_of_order ho
  have hresolve : resolve H s.orders (expireEvent ⟨slot, 0, r.generation⟩) = (.ok slot, s.orders) := by
    simp [resolve, identify, identifyHandle, identifyToken, identifyClient, identifyVenue, merge,
      expireEvent, hl, hv.generationPos ho, bind, Except.bind, FixedId.length]
  obtain ⟨_, _, hco⟩ := order_eq_some ho
  have hst : (s.orders.record slot).status = r.status := (congrArg OrderRecord.status hco).symm
  have hrct : react (s.orders.record slot) (expireEvent ⟨slot, 0, r.generation⟩) =
      .accept (settled (s.orders.record slot) .expired) true (some .expired) := by
    have hne : r.status ≠ .expired := by
      intro he
      exact hs (by rw [he]; rfl)
    simp [react, expireEvent, hst, hs, hne]
  obtain ⟨hre, hw⟩ := applyReaction_accept hv ho hrct
  have happ : s.apply H (expireEvent ⟨slot, 0, r.generation⟩) =
      s.applyReaction slot (react (s.orders.record slot) (expireEvent ⟨slot, 0, r.generation⟩)) := by
    unfold apply
    rw [hresolve]
    rfl
  have hsts : RecordSteps (.event (expireEvent ⟨slot, 0, r.generation⟩) slot) r _ := .single (.react rfl hre)
  rw [happ, hw.order, liveGtd_changed ho hsts]
  exact if_pos rfl

end StateEngine

end SelfQuant.Oms
