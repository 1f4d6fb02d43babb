import SelfQuant.OmsGtdOrders

namespace SelfQuant.Oms

open OrderTable DeadlineScheduler Function Option StateEngine

variable {H : RuntimeHashes} {api api' : OmsApi} {g : Nat → Option OrderHandle} {handle : OrderHandle}
  {cap slot now index : Nat} {event : VenueEvent} {command : RuntimeCommand}
  {answers : Answers} {done : Executed} {token : RequestToken}

namespace OmsApi

theorem cancelDeadline_steady (h : Steady cap g api.deadlines) (slot : Nat) : Steady cap
      (if isTerminal (api.engine.orders.record slot).status then update g slot none else g)
      (api.cancelDeadline slot).deadlines := by
  unfold cancelDeadline
  cases hg : g slot with
  | none =>
    have hsm : update g slot none = g := by rw [← hg, update_eq_self]
    rw [hsm, ite_self]
    split
    next => exact h
    next entry hd =>
    rw [if_neg fun hc => hc.2 (h.idle slot entry hg hd)]
    exact h
  | some handle =>
    obtain ⟨deadline, sequence, hh⟩ := h.owed slot handle hg
    have hd : api.orderDeadlines[slot]? = some deadline.handle := hh.linked
    rw [hd]
    dsimp only
    by_cases ht : isTerminal (api.engine.orders.record slot).status
    · obtain ⟨he, hne⟩ := h.wf.pending_handle hh.waiting
      have hgen : deadline.handle.generation ≠ 0 := by
        rw [he]
        exact hne
      obtain ⟨sched, hs, hc, hsz, _⟩ := cancel_changed h.wf h.quiet hh.waiting
      have hs' : api.scheduler.cancel deadline.handle = (.ok, sched) := hs
      have hunlink := h.unlink hg hh hc hsz
      rw [unlinkDeadline, h.named slot handle hg] at hunlink
      rw [if_pos ht, if_pos ⟨ht, hgen⟩, hs']
      exact hunlink
    · rw [if_neg ht, if_neg fun hc => ht hc.1]
      exact h

theorem retryDeadline_steady (h : Steady cap (update g slot none) api.deadlines)
    (hg : g slot = some handle) (hsl : handle.slot = slot) (hb : slot < cap)
    (hfe : api.scheduler.freeSlots ≠ []) (hseq : api.scheduler.nextSequence ≠ 2 ^ 64 - 1) :
    Steady cap g (api.retryDeadline now handle).deadlines := by
  have hsch : Scheduled api.scheduler .gtd now handle.slot
    (api.scheduler.schedule .gtd now handle.slot) := schedule_scheduled h.wf h.quiet
  unfold retryDeadline
  generalize api.scheduler.schedule .gtd now handle.slot = result at hsch ⊢
  cases hsch with
  | full he => exact absurd he hfe
  | exhausted he => exact absurd he hseq
  | entered hp hn hgen hc hs =>
    subst hsl
    have hlk := h.link hc (update_self ..) hb hp hn rfl hs
    rw [update_idem, ← hg, update_eq_self] at hlk
    dsimp only
    rw [if_pos hgen]
    exact hlk

theorem scheduleGtd_steady (h : Steady cap g api.deadlines) (hg : g handle.slot = none)
    (hb : handle.slot < cap) (expiry : Nat) : ((api.scheduleGtd handle expiry).1 = .ok ∧
        Steady cap (update g handle.slot (some handle)) (api.scheduleGtd handle expiry).2.deadlines) ∨
      ((api.scheduleGtd handle expiry).1 ≠ .ok ∧ (api.scheduleGtd handle expiry).2 = api) := by
  have hsch : Scheduled api.scheduler .gtd expiry handle.slot
    (api.scheduler.schedule .gtd expiry handle.slot) := schedule_scheduled h.wf h.quiet
  unfold scheduleGtd
  split
  next => exact .inr ⟨by simp, rfl⟩
  generalize api.scheduler.schedule .gtd expiry handle.slot = result at hsch ⊢
  cases hsch with
  | full | exhausted => exact .inr ⟨by simp, rfl⟩
  | entered hp hn hgen hc hs => exact .inl ⟨rfl, h.link hc hg hb hp hn rfl hs⟩

/-- The deadlines stand for the live orders that are good till date. -/
def GtdSteady (capacity : Nat) (api : OmsApi) : Prop :=
  Steady capacity (liveGtd api.engine.orders.order) api.deadlines

theorem CountersOnly.deadlines (h : CountersOnly api api') : api'.deadlines = api.deadlines := by
  rw [h]
  rfl

theorem VenueHandled.gtdSteady (h : VenueHandled H api event api') (hv : api.engine.orders.Valid H.orders)
    (hg : GtdSteady cap api) : GtdSteady cap api' := by
  cases h with
  | ignored h =>
    unfold GtdSteady
    rw [h.engine, h.deadlines]
    exact hg
  | failed he h =>
    unfold GtdSteady
    rw [h.engine, h.deadlines]
    rw [apply_refused_liveGtd hv he]
    exact hg
  | applied hl hr ho he =>
    subst ho
    obtain ⟨slot, hid, hlv⟩ := apply_liveGtd hv he
    have hg' : Steady cap (liveGtd api.engine.orders.order)
      { api with engine := (api.engine.apply H.orders event).engine }.deadlines := hg
    have hcancel := cancelDeadline_steady hg' slot
    rw [hid.eventRecord]
    unfold GtdSteady
    dsimp only [publish, setLane, withdraw]
    rw [cancelDeadline_only.engine, hlv]
    exact hcancel

theorem EventHandled.gtdSteady (h : EventHandled H api api') (hv : api.engine.orders.Valid H.orders)
    (hg : GtdSteady cap api) : GtdSteady cap api' := by
  cases h with
  | venue h => exact h.gtdSteady hv hg
  | ignored | forwarded | broadcast => exact hg

end OmsApi

variable {lane : Lane} {step : ApiStep} {due : Deadline} {error : DeadlineError} {sched : DeadlineScheduler}

/-- A due deadline is that of the order `handle`, and taking it leaves the others in step. -/
structure TakesDue (capacity : Nat) (api : OmsApi) (scheduler : DeadlineScheduler)
    (handle : OrderHandle) (slot : Nat) : Prop where
  live : liveGtd api.engine.orders.order slot = some handle
  bound : slot < capacity
  free : scheduler.freeSlots ≠ []
  sequence : scheduler.nextSequence = api.scheduler.nextSequence
  steady : Steady capacity (update (liveGtd api.engine.orders.order) slot none)
    (api.unlinkDeadline scheduler handle).deadlines

namespace OmsApi

theorem popDue_takes (hg : GtdSteady cap api) (hp : api.scheduler.popDue now = (some (due, error), sched))
    (hh : (api.gtdHandles[due.handle.slot]?).getD {} = handle) :
    error = .ok ∧ ∃ slot, TakesDue cap api sched handle slot := by
  have hpop : Popped api.scheduler now (api.scheduler.popDue now) := popDue_popped hg.wf hg.quiet
  rw [hp] at hpop
  cases hpop with
  | @due place sequence _ _ hw hc hs hn =>
    obtain ⟨slot, handle', hlv, hholds⟩ := hg.waits place due sequence hw
    have hbc : api.gtdHandles[due.handle.slot]? = some handle' := hholds.back
    rw [hbc] at hh
    subst hh
    have hpl : due.handle.slot = place := hg.place_eq hw
    have hin : place ∈ sched.freeSlots := by
      rw [hc.wf.freeIff]
      have hb : place < api.scheduler.capacity := lt_length_of_active (pending_eq_some.mp hw).1
      refine ⟨lt_of_lt_of_eq hb hc.capacity.symm, fun ha => ?_⟩
      have hgone : sched.pending place = none := by rw [hc.pending, update_self]
      simp [pending, ha] at hgone
    refine ⟨rfl, slot, hlv, ?_, List.ne_nil_of_mem hin, hn, ?_⟩
    · exact hg.orders ▸ (getElem?_eq_some_iff.mp hholds.linked).1
    · rw [← hpl] at hc
      exact hg.unlink hlv hholds hc hs

theorem DeadlineTurn.gtdSteady {goes : Bool} (h : DeadlineTurn H now api api' goes)
    (hv : api.engine.orders.Valid H.orders) (hg : GtdSteady cap api)
    (hseq : api.scheduler.nextSequence ≠ 2 ^ 64 - 1) :
    GtdSteady cap api' ∧ (goes = true → api'.scheduler.nextSequence ≠ 2 ^ 64 - 1) := by
  cases h with
  | failed hp he => exact absurd (popDue_takes hg hp rfl).1 he
  | dropped hp hh hl =>
    obtain ⟨_, slot, ht⟩ := popDue_takes hg hp hh
    obtain ⟨r, ho, _, _, rfl⟩ := liveGtd_eq_some.mp ht.live
    rw [hv.lookup_of_order ho] at hl
    cases hl
  | retried hp hh hl =>
    obtain ⟨_, slot, ht⟩ := popDue_takes hg hp hh
    refine ⟨?_, by simp⟩
    unfold GtdSteady
    rw [retryDeadline_only.engine]
    exact retryDeadline_steady ht.steady ht.live (hg.named slot _ ht.live) ht.bound ht.free (ht.sequence ▸ hseq)
  | expired hp hh hl hi hr =>
    obtain ⟨_, slot, ht⟩ := popDue_takes hg hp hh
    refine ⟨?_, fun _ => ht.sequence ▸ hseq⟩
    unfold GtdSteady
    dsimp only [expireOrder, publish, setLane, unlinkDeadline]
    rw [apply_expire_liveGtd hv ht.live]
    exact ht.steady

theorem processDeadlines_gtdSteady (hr : EngineReach H.orders api.engine) (hg : GtdSteady cap api)
    (hseq : api.scheduler.nextSequence ≠ 2 ^ 64 - 1) : GtdSteady cap (api.processDeadlines H now) := by
  refine deadlineLoop_until (P := fun api => EngineReach H.orders api.engine ∧
    GtdSteady cap api ∧ api.scheduler.nextSequence ≠ 2 ^ 64 - 1) (Q := GtdSteady cap)
    (fun h => h.2.1) (fun ht h => ?_) _ ⟨hr, hg, hseq⟩
  obtain ⟨hg', hseq'⟩ := ht.gtdSteady h.1.valid h.2.1 h.2.2
  exact ⟨hg', fun hgoes => ⟨h.1.steps ht.venueSteps.engineSteps, hg', hseq' hgoes⟩⟩

end OmsApi

/-- The command loses no deadline: an order good till date is not refused after its deadline is
set, and none is expired for a retirement. -/
def KeepsGtd (t : OrderTable) (answers : Answers) : RuntimeCommand → Prop
  | .place submitted => submitted.order.timeInForce = .gtd → answers.commitPlace = .ok
  | .retireInstrument request => request.mode = .lifecycleEnded →
      ∀ slot < t.records.length, ∀ r ∈ t.order slot,
        r.request.instrumentId = request.instrumentId → ¬isTerminal r.status →
        r.request.timeInForce ≠ .gtd
  | _ => True

instance (t : OrderTable) (answers : Answers) : ∀ command, Decidable (KeepsGtd t answers command)
  | .place submitted => inferInstanceAs
      (Decidable (submitted.order.timeInForce = .gtd → answers.commitPlace = .ok))
  | .retireInstrument request => inferInstanceAs (Decidable (request.mode = .lifecycleEnded →
      ∀ slot < t.records.length, ∀ r ∈ t.order slot,
        r.request.instrumentId = request.instrumentId → ¬isTerminal r.status →
        r.request.timeInForce ≠ .gtd))
  | .cancel _ | .cancelVenue _ | .registerInstrument _ | .query .. | .reservedCancelAll
  | .reservedReconcile => .isTrue trivial

open OmsApi

section

variable (hg : GtdSteady cap api) (hlen : api.engine.orders.records.length = cap)

include hg hlen

theorem commitPlaced_gtdSteady {sub : SubmitOrderRequest} {out : Outcome} {result : Error}
    (hv : api.engine.orders.Valid H.orders) (ho : api.engine.submit H.orders sub = out)
    (he : out.error = .ok)
    (hk : sub.order.timeInForce = .gtd → answers.commitPlace = .ok)
    (hd : { api with engine := out.engine }.commitPlaced out.handle sub.order answers = (result, api')) :
    (result = .ok → GtdSteady cap api') ∧
      (result ≠ .ok → Steady cap (liveGtd api.engine.orders.order) api'.deadlines) := by
  subst ho
  have hengine : api'.engine = (api.engine.submit H.orders sub).engine := (commitPlaced_only hd).engine
  rcases submit_liveGtd hv sub with ⟨hne, _⟩ | ⟨_, hb, hno, hlv⟩
  · exact absurd he hne
  · unfold GtdSteady
    rw [hengine, hlv]
    by_cases ht : sub.order.timeInForce = .gtd
    · rw [if_pos ht]
      have hg' : Steady cap (liveGtd api.engine.orders.order)
        { api with engine := (api.engine.submit H.orders sub).engine }.deadlines := hg
      have hsch := scheduleGtd_steady hg' hno (hlen ▸ hb) sub.order.expireTimeNs
      unfold commitPlaced at hd
      rw [if_pos ht, hk ht] at hd
      dsimp only at hd
      rcases hsch with ⟨hok, hs⟩ | ⟨hne, hs⟩
      · rw [if_pos hok] at hd
        cases hd
        exact ⟨fun _ => hs, fun hne => absurd rfl hne⟩
      · rw [if_neg hne] at hd
        cases hd
        rw [hs]
        exact ⟨fun hok => absurd hok hne, fun _ => hg⟩
    · obtain ⟨_, rfl⟩ := commitPlaced_untimed ht hd
      rw [if_neg ht, ← hno, update_eq_self]
      exact ⟨fun _ => hg, fun _ => hg⟩

theorem Ran.gtdSteady (h : Ran H api command answers done) (hv : api.engine.orders.Valid H.orders)
    (hk : KeepsGtd api.engine.orders answers command) : GtdSteady cap done.api := by
  cases h with
  | quiet => exact hg
  | @unplaced submitted hc he =>
    rcases submit_liveGtd hv submitted with ⟨_, hlv⟩ | ⟨hok, _⟩
    · unfold GtdSteady
      rw [hlv]
      exact hg
    · exact absurd hok he
  | placed hc ho he hd =>
    subst hc
    exact (commitPlaced_gtdSteady hg hlen hv ho he hk hd).1 rfl
  | rejected hc hr ho he hne hd =>
    subst hc
    have hs := (commitPlaced_gtdSteady hg hlen hv ho he hk hd).2 hne
    subst ho
    unfold GtdSteady
    rw [(commitPlaced_only hd).engine]
    rw [rejectLocal_liveGtd hv he]
    exact hs
  | canceled hc ho =>
    subst ho
    unfold GtdSteady
    rw [requestCancel_liveGtd hv]
    exact hg
  | erased =>
    unfold GtdSteady
    rw [eraseTerminal_liveGtd hv]
    exact hg
  | expired hc hm ho =>
    subst hc ho
    unfold GtdSteady
    rw [expireOneForRetirement_liveGtd hv fun slot r ho hi hs => hk hm slot (order_eq_some ho).1 r ho hi hs]
    exact hg

theorem OmsApi.Executes.gtdSteady (h : Executes H api index command answers api')
    (hr : EngineReach H.orders api.engine) (hk : KeepsGtd api.engine.orders answers command) :
    GtdSteady cap api' := by
  cases h with
  | nothing | refused => exact hg
  | @ran lane done hq hv h =>
    have hg' : GtdSteady cap (api.setLane index lane) := hg
    exact h.gtdSteady hg' hlen hr.valid hk
  | @queried kind token request lane hc hv =>
    have hr' : EngineReach H.orders (api.setLane index lane).engine := hr
    have hg' : GtdSteady cap (api.setLane index lane) := hg
    exact query_reach (fun he hr hg => he.gtdSteady hr.valid hg) (fun _ hg => hg) hr' hg'

end

variable {room laneId : Nat} {build : RequestToken → RuntimeCommand} {d : Deadlines}

/-- The timer works, the command processed loses no deadline, and a deadline that has to be put
back finds a number left. -/
def KeepsDeadlines (api : OmsApi) (step : ApiStep) : Prop :=
  Quiet api.scheduler ∧
    match step with
    | .submitOrder _ request answers => api.mode = .inline → KeepsGtd api.engine.orders answers (.place request)
    | .retireInstrument _ instrumentId mode answers => api.mode = .inline →
        KeepsGtd api.engine.orders answers (.retireInstrument ⟨{}, instrumentId, mode⟩)
    | .ownerCommand index answers => ∀ command ∈ (api.lane index).commands.head?,
        KeepsGtd api.engine.orders answers command
    | .ownerDeadlines _ => api.scheduler.nextSequence ≠ 2 ^ 64 - 1
    | _ => True

instance (api : OmsApi) : ∀ step, Decidable (KeepsDeadlines api step)
  | .submitOrder _ request answers => inferInstanceAs (Decidable (Quiet api.scheduler ∧
      (api.mode = .inline → KeepsGtd api.engine.orders answers (.place request))))
  | .retireInstrument _ instrumentId mode answers => inferInstanceAs (Decidable (Quiet api.scheduler ∧
      (api.mode = .inline → KeepsGtd api.engine.orders answers (.retireInstrument ⟨{}, instrumentId, mode⟩))))
  | .ownerCommand index answers => inferInstanceAs (Decidable (Quiet api.scheduler ∧
      ∀ command ∈ (api.lane index).commands.head?, KeepsGtd api.engine.orders answers command))
  | .ownerDeadlines _ => inferInstanceAs (Decidable (Quiet api.scheduler ∧ api.scheduler.nextSequence ≠ 2 ^ 64 - 1))
  | .initializeLane .. | .cancelOrder .. | .cancelVenueOrder .. | .registerInstrument .. | .query ..
  | .drainUpdates .. | .shutdown | .ownerEvent _ => inferInstanceAs (Decidable (Quiet api.scheduler ∧ True))

theorem KeepsDeadlines.sent (h : KeepsDeadlines api step) (hs : step.Sends laneId room build answers)
    (hm : api.mode = .inline) : KeepsGtd api.engine.orders answers (build token) := by
  cases hs with
  | place | retire => exact h.2 hm
  | _ => trivial

theorem Performed.gtdSteady (h : Performed H api step api') (hr : EngineReach H.orders api.engine)
    (hlen : api.engine.orders.records.length = cap) (hk : KeepsDeadlines api step)
    (hg : GtdSteady cap api) : GtdSteady cap api' := by
  cases h with
  | idle | stopped | initialized | drained | exhausted | queued | spent => exact hg
  | @called laneId room index build answers token lane hs hm hi h hrm =>
    have hr' : EngineReach H.orders (api.setLane index lane).engine := hr
    have hg' : GtdSteady cap (api.setLane index lane) := hg
    exact (execute_executes H (api.setLane index lane) index (build token) answers).gtdSteady hg' hlen hr'
      (hk.sent hs hm)
  | @owner index command rest answers he hc hrm =>
    subst he
    have hdone := (execute_executes H api index command answers).gtdSteady hg hlen hr (hk.2 command (by rw [hc]; rfl))
    exact hdone
  | deadlines he =>
    subst he
    exact processDeadlines_gtdSteady hr hg hk.2
  | event => exact (handleAdapterEvent_handled _).gtdSteady hr.valid hg

theorem Created.synced {config : RuntimeConfig} {errors : List Nat} (h : Created config errors api) :
    Synced api.engine.orders.records.length (liveGtd api.engine.orders.order) api.deadlines := by
  obtain ⟨hwf, hpd, hsz, hcap, hle⟩ := create_wf h.scheduler
  obtain ⟨_, ht, _⟩ := create_orders h.engine
  have hlv : liveGtd api.engine.orders.order = fun _ => none := by
    funext slot
    simp [liveGtd, (create_empty ht).1]
  rw [hlv]
  refine ⟨hwf, hcap ▸ hle, ?_, ?_, by simp, by simp, fun place deadline sequence hp => ?_,
    fun slot deadline _ hd => ?_, ?_⟩
  · exact (congrArg List.length h.gtdHandles).trans (by rw [List.length_replicate]; exact hcap.symm)
  · exact (congrArg List.length h.orderDeadlines).trans (List.length_replicate ..)
  · have hno : api.scheduler.pending place = some (deadline, sequence) := hp
    rw [hpd] at hno
    cases hno
  · have hd' : api.orderDeadlines[slot]? = some deadline := hd
    rw [h.orderDeadlines, List.getElem?_replicate] at hd'
    split at hd' <;> cases hd'
    rfl
  · exact h.deadlineDepth.trans hsz.symm

theorem OmsRun.synced (h : OmsRun H KeepsDeadlines api) :
    Synced api.engine.orders.records.length (liveGtd api.engine.orders.order) api.deadlines := by
  induction h with
  | start h => exact (create_created h).synced
  | @next api h step hs ih =>
    have hp := perform_performed H api step
    have hlen := EngineSteps.length h.engineReach hp.engineSteps
    rw [hlen]
    exact (hp.gtdSteady h.engineReach rfl hs ⟨ih, hs.1⟩).toSynced

def Deadlines.orderSlot (d : Deadlines) (place : Nat) : Nat := ((d.gtdHandles[place]?).getD ({} : OrderHandle)).slot

theorem Synced.entry (h : Synced cap g d) {place : Nat} (hmem : place ∈ d.scheduler.heap) :
    ∃ deadline sequence handle, d.scheduler.pending place = some (deadline, sequence) ∧
      d.gtdHandles[place]? = some handle ∧ g handle.slot = some handle ∧
      Holds d handle.slot handle deadline sequence := by
  obtain ⟨⟨deadline, sequence⟩, hp⟩ := ne_none_iff_exists'.mp (h.wf.mem_heap.mp hmem)
  obtain ⟨slot, handle, hg, hh⟩ := h.waits place deadline sequence hp
  obtain rfl := h.named slot handle hg
  exact ⟨deadline, sequence, handle, hp, by rw [← h.place_eq hp]; exact hh.back, hg, hh⟩

theorem Synced.size_le_count (h : Synced cap g d) :
    d.scheduler.size ≤ (List.range cap).countP fun slot => (g slot).isSome := by
  have hnd : (d.scheduler.heap.map d.orderSlot).Nodup := by
    refine List.Nodup.map_on (fun place hmem place' hmem' he => ?_) h.wf.tracks.nodup
    obtain ⟨deadline, _, handle, hp, hb, _, hh⟩ := h.entry hmem
    obtain ⟨deadline', _, handle', hp', hb', _, hh'⟩ := h.entry hmem'
    simp only [Deadlines.orderSlot, hb, hb', getD_some] at he
    have hlkd := hh.linked
    rw [he, hh'.linked] at hlkd
    rw [← h.place_eq hp, ← h.place_eq hp', some.inj hlkd]
  have hsub : d.scheduler.heap.map d.orderSlot ⊆ (List.range cap).filter fun slot => (g slot).isSome := by
    intro slot hmem
    obtain ⟨place, hin, rfl⟩ := List.mem_map.mp hmem
    obtain ⟨deadline, _, handle, _, hb, hg, hh⟩ := h.entry hin
    simp only [Deadlines.orderSlot, hb, getD_some, List.mem_filter, List.mem_range, hg, isSome_some, and_true]
    exact h.orders ▸ (getElem?_eq_some_iff.mp hh.linked).1
  rw [List.countP_eq_length_filter]
  simpa [DeadlineScheduler.size] using (List.Nodup.subperm hnd hsub).length_le

def OmsApi.liveGtdCount (api : OmsApi) : Nat :=
  (List.range api.engine.orders.records.length).countP fun slot => (liveGtd api.engine.orders.order slot).isSome

/-- Each live order that is good till date has one active deadline, each active deadline is that of
such an order, so there are no more of them than of those orders, and the depth counts them. -/
theorem deadlines_of_liveOrders (h : OmsRun H KeepsDeadlines api) :
    (∀ slot r, api.engine.orders.order slot = some r → r.request.timeInForce = .gtd →
      ¬isTerminal r.status → ∃! place, (api.scheduler.node place).active ∧
        api.gtdHandles[place]? = some ⟨slot, 0, r.generation⟩) ∧
    (∀ place, (api.scheduler.node place).active → ∃ slot r,
      api.engine.orders.order slot = some r ∧ r.request.timeInForce = .gtd ∧
      ¬isTerminal r.status ∧ api.gtdHandles[place]? = some ⟨slot, 0, r.generation⟩) ∧
    api.scheduler.size ≤ api.liveGtdCount ∧ api.deadlineDepth = api.scheduler.size := by
  have hs := h.synced
  refine ⟨fun slot r ho ht hr => ?_, fun place ha => ?_, hs.size_le_count, hs.depth⟩
  · have hg := liveGtd_eq_some.mpr ⟨r, ho, ht, hr, rfl⟩
    obtain ⟨deadline, sequence, hh⟩ := hs.owed slot _ hg
    refine ⟨deadline.handle.slot, ⟨(pending_eq_some.mp hh.waiting).1, hh.back⟩, ?_⟩
    rintro place ⟨ha, hb⟩
    obtain ⟨deadline', _, handle', hp, hb', hg', hh'⟩ := hs.entry ((hs.wf.heapIff place).mpr ha)
    have he : handle' = ⟨slot, 0, r.generation⟩ := some.inj (hb'.symm.trans hb)
    subst he
    have hlinked := hh'.linked
    rw [hh.linked] at hlinked
    rw [← hs.place_eq hp, some.inj hlinked]
  · obtain ⟨_, _, handle, _, hb, hg, _⟩ := hs.entry ((hs.wf.heapIff place).mpr ha)
    obtain ⟨r, ho, ht, hr, he⟩ := liveGtd_eq_some.mp hg
    exact ⟨handle.slot, r, ho, ht, hr, hb.trans (congrArg some he)⟩

def sampleGtd : SubmitOrderRequest :=
  { sampleOrder with order := { sampleOrder.order with timeInForce := .gtd, expireTimeNs := 9 } }

def sampleBare : OmsApi :=
  (create sourceRuntimeHashes { sampleConfig .inline [⟨1, 2, 8⟩] with instruments := [] } []).get (by decide +kernel)

def sampleExpiring : List ApiStep :=
  [.initializeLane 1 1,
    .registerInstrument 1 ⟨⟨1, 1, 1⟩, 7, { sampleOrder.routing with instrumentExpiryNs := 5 }⟩ sampleAnswers]

theorem deadlines_of_liveOrders_sample :
    let api := sampleBare.performAll sourceRuntimeHashes
      (sampleExpiring ++ [.submitOrder 1 sampleGtd sampleAnswers, .ownerDeadlines 3])
    api.scheduler.size = 1 ∧ api.liveGtdCount = 1 ∧
    ∀ place, (api.scheduler.node place).active → ∃ slot r,
      api.engine.orders.order slot = some r ∧ r.request.timeInForce = .gtd ∧
      ¬isTerminal r.status ∧ api.gtdHandles[place]? = some ⟨slot, 0, r.generation⟩ := by
  refine ⟨by decide +kernel, by decide +kernel, (deadlines_of_liveOrders (H := sourceRuntimeHashes) ?_).2.1⟩
  exact OmsRun.performAll (.start (some_get _).symm) (by decide +kernel)

/-- The deadline of an order stays when the adapter refuses the order at the commit, and when the order is expired for the
retirement of its instrument. A finished order then takes the only entry of the scheduler. -/
theorem deadline_of_finishedOrder :
    let refused := sampleBare.performAll sourceRuntimeHashes
      (sampleExpiring ++ [.submitOrder 1 sampleGtd { sampleAnswers with commitPlace := .wouldBlock }])
    let expired := sampleBare.performAll sourceRuntimeHashes
      (sampleExpiring ++ [.submitOrder 1 sampleGtd sampleAnswers,
        .retireInstrument 1 7 .lifecycleEnded { sampleAnswers with wallNowNs := 5 }])
    (OmsReach sourceRuntimeHashes refused ∧ refused.scheduler.timerErrors = [] ∧
      (refused.scheduler.node 0).active ∧ refused.gtdHandles[0]? = some ⟨0, 0, 1⟩ ∧
      (refused.engine.orders.order 0).map OrderRecord.status = some .rejected ∧
      refused.liveGtdCount < refused.scheduler.size) ∧
    (OmsReach sourceRuntimeHashes expired ∧ expired.scheduler.timerErrors = [] ∧
      (expired.scheduler.node 0).active ∧ expired.gtdHandles[0]? = some ⟨0, 0, 1⟩ ∧
      (expired.engine.orders.order 0).map OrderRecord.status = some .expired ∧
      expired.liveGtdCount < expired.scheduler.size) :=
  ⟨⟨OmsReach.performAll (.start (some_get _).symm) _, by decide +kernel, by decide +kernel,
      by decide +kernel, by decide +kernel, by decide +kernel⟩,
    ⟨OmsReach.performAll (.start (some_get _).symm) _, by decide +kernel, by decide +kernel,
      by decide +kernel, by decide +kernel, by decide +kernel⟩⟩

end SelfQuant.Oms
