import SelfQuant.OmsRuntimeSpec

namespace SelfQuant.Oms

open OrderTable OmsApi List Option

variable {H : RuntimeHashes} {api api' : OmsApi} {index now : Nat} {answers : Answers}
  {command : RuntimeCommand} {step : ApiStep} {allowed : OmsApi → ApiStep → Prop} {op : EngineOp}
  {token : RequestToken} {update : RuntimeUpdate} {event : AdapterEvent}

abbrev EngineSteps (H : OrderHashes) :=
  Relation.ReflTransGen fun s s' : StateEngine => ∃ op, s' = (s.perform H op).engine

theorem EngineReach.steps {H : OrderHashes} {s s' : StateEngine} (hr : EngineReach H s)
    (h : EngineSteps H s s') : EngineReach H s' := by
  induction h with
  | refl => exact hr
  | tail _ hop ih =>
    obtain ⟨op, rfl⟩ := hop
    exact ih.next op

theorem engineStep {H : OrderHashes} (s : StateEngine) (op : EngineOp) :
    EngineSteps H s (s.perform H op).engine := .single ⟨op, rfl⟩

abbrev VenueSteps (H : OrderHashes) :=
  Relation.ReflTransGen fun s s' : StateEngine => ∃ event, s' = (s.apply H event).engine

theorem VenueSteps.engineSteps {H : OrderHashes} {s s' : StateEngine} (h : VenueSteps H s s') : EngineSteps H s s' :=
  Relation.ReflTransGen.mono (fun _ _ ⟨event, he⟩ => ⟨.apply event, he⟩) s s' h

theorem Ran.engineSteps {done : Executed} (h : Ran H api command answers done) :
    EngineSteps H.orders api.engine done.api.engine := by
  cases h with
  | quiet => exact .refl
  | unplaced => exact engineStep _ (.submit _)
  | placed hc ho he hd =>
    subst ho
    rw [(commitPlaced_only hd).engine]
    exact engineStep _ (.submit _)
  | rejected hc hr ho he hne hd =>
    subst ho
    rw [(commitPlaced_only hd).engine]
    exact (engineStep _ (.submit _)).tail ⟨.rejectLocal _, rfl⟩
  | canceled hc ho => subst ho; exact engineStep _ (.requestCancel _)
  | erased => exact engineStep _ (.eraseTerminalByInstrument _)
  | expired hc hm ho => subst ho; exact engineStep _ (.expireOneForRetirement _)

namespace OmsApi

theorem CountersOnly.engine (h : CountersOnly api api') : api'.engine = api.engine := by
  rw [h]

theorem VenueHandled.venueSteps {event : VenueEvent} (h : VenueHandled H api event api') :
    VenueSteps H.orders api.engine api'.engine := by
  cases h with
  | ignored h => rw [h.engine]
  | failed he h =>
    rw [h.engine]
    exact .single ⟨_, rfl⟩
  | applied hl hr ho he =>
    subst ho
    dsimp only [publish, setLane]
    rw [(withdraw_only _).engine]
    exact .single ⟨_, rfl⟩

theorem EventHandled.venueSteps (h : EventHandled H api api') : VenueSteps H.orders api.engine api'.engine := by
  cases h with
  | venue h => exact h.venueSteps
  | ignored | forwarded | broadcast => exact .refl

variable {P : OmsApi → Prop}

theorem query_reach
    (hev : ∀ {api api'}, EventHandled H api api' → EngineReach H.orders api.engine → P api → P api')
    (hpub : ∀ {api update}, update.engineUpdate = none → P api → P (api.publish index [update]))
    (hr : EngineReach H.orders api.engine) (hp : P api) {kind : QueryKind} {request : QueryRequest} :
    P (api.query H index kind token request answers) :=
  (query_keep (P := fun api => EngineReach H.orders api.engine ∧ P api)
    (fun he h => ⟨h.1.steps he.venueSteps.engineSteps, hev he h.1 h.2⟩) (fun hu h => ⟨h.1, hpub hu h.2⟩) ⟨hr, hp⟩).2

theorem query_venueSteps (api : OmsApi) (kind : QueryKind) (token : RequestToken) (request : QueryRequest) :
    VenueSteps H.orders api.engine (api.query H index kind token request answers).engine :=
  query_keep (P := fun api' => VenueSteps H.orders api.engine api'.engine) (fun he h => h.trans he.venueSteps)
    (fun _ h => h) .refl

theorem Executes.engineSteps (h : Executes H api index command answers api') :
    EngineSteps H.orders api.engine api'.engine := by
  cases h with
  | nothing | refused => exact .refl
  | ran _ hv h => exact h.engineSteps
  | queried hc hv => exact (query_venueSteps (api.setLane index _) _ _ _).engineSteps

theorem DeadlineTurn.venueSteps {goes : Bool} (h : DeadlineTurn H now api api' goes) :
    VenueSteps H.orders api.engine api'.engine := by
  cases h with
  | failed | dropped => exact .refl
  | retried => rw [retryDeadline_only.engine]; exact .refl
  | expired => exact .single ⟨_, rfl⟩

theorem processDeadlines_venueSteps : VenueSteps H.orders api.engine (api.processDeadlines H now).engine :=
  deadlineLoop_keep (P := fun api' => VenueSteps H.orders api.engine api'.engine)
    (fun ht h => h.trans ht.venueSteps) _ .refl

theorem processDeadlines_reach (htn : ∀ {api api' goes}, DeadlineTurn H now api api' goes →
      EngineReach H.orders api.engine → P api → P api')
    (hr : EngineReach H.orders api.engine) (hp : P api) : P (api.processDeadlines H now) :=
  (deadlineLoop_keep (P := fun api => EngineReach H.orders api.engine ∧ P api)
    (fun ht h => ⟨h.1.steps ht.venueSteps.engineSteps, htn ht h.1 h.2⟩) _ ⟨hr, hp⟩).2

end OmsApi

theorem Performed.engineSteps (h : Performed H api step api') : EngineSteps H.orders api.engine api'.engine := by
  cases h with
  | idle | stopped | initialized | drained | exhausted | queued | spent => exact .refl
  | called => exact (execute_executes _ (api.setLane _ _) _ _ _).engineSteps
  | owner => exact (execute_executes _ _ _ _ _).engineSteps
  | deadlines => exact processDeadlines_venueSteps.engineSteps
  | event => exact (handleAdapterEvent_handled _).venueSteps.engineSteps

structure Created (config : RuntimeConfig) (timerErrors : List Nat) (api : OmsApi) : Prop where
  valid : validConfig config
  engine : StateEngine.create config.orderCapacity config.fillDedupCapacity = some api.engine
  scheduler : DeadlineScheduler.create config.deadlineCapacity timerErrors = some api.scheduler
  mode : api.mode = config.mode
  gtdHandles : api.gtdHandles = replicate config.deadlineCapacity {}
  orderDeadlines : api.orderDeadlines = replicate api.engine.orders.capacity {}
  lanes : api.lanes = config.lanes.map fun lane =>
    { laneId := lane.laneId, commandCapacity := lane.commandCapacity
      updateCapacity := lane.updateCapacity }
  deadlineDepth : api.deadlineDepth = 0

theorem OmsApi.create_created {config : RuntimeConfig} {errors : List Nat}
    (h : create H config errors = some api) : Created config errors api := by
  unfold create at h
  simp only [bind_eq_bind, bind_eq_some_iff, guard_eq_some'] at h
  obtain ⟨_, hv, _, _, _, _, _, _, engine, he, scheduler, hs, _, _, _, _, _, _, h⟩ := h
  cases some.inj h
  exact ⟨hv, he, hs, rfl, rfl, rfl, rfl, rfl⟩

theorem OmsRun.engineReach (h : OmsRun H allowed api) : EngineReach H.orders api.engine := by
  induction h with
  | start h => exact .start (create_created h).engine
  | next _ step _ ih => exact ih.steps (perform_performed H _ step).engineSteps

theorem OmsRun.valid (h : OmsRun H allowed api) : api.engine.orders.Valid H.orders := h.engineReach.valid

namespace StateEngine

variable {H : OrderHashes} {s : StateEngine}

theorem submit_updates_length (prep : SubmitOrderRequest) : (s.submit H prep).updates.length ≤ 1 := by
  unfold submit
  split
  next => simp
  next => split <;> simp

theorem requestCancel_updates_length (token : RequestToken) : (s.requestCancel H token).updates.length ≤ 1 := by
  unfold requestCancel
  split
  next => simp
  dsimp only
  split <;> simp

theorem rejectLocal_updates_length (handle : OrderHandle) : (s.rejectLocal handle).updates.length ≤ 1 := by
  unfold rejectLocal
  split
  next => simp
  next => split <;> simp [settle]

theorem expireOneForRetirement_updates_length (inst : InstrumentId) :
    (s.expireOneForRetirement inst).updates.length ≤ 1 := by
  unfold expireOneForRetirement
  split
  next => simp
  dsimp only
  split
  next => simp
  split
  next => simp
  next => split <;> simp [settle]

theorem applyFill_updates_length (slot : Nat) (event : VenueEvent) :
    (s.applyFill H slot event).updates.length ≤ 1 := by
  unfold applyFill
  dsimp only
  split
  next => simp
  split
  next => simp
  split
  next => simp
  next =>
    split
    next => simp
    split
    next => simp
    next => split <;> simp
  next => simp

theorem applyReaction_updates_length (slot : Nat) (reaction : Reaction) :
    (s.applyReaction slot reaction).updates.length ≤ 1 := by
  cases reaction with
  | refuse => simp [applyReaction]
  | accept r observe emit => cases emit <;> simp [applyReaction]

theorem apply_updates_length (event : VenueEvent) : (s.apply H event).updates.length ≤ 1 := by
  unfold apply
  split
  next => simp
  unfold applyAt
  split
  next => exact applyFill_updates_length _ _
  next => exact applyFill_updates_length _ _
  next => exact applyReaction_updates_length _ _

theorem perform_updates_length (op : EngineOp) : (s.perform H op).updates.length ≤ 1 := by
  cases op with
  | submit prepared => exact submit_updates_length prepared
  | rejectLocal handle => exact rejectLocal_updates_length handle
  | requestCancel token => exact requestCancel_updates_length token
  | expireOneForRetirement instrumentId => exact expireOneForRetirement_updates_length instrumentId
  | apply event => exact apply_updates_length event
  | erase | eraseTerminalByInstrument => simp [perform]

end StateEngine

theorem stage_nil {updates : List SinkUpdate} (h : updates.length ≤ 1) : stage [] updates = updates := by
  simp only [stage, nil_append]
  exact take_of_length_le (by omega)

theorem stage_append {staged updates : List SinkUpdate} (h : staged.length ≤ 1)
    (h' : updates.length ≤ 1) : stage staged updates = staged ++ updates := by
  exact take_of_length_le (by simp; omega)

variable {done : Executed} {lane lane' : Lane} {token : RequestToken}

theorem Ran.lanes (h : Ran H api command answers done) : done.api.lanes = api.lanes := by
  cases h with
  | placed hc ho he hd => exact (commitPlaced_only hd).lanes
  | rejected hc hr ho he hne hd => exact (commitPlaced_only hd).lanes
  | _ => rfl

/-- The states in which the owner starts on a command: those between the steps, and those of an
inline call that has its token. -/
inductive OwnerReach (H : RuntimeHashes) : OmsApi → Prop
  | between {api : OmsApi} (h : OmsReach H api) : OwnerReach H api
  | calling {api : OmsApi} {index : Nat} {token : RequestToken} {lane : Lane} (h : OmsReach H api)
      (ha : (api.lane index).allocateToken = (.ok token, lane)) :
      OwnerReach H (api.setLane index lane)

theorem OwnerReach.engineReach (h : OwnerReach H api) : EngineReach H.orders api.engine := by
  cases h with
  | between h => exact OmsRun.engineReach h
  | calling h =>
    have hr := OmsRun.engineReach h
    exact hr

structure Accepts (lane : Lane) (token : RequestToken) (lane' : Lane) : Prop where
  home : token.lane = lane.laneId
  epoch : lane.sessionEpoch ≠ 0
  sequencePos : token.sequence ≠ 0
  sequence : token.sequence = (lane.ownerSequence + 1) % 2 ^ 64
  eq : lane' = { lane with ownerSequence := token.sequence }

theorem Lane.validateToken_eq_some (h : lane.validateToken token = some lane') : Accepts lane token lane' := by
  unfold validateToken at h
  split at h
  next => simp at h
  next hc =>
  simp only [not_or, not_not] at hc
  exact ⟨hc.1, hc.2.1, hc.2.2.2.1, hc.2.2.2.2, (some.inj h).symm⟩

theorem Accepts.room (h : Accepts lane token lane') : lane'.room = lane.room := by rw [h.eq]; rfl

theorem RuntimeCommand.results_length (result : Error) : (command.results result).length ≤ 1 := by
  cases command with
  | place => simp only [results]; split <;> simp
  | _ => simp [results]

theorem RuntimeCommand.results_engineUpdate {result : Error} {update : RuntimeUpdate}
    (h : update ∈ command.results result) : update.engineUpdate = none := by
  cases command with
  | place =>
    simp only [results] at h
    split at h
    next => simp at h
    next => cases mem_singleton.mp h; rfl
  | reservedCancelAll | reservedReconcile | query => simp [results] at h
  | _ => cases mem_singleton.mp h; rfl

namespace OmsApi

theorem processCommand_of_true (h : (api.processCommand H index command answers).1 = true) :
    (api.lane index).hasRoom command.required ∧
      api.processCommand H index command answers = (true, api.execute H index command answers) := by
  unfold processCommand at h ⊢
  split at h
  next => cases h
  next hr =>
  rw [if_neg hr]
  exact ⟨by simpa only [Bool.not_eq_true', Bool.not_eq_false] using hr, rfl⟩

theorem index_lt_of_hasRoom {count : Nat} (h : (api.lane index).hasRoom count) (hc : 0 < count) :
    index < api.lanes.length := by
  by_contra hle
  rw [lane, getElem?_eq_none (by omega), Lane.hasRoom_iff] at h
  simp [Lane.room] at h
  omega

theorem report_lane (hb : index < api.lanes.length) (h : Ran H (api.setLane index lane) command answers done) :
    (report index command done).lane index =
      lane.publishAll (done.staged.map SinkUpdate.staged ++ command.results done.result) := by
  have hl : done.api.lane index = lane := by
    unfold OmsApi.lane
    rw [h.lanes]
    exact lane_setLane_self hb lane
  have hb' : index < done.api.lanes.length := by
    rw [h.lanes]
    simpa [setLane] using hb
  unfold report
  rw [lane_publish_self hb', hl]

theorem report_getLast {update : RuntimeUpdate} (hb : index < api.lanes.length)
    (h : Ran H (api.setLane index lane) command answers done)
    (hr : command.results done.result = [update]) (hrm : done.staged.length + 1 ≤ lane.room) :
    ((report index command done).lane index).updates.getLast? = some update := by
  rw [report_lane hb h, Lane.publishAll_eq, hr, take_of_length_le (by simpa using hrm)]
  simp

end OmsApi

open Lane StateEngine

variable {api'' : OmsApi} {events : List AdapterEvent} {kind : QueryKind} {request : QueryRequest}

/-- The execution mode and everything of the lanes but their update rings. -/
structure SameControls (api api' : OmsApi) : Prop where
  mode : api'.mode = api.mode
  controls : api'.controls = api.controls

theorem SameControls.refl : SameControls api api := ⟨rfl, rfl⟩

theorem SameControls.trans (h : SameControls api api') (h' : SameControls api' api'') :
    SameControls api api'' := ⟨h'.mode.trans h.mode, h'.controls.trans h.controls⟩

namespace OmsApi

theorem DeadlinesOnly.sameControls (h : DeadlinesOnly api api') : SameControls api api' := by
  refine ⟨?_, by unfold controls; rw [h.lanes]⟩
  rw [h]

theorem CountersOnly.sameControls (h : CountersOnly api api') : SameControls api api' := by
  rw [h]
  exact ⟨rfl, rfl⟩

theorem engine_sameControls (s : StateEngine) : SameControls api { api with engine := s } := ⟨rfl, rfl⟩

theorem publish_sameControls (updates : List RuntimeUpdate) :
    SameControls api (api.publish index updates) := ⟨rfl, publish_controls⟩

theorem VenueHandled.sameControls {event : VenueEvent} (h : VenueHandled H api event api') :
    SameControls api api' := by
  cases h with
  | ignored h => exact h.sameControls
  | failed he h => exact (engine_sameControls _).trans h.sameControls
  | applied => exact ((engine_sameControls _).trans (withdraw_only _).sameControls).trans (publish_sameControls _)

theorem EventHandled.sameControls (h : EventHandled H api api') : SameControls api api' := by
  cases h with
  | venue h => exact h.sameControls
  | ignored => exact .refl
  | forwarded => exact publish_sameControls _
  | @broadcast update =>
    refine ⟨rfl, ?_⟩
    simp only [controls, List.map_map]
    exact map_congr_left fun lane _ => Lane.publishAll_control lane [update]

theorem handleAdapterEvents_sameControls (H : RuntimeHashes) (api : OmsApi)
    (events : List AdapterEvent) : SameControls api (api.handleAdapterEvents H events) :=
  handleAdapterEvents_keep (P := SameControls api) (fun he h => h.trans he.sameControls) events .refl

theorem query_sameControls : SameControls api (api.query H index kind token request answers) :=
  query_keep (fun he h => h.trans he.sameControls) (fun _ h => h.trans (publish_sameControls _)) .refl

theorem DeadlineTurn.sameControls {goes : Bool} (h : DeadlineTurn H now api api' goes) : SameControls api api' := by
  cases h with
  | failed => exact ⟨rfl, rfl⟩
  | dropped => exact (unlinkDeadline_only _).sameControls
  | retried => exact (unlinkDeadline_only _).sameControls.trans retryDeadline_only.sameControls
  | expired =>
    exact ((unlinkDeadline_only _).sameControls.trans (engine_sameControls _)).trans (publish_sameControls _)

theorem processDeadlines_sameControls : SameControls api (api.processDeadlines H now) :=
  deadlineLoop_keep (P := SameControls api) (fun ht h => h.trans ht.sameControls) _ .refl

end OmsApi

theorem Ran.sameControls {done : Executed} (h : Ran H api command answers done) : SameControls api done.api := by
  refine ⟨?_, by unfold controls; rw [h.lanes]⟩
  cases h with
  | placed hc ho he hd => exact (commitPlaced_only hd).sameControls.mode
  | rejected hc hr ho he hne hd => exact (commitPlaced_only hd).sameControls.mode
  | _ => rfl

theorem OmsApi.Executes.controls (h : Executes H api index command answers api') :
    ((api.lane index).validateToken command.token = none ∧ SameControls api api') ∨
      ∃ lane, (api.lane index).validateToken command.token = some lane ∧
        SameControls (api.setLane index lane) api' := by
  cases h with
  | nothing hv => exact .inl ⟨hv, .refl⟩
  | refused hv => exact .inl ⟨hv, publish_sameControls _⟩
  | ran _ hv h => exact .inr ⟨_, hv, h.sameControls.trans (publish_sameControls _)⟩
  | queried hc hv =>
    cases hc
    exact .inr ⟨_, hv, query_sameControls⟩

theorem OmsApi.Executes.mode (h : Executes H api index command answers api') : api'.mode = api.mode := by
  rcases h.controls with ⟨_, h⟩ | ⟨_, _, h⟩ <;> exact h.mode

theorem Performed.mode (h : Performed H api step api') : api'.mode = api.mode := by
  cases h with
  | called => exact (execute_executes _ (api.setLane _ _) _ _ _).mode
  | owner => exact (execute_executes _ _ _ _ _).mode
  | deadlines => exact processDeadlines_sameControls.mode
  | event => exact (handleAdapterEvent_handled _).sameControls.mode
  | _ => rfl

open List

variable {updates : List RuntimeUpdate}

namespace OmsApi

def lost (api : OmsApi) : List (List RuntimeUpdate) := api.lanes.map Lane.lost

theorem setLane_lost_self (h : lane.lost = (api.lane index).lost) : (api.setLane index lane).lost = api.lost := by
  unfold lost setLane
  refine ext_getElem? fun i => ?_
  rw [map_set, getElem?_set]
  split
  next hi =>
    subst hi
    split
    next hb =>
      rw [length_map] at hb
      rw [h]
      simp [OmsApi.lane, getElem?_eq_getElem hb]
    next hb => rw [getElem?_eq_none (by omega)]
  next => rfl

theorem publish_lost_iff (hb : index < api.lanes.length) :
    (api.publish index updates).lost = api.lost ↔ updates.length ≤ (api.lane index).room := by
  constructor
  · intro h
    have hi := congrArg (fun lost : List (List RuntimeUpdate) => lost[index]?) h
    simp only [lost, publish, setLane, map_set, getElem?_set, length_map, hb,
      getElem?_map, getElem?_eq_getElem hb, Option.map_some, if_true] at hi
    rw [publishAll_lost] at hi
    have hln : api.lane index = api.lanes[index] := by
      simp [lane, getElem?_eq_getElem hb]
    rw [hln] at hi ⊢
    simpa using hi
  · intro h
    refine setLane_lost_self ?_
    rw [publishAll_lost, drop_eq_nil_of_le h, append_nil]

theorem publish_lost (h : updates.length ≤ (api.lane index).room) : (api.publish index updates).lost = api.lost := by
  refine setLane_lost_self ?_
  rw [publishAll_lost, drop_eq_nil_of_le h, append_nil]

theorem lane_congr (h : api'.lanes = api.lanes) (index : Nat) : api'.lane index = api.lane index := by
  unfold lane
  rw [h]

theorem lost_congr (h : api'.lanes = api.lanes) : api'.lost = api.lost := by
  unfold lost
  rw [h]

theorem CountersOnly.lanes (h : CountersOnly api api') : api'.lanes = api.lanes := by
  rw [h]

theorem publish_staged_lost {staged : List SinkUpdate} (h : api'.lanes = api.lanes)
    (hr : (api.lane index).hasRoom 2) :
    (api'.publish index ((stage [] staged).map SinkUpdate.staged)).lost = api.lost := by
  rw [hasRoom_iff, ← lane_congr h] at hr
  rw [publish_lost, lost_congr h]
  refine le_trans ?_ hr
  simp [stage]

theorem VenueHandled.lost {event : VenueEvent} (h : VenueHandled H api event api') : api'.lost = api.lost := by
  cases h with
  | ignored h => exact lost_congr h.lanes
  | failed he h => exact lost_congr h.lanes
  | applied hl hr ho he => exact publish_staged_lost (withdraw_only _).lanes hr

theorem EventHandled.lost (h : EventHandled H api api') : api'.lost = api.lost := by
  cases h with
  | venue h => exact h.lost
  | ignored => rfl
  | forwarded _ hr => exact publish_lost (hasRoom_iff.mp hr)
  | broadcast _ hall =>
    simp only [OmsApi.lost, List.map_map]
    refine map_congr_left fun lane hmem => ?_
    have hr := hasRoom_iff.mp (hall lane hmem)
    rw [Function.comp_apply, publish_eq_publishAll, publishAll_lost, drop_eq_nil_of_le hr, append_nil]

theorem handleAdapterEvents_lost : (api.handleAdapterEvents H events).lost = api.lost :=
  handleAdapterEvents_keep (P := fun api' => api'.lost = api.lost)
    (fun he h => he.lost.trans h) events rfl

end OmsApi

open OrderTable

variable {done : Executed} {event : VenueEvent}

section

variable {H : OrderHashes} {s s' : StateEngine} (hr : EngineReach H s)

include hr

theorem EngineSteps.length (h : EngineSteps H s s') : s'.orders.records.length = s.orders.records.length := by
  induction h with
  | refl => rfl
  | tail hsts hop ih =>
    obtain ⟨op, rfl⟩ := hop
    rcases (StateEngine.perform_spec (hr.steps hsts).valid op).2.1 with hfr | ⟨-, hlen⟩
    · exact hfr.length.trans ih
    · exact hlen.trans ih

theorem VenueSteps.framed (h : VenueSteps H s s') : Framed s.orders s'.orders := by
  induction h with
  | refl => exact .refl _
  | tail hsts hop ih =>
    obtain ⟨event, rfl⟩ := hop
    exact ih.trans (StateEngine.perform_framed (hr.steps (VenueSteps.engineSteps hsts)).valid (.apply event) nofun)

end

def RuntimeCommand.isRetire : RuntimeCommand → Bool
  | .retireInstrument _ => true
  | _ => false

theorem Ran.framed (h : Ran H api command answers done) (hv : api.engine.orders.Valid H.orders)
    (hc : command.isRetire = false) : Framed api.engine.orders done.api.engine.orders := by
  cases h with
  | quiet => exact Framed.refl _
  | @unplaced submitted => exact (submit_spec hv submitted).1.framed
  | @placed submitted _ _ _ ho _ hd =>
    subst ho
    rw [(commitPlaced_only hd).engine]
    exact (submit_spec hv submitted).1.framed
  | @rejected submitted _ _ _ _ _ ho _ _ hd =>
    subst ho
    have hk := (submit_spec hv submitted).1
    rw [(commitPlaced_only hd).engine]
    exact hk.framed.trans (StateEngine.perform_framed hk.valid (.rejectLocal _) nofun)
  | canceled _ ho =>
    subst ho
    exact StateEngine.perform_framed hv (.requestCancel _) nofun
  | erased _ _ hr => subst hr; cases hc
  | expired hr => subst hr; cases hc

end SelfQuant.Oms
