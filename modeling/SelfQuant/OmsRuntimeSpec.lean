import SelfQuant.OmsRun
import SelfQuant.OmsEngineRun

namespace SelfQuant.Oms

def RuntimeCommand.token : RuntimeCommand → RequestToken
  | .place submitted => submitted.order.token
  | .cancel request => request.requestToken
  | .registerInstrument request => request.requestToken
  | .retireInstrument request => request.requestToken
  | .query _ token _ => token
  | .cancelVenue request => request.requestToken
  | .reservedCancelAll | .reservedReconcile => {}

/-- The adapter's reservation for the cancel of an order that is there. -/
structure CancelReserved (H : RuntimeHashes) (api : OmsApi) (target : RequestToken)
    (answers : Answers) : Prop where
  routed : ∃ slot, api.engine.orders.findToken H.orders target = some slot ∧
    api.router.route (api.engine.orders.record slot).routing ≠ none
  reserved : answers.reserveCommand = .ok

inductive Ran (H : RuntimeHashes) (api : OmsApi) (command : RuntimeCommand) (answers : Answers) :
    Executed → Prop
  | quiet (directory : ExecutionDirectory) (result : Error)
      (hp : ∀ submitted, command = .place submitted → api.reservePlace submitted answers ≠ .ok)
      (hc : ∀ request, command = .cancel request → result ≠ .ok ∧ ¬CancelReserved H api request.targetToken answers) :
      Ran H api command answers ⟨{ api with directory := directory }, result, []⟩
  | unplaced {submitted : SubmitOrderRequest} (hc : command = .place submitted)
      (he : (api.engine.submit H.orders submitted).error ≠ .ok) :
      Ran H api command answers
        ⟨{ api with engine := (api.engine.submit H.orders submitted).engine },
          (api.engine.submit H.orders submitted).error,
          stage [] (api.engine.submit H.orders submitted).updates⟩
  | placed {submitted : SubmitOrderRequest} {out : Outcome} {api' : OmsApi}
      (hc : command = .place submitted) (ho : api.engine.submit H.orders submitted = out)
      (he : out.error = .ok)
      (hd : { api with engine := out.engine }.commitPlaced out.handle submitted.order answers = (.ok, api')) :
      Ran H api command answers ⟨api', .ok, stage [] out.updates⟩
  | rejected {submitted : SubmitOrderRequest} {out : Outcome} {error : Error} {api' : OmsApi}
      (hc : command = .place submitted) (hr : api.reservePlace submitted answers = .ok)
      (ho : api.engine.submit H.orders submitted = out)
      (he : out.error = .ok) (hne : error ≠ .ok)
      (hd : { api with engine := out.engine }.commitPlaced out.handle submitted.order answers = (error, api')) :
      Ran H api command answers
        ⟨{ api' with engine := (api'.engine.rejectLocal out.handle).engine }, error,
          stage (stage [] out.updates) (api'.engine.rejectLocal out.handle).updates⟩
  | canceled {request : CancelOrderRequest} {out : Outcome} (hc : command = .cancel request)
      (ho : api.engine.requestCancel H.orders request.targetToken = out)
      (hr : CancelReserved H api request.targetToken answers) :
      Ran H api command answers
        ⟨{ api with engine := out.engine },
          if out.error ≠ .ok then out.error else adapterError answers.commitCancel,
          stage [] out.updates⟩
  | erased {request : RetireInstrumentRequest} (directory : ExecutionDirectory) (result : Error)
      (hc : command = .retireInstrument request) :
      Ran H api command answers
        ⟨{ api with
            directory := directory
            engine := { api.engine with orders := (api.engine.orders.eraseTerminalByInstrument
              H.orders request.instrumentId).2 } }, result, []⟩
  | expired {request : RetireInstrumentRequest} {out : Outcome}
      (hc : command = .retireInstrument request) (hm : request.mode = .lifecycleEnded)
      (ho : api.engine.expireOneForRetirement request.instrumentId = out) :
      Ran H api command answers
        ⟨{ api with engine := out.engine }, if out.error = .ok then .deferred else out.error,
          if out.error = .ok then stage [] out.updates else []⟩

namespace OmsApi

variable {H : RuntimeHashes} {api : OmsApi} {index : Nat} {answers : Answers}
  {request : RetireInstrumentRequest} {update : RuntimeUpdate}

theorem place_ran (sub : SubmitOrderRequest) : Ran H api (.place sub) answers (api.place H sub answers) := by
  unfold place
  dsimp only
  split
  next hr =>
    refine .quiet api.directory _ (fun sub' hc => ?_) (by simp)
    cases hc
    exact hr
  next hr =>
    split
    next he => exact .unplaced rfl he
    next he =>
    split
    next hd => exact .placed rfl rfl (not_not.mp he) hd
    next hne hd => exact .rejected rfl (not_not.mp hr) rfl (not_not.mp he) hne hd

theorem cancel_ran (request : CancelOrderRequest) :
    Ran H api (.cancel request) answers (api.cancel H request answers) := by
  unfold cancel
  cases hf : api.engine.orders.findToken H.orders request.targetToken with
  | none =>
    refine .quiet api.directory _ (by simp) fun request' hc => ?_
    cases hc
    refine ⟨by simp [adapterError], fun hr => ?_⟩
    obtain ⟨slot, hs, _⟩ := hr.routed
    rw [hf] at hs
    cases hs
  | some slot =>
    simp only [Option.bind_some]
    cases hrt : api.router.route (api.engine.orders.record slot).routing with
    | none =>
      refine .quiet api.directory _ (by simp) fun request' hc => ?_
      cases hc
      refine ⟨by simp [adapterError], fun hr => ?_⟩
      obtain ⟨slot', hs, hn⟩ := hr.routed
      rw [hf] at hs
      cases hs
      exact hn hrt
    | some kind =>
      dsimp only
      split
      next hne =>
        refine .quiet api.directory _ (by simp) fun request' hc => ?_
        exact ⟨by simpa [adapterError_eq_ok] using hne, fun hr => hne hr.reserved⟩
      next hok => exact .canceled rfl rfl ⟨⟨slot, hf, by simp [hrt]⟩, not_not.mp hok⟩

theorem registerInstrument_ran (request : RegisterInstrumentRequest) :
    Ran H api (.registerInstrument request) answers (api.registerInstrument H request answers) := by
  unfold registerInstrument
  split
  next => exact .quiet api.directory _ (by simp) (by simp)
  split
  next =>
    split
    next => exact .quiet _ _ (by simp) (by simp)
    next => exact .quiet _ _ (by simp) (by simp)
  next => exact .quiet _ _ (by simp) (by simp)
  next => exact .quiet _ _ (by simp) (by simp)

theorem retireIdle_ran (routing : ResolvedInstrument) :
    Ran H api (.retireInstrument request) answers (api.retireIdle H request routing answers) := by
  unfold retireIdle
  split
  next => exact .quiet api.directory _ (by simp) (by simp)
  split
  next => exact .erased _ _ rfl
  next => exact .erased _ _ rfl
  next => exact .quiet _ _ (by simp) (by simp)

theorem retireInstrument_ran :
    Ran H api (.retireInstrument request) answers (api.retireInstrument H request answers) := by
  unfold retireInstrument
  dsimp only
  split
  next =>
    split
    next => exact .quiet api.directory _ (by simp) (by simp)
    next => exact .erased api.directory _ rfl
  next =>
    split
    next =>
      split
      next => exact .quiet api.directory _ (by simp) (by simp)
      next hf =>
      have hm : request.mode = .lifecycleEnded := by
        simp only [forceExpire, Bool.not_eq_true', Bool.not_eq_false, Bool.and_eq_true, decide_eq_true_eq] at hf
        exact hf.1.1
      exact .expired rfl hm rfl
    next => exact retireIdle_ran _

inductive Executes (H : RuntimeHashes) (api : OmsApi) (index : Nat) (command : RuntimeCommand)
    (answers : Answers) : OmsApi → Prop
  | nothing (hv : (api.lane index).validateToken command.token = none)
      (hr : ∀ result, command.results result = []) :
      Executes H api index command answers api
  | refused (hv : (api.lane index).validateToken command.token = none) :
      Executes H api index command answers (report index command { api := api, result := .invalidArgument })
  | ran {lane : Lane} {done : Executed}
      (hq : ∀ kind token request, command ≠ .query kind token request)
      (hv : (api.lane index).validateToken command.token = some lane)
      (h : Ran H (api.setLane index lane) command answers done) :
      Executes H api index command answers (report index command done)
  | queried {kind : QueryKind} {token : RequestToken} {request : QueryRequest} {lane : Lane}
      (hc : command = .query kind token request)
      (hv : (api.lane index).validateToken token = some lane) :
      Executes H api index command answers ((api.setLane index lane).query H index kind token request answers)

theorem report_withToken {command : RuntimeCommand} {run : OmsApi → Executed}
    (hq : ∀ kind token request, command ≠ .query kind token request)
    (h : ∀ api, Ran H api command answers (run api)) : Executes H api index command answers
      (report index command (api.withToken index command.token run)) := by
  unfold withToken
  split
  next hv => exact .refused hv
  next hv => exact .ran hq hv (h _)

theorem execute_executes (H : RuntimeHashes) (api : OmsApi) (index : Nat) (command : RuntimeCommand)
    (answers : Answers) : Executes H api index command answers (api.execute H index command answers) := by
  unfold execute
  split
  next => exact report_withToken (by simp) fun _ => place_ran _
  next => exact report_withToken (by simp) fun _ => cancel_ran _
  next => exact report_withToken (by simp) fun api => .quiet api.directory _ (by simp) (by simp)
  next => exact report_withToken (by simp) fun _ => registerInstrument_ran _
  next => exact report_withToken (by simp) fun _ => retireInstrument_ran
  next kind token request =>
    split
    next hv => exact .nothing hv fun _ => rfl
    next hv => exact .queried rfl hv
  next => exact .nothing (by simp [RuntimeCommand.token, Lane.validateToken]) fun _ => rfl
  next => exact .nothing (by simp [RuntimeCommand.token, Lane.validateToken]) fun _ => rfl

end OmsApi

open List

namespace Lane

variable {lane : Lane} {updates : List RuntimeUpdate} {count : Nat}

def room (lane : Lane) : Nat := lane.updateCapacity - lane.updates.length

theorem hasRoom_iff : lane.hasRoom count ↔ count ≤ lane.room := by simp [hasRoom, room]

variable (lane updates)

theorem publishAll_eq : lane.publishAll updates = { lane with
      updates := lane.updates ++ updates.take lane.room, lost := lane.lost ++ updates.drop lane.room } := by
  induction updates generalizing lane with
  | nil => simp [publishAll]
  | cons update updates ih =>
    have hst : lane.publishAll (update :: updates) = (lane.publish update).publishAll updates := rfl
    rw [hst, ih]
    unfold publish room
    by_cases hfu : lane.updates.length < lane.updateCapacity
    · obtain ⟨n, hn⟩ : ∃ n, lane.updateCapacity - lane.updates.length = n + 1 :=
        ⟨lane.updateCapacity - lane.updates.length - 1, by omega⟩
      have hn' : lane.updateCapacity - (lane.updates.length + 1) = n := by omega
      simp [hfu, hn, hn']
    · have hz : lane.updateCapacity - lane.updates.length = 0 := by omega
      simp [hfu, hz]

def control (lane : Lane) : Lane := { lane with updates := [], drained := [], lost := [] }

theorem publishAll_control : (lane.publishAll updates).control = lane.control := by
  rw [publishAll_eq]
  rfl

theorem publishAll_published : (lane.publishAll updates).published = lane.published ++ updates.take lane.room := by
  rw [publishAll_eq]
  simp [published]

theorem publishAll_lost :
    (lane.publishAll updates).lost = lane.lost ++ updates.drop lane.room := by rw [publishAll_eq]

theorem publish_eq_publishAll (update : RuntimeUpdate) : lane.publish update = lane.publishAll [update] := rfl

end Lane

namespace OmsApi

variable {H : RuntimeHashes} {api api' : OmsApi} {index : Nat} {updates : List RuntimeUpdate}

def controls (api : OmsApi) : List Lane := api.lanes.map Lane.control

theorem lane_control : (api.lane index).control = (api.controls[index]?).getD {} := by
  unfold lane controls
  rw [getElem?_map]
  cases api.lanes[index]? <;> rfl

theorem lanes_length_congr (h : api'.controls = api.controls) : api'.lanes.length = api.lanes.length := by
  simpa [controls] using congrArg length h

theorem setLane_controls (lane : Lane) : (api.setLane index lane).controls = api.controls.set index lane.control := by
  simp [controls, setLane, map_set]

theorem controls_set_self : api.controls.set index (api.lane index).control = api.controls := by
  refine ext_getElem? fun i => ?_
  rw [getElem?_set]
  split
  next h =>
    subst h
    split
    next hb => rw [lane_control, getElem?_eq_getElem hb]; rfl
    next hb => rw [getElem?_eq_none (by omega)]
  next => rfl

theorem publish_controls : (api.publish index updates).controls = api.controls := by
  unfold publish
  rw [setLane_controls, Lane.publishAll_control, controls_set_self]

theorem lane_publish_self (h : index < api.lanes.length) (updates : List RuntimeUpdate) :
    (api.publish index updates).lane index = (api.lane index).publishAll updates :=
  lane_setLane_self h _

end OmsApi

namespace OmsApi

variable {H : RuntimeHashes} {api api' : OmsApi} {index slot now : Nat}
  {handle : OrderHandle} {event : VenueEvent} {answers : Answers} {P : OmsApi → Prop}

def DeadlinesOnly (api api' : OmsApi) : Prop := api' = { api with
  scheduler := api'.scheduler, gtdHandles := api'.gtdHandles
  orderDeadlines := api'.orderDeadlines, deadlineDepth := api'.deadlineDepth }

theorem DeadlinesOnly.engine (h : DeadlinesOnly api api') : api'.engine = api.engine := by
  rw [h]

theorem DeadlinesOnly.lanes (h : DeadlinesOnly api api') : api'.lanes = api.lanes := by
  rw [h]

theorem cancelDeadline_only : DeadlinesOnly api (api.cancelDeadline slot) := by
  unfold cancelDeadline
  split
  next => rfl
  split
  next => split <;> rfl
  next => rfl

theorem withdraw_only (record : Option Nat) : DeadlinesOnly api (api.withdraw record) := by
  cases record with
  | none => rfl
  | some slot => exact cancelDeadline_only

theorem retryDeadline_only : DeadlinesOnly api (api.retryDeadline now handle) := by
  unfold retryDeadline
  dsimp only
  split <;> rfl

theorem unlinkDeadline_only (sched : DeadlineScheduler) : DeadlinesOnly api (api.unlinkDeadline sched handle) := rfl

theorem scheduleGtd_only (expiry : Nat) : DeadlinesOnly api (api.scheduleGtd handle expiry).2 := by
  unfold scheduleGtd
  split
  next => rfl
  next => split <;> rfl

theorem commitPlaced_only {place : NewOrderRequest} {error : Error}
    (h : api.commitPlaced handle place answers = (error, api')) : DeadlinesOnly api api' := by
  have he : api' = (api.commitPlaced handle place answers).2 := by rw [h]
  subst he
  unfold commitPlaced
  dsimp only
  split
  next => exact scheduleGtd_only _
  next => rfl

def CountersOnly (api api' : OmsApi) : Prop := api' = { api with
  unmatchedVenueEvents := api'.unmatchedVenueEvents, unmatchedFills := api'.unmatchedFills
  lateEventAfterRetirement := api'.lateEventAfterRetirement
  unmatchedFillAfterRetirement := api'.unmatchedFillAfterRetirement }

inductive VenueHandled (H : RuntimeHashes) (api : OmsApi) (event : VenueEvent) : OmsApi → Prop
  | ignored {api' : OmsApi} (h : CountersOnly api api') : VenueHandled H api event api'
  | failed {api' : OmsApi} (he : (api.engine.apply H.orders event).error ≠ .ok)
      (h : CountersOnly { api with engine := (api.engine.apply H.orders event).engine } api') :
      VenueHandled H api event api'
  | applied {index : Nat} {out : Outcome} (hl : api.eventLane H event = some index)
      (hr : (api.lane index).hasRoom 2) (ho : api.engine.apply H.orders event = out)
      (he : out.error = .ok) :
      VenueHandled H api event
        (({ api with engine := out.engine }.withdraw (eventRecord H api.engine.orders event)).publish
          index ((stage [] out.updates).map SinkUpdate.staged))

theorem handleVenueEvent_handled : VenueHandled H api event (api.handleVenueEvent H event).2 := by
  unfold handleVenueEvent
  split
  next => split <;> exact .ignored rfl
  next index hl =>
  split
  next => exact .ignored rfl
  next hr =>
  dsimp only
  split
  next he => exact .failed (by rw [he.1]; simp) rfl
  split
  next he => exact .failed (by rw [he.1]; simp) rfl
  split
  next he =>
    refine .failed he ?_
    split <;> rfl
  next he => exact .applied hl (by simpa using hr) rfl (not_not.mp he)

/-- What an event of an adapter does: events other than those of a venue leave the engine alone. -/
inductive EventHandled (H : RuntimeHashes) (api : OmsApi) : OmsApi → Prop
  | venue {event : VenueEvent} {api' : OmsApi} (h : VenueHandled H api event api') : EventHandled H api api'
  | ignored : EventHandled H api api
  | forwarded {index : Nat} {update : RuntimeUpdate} (hu : update.engineUpdate = none)
      (hr : (api.lane index).hasRoom 1) : EventHandled H api (api.publish index [update])
  | broadcast {update : RuntimeUpdate} (hu : update.engineUpdate = none) (hr : ∀ lane ∈ api.lanes, lane.hasRoom 1) :
      EventHandled H api { api with lanes := api.lanes.map fun lane => lane.publish update }

theorem handleAdapterEvent_handled (event : AdapterEvent) :
    EventHandled H api (api.handleAdapterEvent H event).2 := by
  have hforward : ∀ token {update}, update.engineUpdate = none → EventHandled H api (api.forward token update).2 := by
    intro token update hu
    unfold forward
    split
    next => exact .ignored
    split
    next => exact .ignored
    next hr => exact .forwarded hu (by simpa using hr)
  have hbroadcast : ∀ {update}, update.engineUpdate = none → EventHandled H api (api.broadcast update).2 := by
    intro update hu
    unfold broadcast
    split
    next hr => exact .broadcast hu (all_eq_true.mp hr)
    next => exact .ignored
  cases event with
  | venue event => exact .venue handleVenueEvent_handled
  | commandResult | openOrderSnapshot | positionSnapshot | balanceSnapshot | queryComplete => exact hforward _ rfl
  | status | reconcileComplete => exact hbroadcast rfl
  | other => exact .ignored

/-- A turn of the deadline loop that takes a deadline: what it leaves, and whether the loop
goes on. -/
inductive DeadlineTurn (H : RuntimeHashes) (now : Nat) (api : OmsApi) : OmsApi → Bool → Prop
  | failed {due : Deadline} {error : DeadlineError} {scheduler : DeadlineScheduler}
      (hp : api.scheduler.popDue now = (some (due, error), scheduler)) (he : error ≠ .ok) :
      DeadlineTurn H now api { api with scheduler := scheduler } false
  | dropped {due : Deadline} {scheduler : DeadlineScheduler} {handle : OrderHandle}
      (hp : api.scheduler.popDue now = (some (due, .ok), scheduler))
      (hh : (api.gtdHandles[due.handle.slot]?).getD {} = handle)
      (hl : api.engine.orders.lookup handle = none) :
      DeadlineTurn H now api (api.unlinkDeadline scheduler handle) true
  | retried {due : Deadline} {scheduler : DeadlineScheduler} {handle : OrderHandle} {slot : Nat}
      (hp : api.scheduler.popDue now = (some (due, .ok), scheduler))
      (hh : (api.gtdHandles[due.handle.slot]?).getD {} = handle)
      (hl : api.engine.orders.lookup handle = some slot) :
      DeadlineTurn H now api ((api.unlinkDeadline scheduler handle).retryDeadline now handle) false
  | expired {due : Deadline} {scheduler : DeadlineScheduler} {handle : OrderHandle}
      {slot index : Nat} (hp : api.scheduler.popDue now = (some (due, .ok), scheduler))
      (hh : (api.gtdHandles[due.handle.slot]?).getD {} = handle)
      (hl : api.engine.orders.lookup handle = some slot)
      (hi : api.findLane (api.engine.orders.record slot).request.token.lane = some index)
      (hr : (api.lane index).hasRoom 2) :
      DeadlineTurn H now api ((api.unlinkDeadline scheduler handle).expireOrder H index handle) true

theorem deadlineLoop_cases (fuel : Nat) :
    deadlineLoop H now fuel api = api ∨
      ∃ api' goes fuel', DeadlineTurn H now api api' goes ∧ fuel = fuel' + 1 ∧
        deadlineLoop H now fuel api = if goes then deadlineLoop H now fuel' api' else api' := by
  cases fuel with
  | zero => exact .inl rfl
  | succ fuel =>
    rw [deadlineLoop]
    split
    next => exact .inl rfl
    next due error scheduler hp =>
    split
    next he => exact .inr ⟨_, false, fuel, .failed hp he, rfl, rfl⟩
    next he =>
    have hok := not_not.mp he
    subst hok
    dsimp only
    split
    next hl => exact .inr ⟨_, true, fuel, .dropped hp rfl hl, rfl, rfl⟩
    next slot hl =>
    split
    next => exact .inr ⟨_, false, fuel, .retried hp rfl hl, rfl, rfl⟩
    next index hi =>
    split
    next => exact .inr ⟨_, false, fuel, .retried hp rfl hl, rfl, rfl⟩
    next hr =>
    simp only [Bool.not_eq_true', Bool.not_eq_false] at hr
    exact .inr ⟨_, true, fuel, .expired hp rfl hl hi hr, rfl, rfl⟩

theorem deadlineLoop_until {Q : OmsApi → Prop} (hsp : ∀ {api}, P api → Q api)
    (htn : ∀ {api api' goes}, DeadlineTurn H now api api' goes → P api → Q api' ∧ (goes = true → P api'))
    (fuel : Nat) (hp : P api) : Q (deadlineLoop H now fuel api) := by
  induction fuel generalizing api with
  | zero => exact hsp hp
  | succ fuel ih =>
    rcases deadlineLoop_cases (fuel + 1) with h | ⟨api', goes, fuel', ht, hf, h⟩
    · rw [h]; exact hsp hp
    · cases hf
      rw [h]
      cases goes with
      | false => exact (htn ht hp).1
      | true => exact ih ((htn ht hp).2 rfl)

theorem deadlineLoop_keep
    (htn : ∀ {api api' goes}, DeadlineTurn H now api api' goes → P api → P api')
    (fuel : Nat) (hp : P api) : P (deadlineLoop H now fuel api) :=
  deadlineLoop_until id (fun ht hp => ⟨htn ht hp, fun _ => htn ht hp⟩) fuel hp

section

variable (hev : ∀ {api api'}, EventHandled H api api' → P api → P api')

include hev

theorem handleAdapterEvents_keep (events : List AdapterEvent) (hp : P api) : P (api.handleAdapterEvents H events) := by
  induction events generalizing api with
  | nil => exact hp
  | cons event events ih => exact ih (hev (handleAdapterEvent_handled event) hp)

theorem query_keep (hpub : ∀ {api update}, update.engineUpdate = none → P api → P (api.publish index [update]))
    (hp : P api) {kind : QueryKind} {token : RequestToken} {request : QueryRequest} :
    P (api.query H index kind token request answers) := by
  unfold query
  split
  next => exact hpub rfl hp
  have hevs := handleAdapterEvents_keep hev answers.queryEvents hp
  dsimp only
  split
  next => exact hevs
  next => exact hpub rfl hevs

end

end OmsApi

end SelfQuant.Oms
