import SelfQuant.OmsCommands

namespace SelfQuant.Oms

/-- The calls of the API and the steps of its owner: the thread that calls `service_io`, or the
worker thread. The adapter's answers and the clock are part of the step. -/
inductive ApiStep
  | initializeLane (laneId epoch : Nat)
  | submitOrder (laneId : Nat) (request : SubmitOrderRequest) (answers : Answers)
  | cancelOrder (laneId : Nat) (target : RequestToken) (handle : OrderHandle) (answers : Answers)
  | cancelVenueOrder (laneId : Nat) (request : CancelVenueOrderRequest) (answers : Answers)
  | registerInstrument (laneId : Nat) (request : RegisterInstrumentRequest) (answers : Answers)
  | retireInstrument (laneId : Nat) (instrumentId : InstrumentId) (mode : InstrumentRetirementMode)
      (answers : Answers)
  | query (laneId : Nat) (request : QueryRequest) (kind : QueryKind) (answers : Answers)
  | drainUpdates (laneId maximum : Nat)
  | shutdown
  | ownerCommand (index : Nat) (answers : Answers)
  | ownerDeadlines (now : Nat)
  | ownerEvent (event : AdapterEvent)

variable (H : RuntimeHashes) (api : OmsApi)

def OmsApi.perform : ApiStep → OmsApi
  | .initializeLane laneId epoch => (api.initializeLane laneId epoch).2
  | .submitOrder laneId request answers => (api.submitOrder H laneId request answers).2
  | .cancelOrder laneId target handle answers => (api.cancelOrder H laneId target handle answers).2
  | .cancelVenueOrder laneId request answers => (api.cancelVenueOrder H laneId request answers).2
  | .registerInstrument laneId request answers => (api.callRegisterInstrument H laneId request answers).2
  | .retireInstrument laneId instrumentId mode answers =>
    (api.callRetireInstrument H laneId instrumentId mode answers).2
  | .query laneId request kind answers => (api.submitQuery H laneId request kind answers).2
  | .drainUpdates laneId maximum => api.drainUpdates laneId maximum
  | .shutdown => { api with stopping := true }
  | .ownerCommand index answers => api.ownerCommand H index answers
  | .ownerDeadlines now => api.processDeadlines H now
  | .ownerEvent event => (api.handleAdapterEvent H event).2

/-- The runs of the API whose steps are all allowed in the state they are taken in. -/
inductive OmsRun (H : RuntimeHashes) (allowed : OmsApi → ApiStep → Prop) : OmsApi → Prop
  | start {config : RuntimeConfig} {timerErrors : List Nat} {api : OmsApi}
      (h : OmsApi.create H config timerErrors = some api) : OmsRun H allowed api
  | next {api : OmsApi} (h : OmsRun H allowed api) (step : ApiStep) (hs : allowed api step) :
      OmsRun H allowed (api.perform H step)

def OmsReach : OmsApi → Prop := OmsRun H fun _ _ => True

def OmsApi.performAll (steps : List ApiStep) : OmsApi := steps.foldl (fun api step => api.perform H step) api

def Permits (H : RuntimeHashes) (allowed : OmsApi → ApiStep → Prop) : OmsApi → List ApiStep → Prop
  | _, [] => True
  | api, step :: steps => allowed api step ∧ Permits H allowed (api.perform H step) steps

instance Permits.instDecidable (H : RuntimeHashes) (allowed : OmsApi → ApiStep → Prop)
    [∀ api step, Decidable (allowed api step)] :
    ∀ (steps : List ApiStep) (api : OmsApi), Decidable (Permits H allowed api steps)
  | [], _ => .isTrue trivial
  | step :: steps, api =>
    let _ := instDecidable H allowed steps (api.perform H step)
    inferInstanceAs (Decidable (allowed api step ∧ Permits H allowed (api.perform H step) steps))

variable {H : RuntimeHashes} {api : OmsApi}

theorem OmsRun.performAll {allowed : OmsApi → ApiStep → Prop}
    (h : OmsRun H allowed api) {steps : List ApiStep} (hs : Permits H allowed api steps) :
    OmsRun H allowed (api.performAll H steps) := by
  induction steps generalizing api with
  | nil => exact h
  | cons step steps ih => exact ih (h.next step hs.1) hs.2

theorem OmsReach.performAll (h : OmsReach H api) (steps : List ApiStep) : OmsReach H (api.performAll H steps) := by
  induction steps generalizing api with
  | nil => exact h
  | cons step steps ih => exact ih (OmsRun.next h step trivial)

def passSteps (pass : Nat × List AdapterEvent) : List ApiStep := .ownerDeadlines pass.1 :: pass.2.map .ownerEvent

theorem OmsApi.work_eq (pass : Nat × List AdapterEvent) :
    api.work H pass.1 pass.2 = api.performAll H (passSteps pass) := by
  simp [work, handleAdapterEvents, performAll, passSteps, List.foldl_map, perform]

/-- A call of `service` is a sequence of owner steps. -/
theorem OmsApi.service_eq (timeoutMs : Int) (first second : Nat × List AdapterEvent) :
    (api.service H timeoutMs first second).2 = api ∨
      (api.service H timeoutMs first second).2 = api.performAll H (passSteps first ++ passSteps second) := by
  unfold service
  split
  next => exact .inl rfl
  split
  next => exact .inl rfl
  split
  next => exact .inl rfl
  right
  rw [work_eq, work_eq]
  exact (List.foldl_append ..).symm

/-- The command that a call sends under the token it is given, and the free update slots that
the call asks for in inline mode. -/
inductive ApiStep.Sends : ApiStep → Nat → Nat → (RequestToken → RuntimeCommand) → Answers → Prop
  | place (laneId : Nat) (request : SubmitOrderRequest) (answers : Answers) :
      Sends (.submitOrder laneId request answers) laneId
        (if request.order.timeInForce = .gtd then 3 else 2)
        (fun token => .place { request with order := { request.order with token := token } }) answers
  | cancel (laneId : Nat) (target : RequestToken) (handle : OrderHandle) (answers : Answers) :
      Sends (.cancelOrder laneId target handle answers) laneId 2
        (fun token => .cancel ⟨token, target, handle⟩) answers
  | cancelVenue (laneId : Nat) (request : CancelVenueOrderRequest) (answers : Answers) :
      Sends (.cancelVenueOrder laneId request answers) laneId 1
        (fun token => .cancelVenue { request with requestToken := token }) answers
  | register (laneId : Nat) (request : RegisterInstrumentRequest) (answers : Answers) :
      Sends (.registerInstrument laneId request answers) laneId 1
        (fun token => .registerInstrument ⟨token, request.instrumentId, request.routing⟩) answers
  | retire (laneId : Nat) (instrumentId : InstrumentId) (mode : InstrumentRetirementMode)
      (answers : Answers) :
      Sends (.retireInstrument laneId instrumentId mode answers) laneId 1
        (fun token => .retireInstrument ⟨token, instrumentId, mode⟩) answers
  | query (laneId : Nat) (request : QueryRequest) (kind : QueryKind) (answers : Answers) :
      Sends (.query laneId request kind answers) laneId 0 (fun token => .query kind token request) answers

inductive Performed (H : RuntimeHashes) (api : OmsApi) (step : ApiStep) : OmsApi → Prop
  | idle : Performed H api step api
  | stopped : Performed H api step { api with stopping := true }
  | initialized {index epoch : Nat} (he : epoch ≠ 0) (h : (api.lane index).sessionEpoch = 0) :
      Performed H api step (api.setLane index { api.lane index with sessionEpoch := epoch })
  | drained (index maximum : Nat) :
      Performed H api step (api.setLane index ((api.lane index).drain maximum))
  | exhausted {laneId room index : Nat} {build : RequestToken → RuntimeCommand} {answers : Answers}
      {error : Error} {lane : Lane} (hs : step.Sends laneId room build answers)
      (hi : api.findLane laneId = some index)
      (h : (api.lane index).allocateToken = (.error error, lane)) :
      Performed H api step (api.setLane index lane)
  | queued {laneId room index : Nat} {build : RequestToken → RuntimeCommand} {answers : Answers}
      {token : RequestToken} {lane : Lane} (hs : step.Sends laneId room build answers)
      (hm : api.mode = .dedicatedIo) (hi : api.findLane laneId = some index)
      (h : (api.lane index).allocateToken = (.ok token, lane)) :
      Performed H api step (api.setLane index { lane with commands := lane.commands ++ [build token] })
  | spent {laneId room index : Nat} {build : RequestToken → RuntimeCommand} {answers : Answers}
      {token : RequestToken} {lane : Lane} (hs : step.Sends laneId room build answers)
      (hm : api.mode = .inline) (hi : api.findLane laneId = some index)
      (h : (api.lane index).allocateToken = (.ok token, lane)) (hr : (api.lane index).hasRoom room)
      (hn : (api.lane index).hasRoom (build token).required = false) :
      Performed H api step (api.setLane index lane)
  | called {laneId room index : Nat} {build : RequestToken → RuntimeCommand} {answers : Answers}
      {token : RequestToken} {lane : Lane} (hs : step.Sends laneId room build answers)
      (hm : api.mode = .inline) (hi : api.findLane laneId = some index)
      (h : (api.lane index).allocateToken = (.ok token, lane))
      (hr : (api.lane index).hasRoom (build token).required) :
      Performed H api step ((api.setLane index lane).execute H index (build token) answers)
  | owner {index : Nat} {command : RuntimeCommand} {rest : List RuntimeCommand} {answers : Answers}
      (he : step = .ownerCommand index answers) (hc : (api.lane index).commands = command :: rest)
      (hr : (api.lane index).hasRoom command.required) :
      Performed H api step ((api.execute H index command answers).popCommand index)
  | deadlines {now : Nat} (he : step = .ownerDeadlines now) :
      Performed H api step (api.processDeadlines H now)
  | event {event : AdapterEvent} (he : step = .ownerEvent event) :
      Performed H api step (api.handleAdapterEvent H event).2

namespace OmsApi

variable {H : RuntimeHashes} {api : OmsApi} {step : ApiStep} {laneId room index id : Nat}
  {build : RequestToken → RuntimeCommand} {answers : Answers}

theorem findLane_eq_some (h : api.findLane id = some index) :
    index < api.lanes.length ∧ (api.lane index).laneId = id := by
  obtain ⟨hb, hp, _⟩ := List.findIdx?_eq_some_iff_getElem.mp h
  refine ⟨hb, ?_⟩
  simpa [lane, List.getElem?_eq_getElem hb] using hp

theorem lane_setLane_self (h : index < api.lanes.length) (lane : Lane) :
    (api.setLane index lane).lane index = lane := by simp [OmsApi.lane, setLane, h]

theorem lane_setLane_ne {i : Nat} (h : i ≠ index) (lane : Lane) : (api.setLane index lane).lane i = api.lane i := by
  simp [OmsApi.lane, setLane, symm h]

theorem hasRoom_allocate {lane lane' : Lane} {result : Except Error RequestToken} {count : Nat}
    (h : lane.allocateToken = (result, lane')) : lane'.hasRoom count = lane.hasRoom count := by
  unfold Lane.allocateToken at h
  dsimp only at h
  split at h
  next => cases h; rfl
  next => split at h <;> cases h <;> rfl

theorem dispatch_performed (hs : step.Sends laneId room build answers) (hi : api.findLane laneId = some index) :
    Performed H api step (api.dispatch H index room build answers).2 := by
  have hb := (findLane_eq_some hi).1
  unfold dispatch
  cases hm : api.mode with
  | dedicatedIo =>
    dsimp only
    unfold enqueue
    split
    next => exact .idle
    split
    next h => exact .exhausted hs hi h
    next h => exact .queued hs hm hi h
  | inline =>
    dsimp only
    unfold callInline
    split
    next => exact .idle
    next hr =>
    split
    next h => exact .exhausted hs hi h
    next token lane h =>
    have hrm : ((api.setLane index lane).lane index).hasRoom (build token).required =
        (api.lane index).hasRoom (build token).required := by
      rw [lane_setLane_self hb]
      exact hasRoom_allocate h
    unfold processCommand
    rw [hrm]
    cases hq : (api.lane index).hasRoom (build token).required with
    | true => exact .called hs hm hi h hq
    | false => exact .spent hs hm hi h (by simpa using hr) hq

theorem submitInstrumentCommand_performed {inst : InstrumentId} (hs : step.Sends laneId 1 build answers) :
    Performed H api step (api.submitInstrumentCommand H laneId inst build answers).2 := by
  unfold submitInstrumentCommand
  split
  next => exact .idle
  split
  next => exact .idle
  next hi =>
  split
  next => exact .idle
  next => exact dispatch_performed hs hi

theorem perform_performed (H : RuntimeHashes) (api : OmsApi) (step : ApiStep) :
    Performed H api step (api.perform H step) := by
  cases step with
  | initializeLane laneId epoch =>
    simp only [perform, initializeLane]
    split
    next => exact .idle
    split
    next => exact .idle
    next he =>
    split
    next => exact .idle
    next h => exact .initialized he (not_not.mp h)
  | submitOrder laneId request answers =>
    simp only [perform, submitOrder]
    split
    next => exact .idle
    split
    next => exact .idle
    next hi =>
    split
    next => exact .idle
    split
    next => exact .idle
    next => exact dispatch_performed (.place ..) hi
  | cancelOrder laneId target handle answers =>
    simp only [perform, cancelOrder]
    split
    next => exact .idle
    split
    next => exact .idle
    next hi => exact dispatch_performed (.cancel ..) hi
  | cancelVenueOrder laneId request answers =>
    simp only [perform, cancelVenueOrder]
    split
    next => exact .idle
    split
    next => exact .idle
    next hi =>
    split
    next => exact .idle
    next => exact dispatch_performed (.cancelVenue ..) hi
  | registerInstrument laneId request answers => exact submitInstrumentCommand_performed (.register ..)
  | retireInstrument laneId instrumentId mode answers => exact submitInstrumentCommand_performed (.retire ..)
  | query laneId request kind answers =>
    simp only [perform, submitQuery]
    split
    next => exact .idle
    split
    next => exact .idle
    next hi =>
    split
    next => exact .idle
    split
    next => exact .idle
    split
    next => exact .idle
    next => exact dispatch_performed (.query ..) hi
  | drainUpdates laneId maximum =>
    simp only [perform, drainUpdates]
    split
    next => exact .idle
    next => exact .drained ..
  | shutdown => exact .stopped
  | ownerCommand index answers =>
    simp only [perform, ownerCommand]
    split
    next => exact .idle
    next hc =>
    unfold processCommand
    cases hq : (api.lane index).hasRoom _ with
    | true => exact .owner rfl hc hq
    | false => exact .idle
  | ownerDeadlines now => exact .deadlines rfl
  | ownerEvent event => exact .event rfl

end OmsApi

end SelfQuant.Oms
