import SelfQuant.OmsAdapterTypes
import SelfQuant.OmsDirectory
import SelfQuant.OmsDeadlineQueue

namespace SelfQuant.Oms

structure CancelOrderRequest where
  (requestToken targetToken : RequestToken := {})
  handle : OrderHandle := {}
deriving DecidableEq

structure CancelVenueOrderRequest where
  requestToken : RequestToken := {}
  accountId : AccountId := 0
  instrumentId : InstrumentId := 0
  clientOrderId : ClientOrderId := ⟨[]⟩
  venueOrderId : VenueOrderId := ⟨[]⟩
  routing : ResolvedInstrument := {}
deriving DecidableEq

structure RegisterInstrumentRequest where
  requestToken : RequestToken := {}
  instrumentId : InstrumentId := 0
  routing : ResolvedInstrument := {}
deriving DecidableEq

inductive InstrumentRetirementMode
  | normal | lifecycleEnded
deriving DecidableEq

structure RetireInstrumentRequest where
  requestToken : RequestToken := {}
  instrumentId : InstrumentId := 0
  mode : InstrumentRetirementMode := .normal
deriving DecidableEq

inductive QueryScope
  | all | singleInstrument | other (raw : Nat)
deriving DecidableEq

structure QueryRequest where
  accountId : AccountId := 0
  scope : QueryScope := .all
  instrument : VenueInstrumentRef := {}
deriving DecidableEq

/-- A command on its way to the owner; the reserved kinds are never built. -/
inductive RuntimeCommand
  | place (submitted : SubmitOrderRequest)
  | cancel (request : CancelOrderRequest)
  | reservedCancelAll
  | reservedReconcile
  | registerInstrument (request : RegisterInstrumentRequest)
  | retireInstrument (request : RetireInstrumentRequest)
  | query (kind : QueryKind) (token : RequestToken) (request : QueryRequest)
  | cancelVenue (request : CancelVenueOrderRequest)
deriving DecidableEq

/-- The free update slots the owner asks for before it starts on a command. -/
def RuntimeCommand.required : RuntimeCommand → Nat
  | .registerInstrument _ | .cancelVenue _ => 1
  | .retireInstrument _ => 2
  | .place submitted => if submitted.order.timeInForce = .gtd then 3 else 2
  | _ => 2

inductive RuntimeCommandResultKind
  | place | cancel | registerInstrument | retireInstrument | cancelVenue
deriving DecidableEq

inductive CommandSubject
  | cancel (targetToken requestToken : RequestToken)
  | instrument (requestToken : RequestToken) (instrumentId : InstrumentId)
deriving DecidableEq

inductive RuntimeControl
  | venueStatus (adapter : AdapterKind) (status : AdapterStatus) (error : Error) (eventTimeNs : Nat)
  | reconcileComplete (adapter : AdapterKind) (generation : Nat) (error : Error)
deriving DecidableEq

inductive RuntimeUpdate
  | order (update : OrderUpdate)
  | fill (update : FillUpdate)
  | commandResult (kind : RuntimeCommandResultKind) (error : Error) (subject : CommandSubject)
  | control (update : RuntimeControl)
  | openOrderSnapshot (item : OpenOrderSnapshotItem)
  | positionSnapshot (item : PositionSnapshotItem)
  | queryComplete (complete : QueryComplete)
  | balanceSnapshot (item : BalanceSnapshot)
deriving DecidableEq

def SinkUpdate.staged : SinkUpdate → RuntimeUpdate
  | .order update => .order update
  | .fill update => .fill update

def RuntimeUpdate.engineUpdate : RuntimeUpdate → Option SinkUpdate
  | .order update => some (.order update)
  | .fill update => some (.fill update)
  | _ => none

/-- A lane: its two rings as queues, head first, and its counters. `drained` and `lost` are
histories that no function reads: what the callback of `drainUpdates` was given, and what found
the ring full. -/
structure Lane where
  (laneId commandCapacity updateCapacity : Nat := 0)
  commands : List RuntimeCommand := []
  updates : List RuntimeUpdate := []
  (sessionEpoch nextSequence ownerSequence : Nat := 0)
  (drained lost : List RuntimeUpdate := [])
deriving DecidableEq

namespace Lane

variable (lane : Lane)

def hasRoom (count : Nat) : Bool := decide (count ≤ lane.updateCapacity - lane.updates.length)

def publish (update : RuntimeUpdate) : Lane :=
  if lane.updates.length < lane.updateCapacity then { lane with updates := lane.updates ++ [update] }
  else { lane with lost := lane.lost ++ [update] }

def publishAll (updates : List RuntimeUpdate) : Lane := updates.foldl publish lane

def published : List RuntimeUpdate := lane.drained ++ lane.updates

def drain (maximum : Nat) : Lane :=
  { lane with updates := lane.updates.drop maximum, drained := lane.drained ++ lane.updates.take maximum }

/-- The next token of the lane. The counter moves even when it wraps and no token comes out. -/
def allocateToken : Except Error RequestToken × Lane :=
  if lane.sessionEpoch = 0 then (.error .notReady, lane)
  else
    let sequence := (lane.nextSequence + 1) % 2 ^ 64
    let allocated := { lane with nextSequence := sequence }
    if sequence = 0 then (.error .capacityExceeded, allocated)
    else (.ok ⟨lane.laneId, lane.sessionEpoch, sequence⟩, allocated)

def validateToken (token : RequestToken) : Option Lane :=
  if token.lane ≠ lane.laneId ∨ lane.sessionEpoch = 0 ∨ token.sessionEpoch ≠ lane.sessionEpoch ∨
      token.sequence = 0 ∨ token.sequence ≠ (lane.ownerSequence + 1) % 2 ^ 64 then none
  else some { lane with ownerSequence := token.sequence }

end Lane

inductive ExecutionMode
  | inline | dedicatedIo
deriving DecidableEq

structure RuntimeHashes where
  orders : OrderHashes
  directory : DirectoryHashes

def sourceRuntimeHashes : RuntimeHashes := ⟨sourceHashes, sourceDirectoryHashes⟩

/-- The state behind the API. A lane pointer is the position of the lane. -/
structure OmsApi where
  mode : ExecutionMode
  router : AdapterRouter
  accountRoutes : List (AccountId × AdapterKind)
  directory : ExecutionDirectory
  engine : StateEngine
  scheduler : DeadlineScheduler
  gtdHandles : List OrderHandle
  orderDeadlines : List DeadlineHandle
  lanes : List Lane
  (deadlineDepth unmatchedVenueEvents unmatchedFills lateEventAfterRetirement : Nat := 0)
  unmatchedFillAfterRetirement : Nat := 0
  stopping : Bool := false
deriving DecidableEq

/-- What the processing of one command leaves: the state, its result, and the updates staged
for the lane. -/
structure Executed where
  api : OmsApi
  result : Error
  staged : List SinkUpdate := []

/-- `StagedUpdates` holds two updates and drops any further one. -/
def stage (staged updates : List SinkUpdate) : List SinkUpdate := (staged ++ updates).take 2

namespace OmsApi

variable (H : RuntimeHashes) (api : OmsApi) (index : Nat)

def lane : Lane := (api.lanes[index]?).getD {}

def setLane (lane : Lane) : OmsApi := { api with lanes := api.lanes.set index lane }

def publish (updates : List RuntimeUpdate) : OmsApi := api.setLane index ((api.lane index).publishAll updates)

def findLane (id : Nat) : Option Nat := api.lanes.findIdx? fun lane => decide (lane.laneId = id)

def accountAdapter (accountId : AccountId) : Option AdapterKind :=
  ((api.accountRoutes.find? fun route => decide (route.1 = accountId)).map Prod.snd).bind api.router.find

def eventRecord (t : OrderTable) (event : VenueEvent) : Option Nat :=
  (((if event.handle.generation ≠ 0 then t.lookup event.handle else none).or
    (if event.token.sequence ≠ 0 then t.findToken H.orders event.token else none)).or
    (if event.clientOrderId.length ≠ 0 then t.findClient H.orders event.clientOrderId else none)).or
    (if event.venueOrderId.length ≠ 0 then t.findVenue H.orders event.venueOrderId else none)

variable (event : VenueEvent)

def eventLane : Option Nat :=
  if event.token.sequence ≠ 0 then api.findLane event.token.lane
  else (eventRecord H api.engine.orders event).bind fun slot =>
    api.findLane (api.engine.orders.record slot).request.token.lane

def countUnmatched : OmsApi :=
  { api with
    unmatchedVenueEvents := api.unmatchedVenueEvents + 1
    unmatchedFills := if event.type = .fill then api.unmatchedFills + 1 else api.unmatchedFills }

def countLate : OmsApi :=
  { api with
    lateEventAfterRetirement := api.lateEventAfterRetirement + 1
    unmatchedFillAfterRetirement := if event.type = .fill then api.unmatchedFillAfterRetirement + 1
      else api.unmatchedFillAfterRetirement }

def cancelDeadline (slot : Nat) : OmsApi :=
  match api.orderDeadlines[slot]? with
  | none => api
  | some deadline =>
    if isTerminal (api.engine.orders.record slot).status ∧ deadline.generation ≠ 0 then
      match api.scheduler.cancel deadline with
      | (.ok, scheduler) =>
        { api with
          scheduler := scheduler, orderDeadlines := api.orderDeadlines.set slot {}
          deadlineDepth := (api.deadlineDepth + (2 ^ 64 - 1)) % 2 ^ 64 }
      | (_, scheduler) => { api with scheduler := scheduler }
    else api

def withdraw : Option Nat → OmsApi
  | some slot => api.cancelDeadline slot
  | none => api

def handleVenueEvent : AdapterResult × OmsApi :=
  match api.eventLane H event with
  | none => if event.token.sequence ≠ 0 then (.wouldBlock, api) else (.ok, api.countUnmatched event)
  | some index =>
    if !(api.lane index).hasRoom 2 then (.wouldBlock, api)
    else
      let record := eventRecord H api.engine.orders event
      let out := api.engine.apply H.orders event
      let applied := { api with engine := out.engine }
      if out.error = .notFound ∧ applied.engine.orders.wasRetiredToken event.token then (.ok, applied.countLate event)
      else if out.error = .notFound ∧ event.token.sequence ≠ 0 then (.wouldBlock, applied)
      else if out.error ≠ .ok then (.ok, if out.error = .notFound then applied.countUnmatched event else applied)
      else (.ok, (applied.withdraw record).publish index ((stage [] out.updates).map SinkUpdate.staged))

def forward (token : RequestToken) (update : RuntimeUpdate) : AdapterResult × OmsApi :=
  match api.findLane token.lane with
  | none => (.ok, api)
  | some index => if !(api.lane index).hasRoom 1 then (.wouldBlock, api) else (.ok, api.publish index [update])

def broadcast (update : RuntimeUpdate) : AdapterResult × OmsApi :=
  if api.lanes.all fun lane => lane.hasRoom 1 then
    (.ok, { api with lanes := api.lanes.map fun lane => lane.publish update })
  else (.wouldBlock, api)

def handleAdapterEvent : AdapterEvent → AdapterResult × OmsApi
  | .venue event => api.handleVenueEvent H event
  | .commandResult kind result requestToken =>
    api.forward requestToken (.commandResult (if kind = .place then .place else .cancel)
      (adapterError result) (.cancel {} {}))
  | .openOrderSnapshot item => api.forward item.queryToken (.openOrderSnapshot item)
  | .positionSnapshot item => api.forward item.queryToken (.positionSnapshot item)
  | .balanceSnapshot item => api.forward item.queryToken (.balanceSnapshot item)
  | .queryComplete complete => api.forward complete.queryToken (.queryComplete complete)
  | .status source status reason eventTimeNs =>
    api.broadcast (.control (.venueStatus source status (adapterError reason) eventTimeNs))
  | .reconcileComplete source generation result =>
    api.broadcast (.control (.reconcileComplete source generation (adapterError result)))
  | .other _ => (.ok, api)

def handleAdapterEvents (events : List AdapterEvent) : OmsApi :=
  events.foldl (fun api event => (api.handleAdapterEvent H event).2) api

variable (handle : OrderHandle)

def linkDeadline (deadline : DeadlineHandle) : OmsApi :=
  { api with
    gtdHandles := api.gtdHandles.set deadline.slot handle
    orderDeadlines := api.orderDeadlines.set handle.slot deadline
    deadlineDepth := (api.deadlineDepth + 1) % 2 ^ 64 }

def retryDeadline (now : Nat) (handle : OrderHandle) : OmsApi :=
  match api.scheduler.schedule .gtd now handle.slot with
  | (_, retry, scheduler) =>
    let api := { api with scheduler := scheduler }
    if retry.generation ≠ 0 then api.linkDeadline handle retry else api

def unlinkDeadline (scheduler : DeadlineScheduler) (handle : OrderHandle) : OmsApi :=
  { api with
    scheduler := scheduler, deadlineDepth := (api.deadlineDepth + (2 ^ 64 - 1)) % 2 ^ 64
    orderDeadlines := api.orderDeadlines.set handle.slot {} }

def expireEvent : VenueEvent := { type := .expire, handle := handle }

def expireOrder : OmsApi :=
  let out := api.engine.apply H.orders (expireEvent handle)
  { api with engine := out.engine }.publish index ((stage [] out.updates).map SinkUpdate.staged)

/-- Every turn takes a deadline from the scheduler, so the loop ends within as many turns as
there were deadlines. -/
def deadlineLoop (H : RuntimeHashes) (now : Nat) : Nat → OmsApi → OmsApi
  | 0, api => api
  | fuel + 1, api =>
    match api.scheduler.popDue now with
    | (none, _) => api
    | (some (due, error), scheduler) =>
      if error ≠ .ok then { api with scheduler := scheduler }
      else
        let handle := (api.gtdHandles[due.handle.slot]?).getD {}
        let popped := api.unlinkDeadline scheduler handle
        match popped.engine.orders.lookup handle with
        | none => deadlineLoop H now fuel popped
        | some slot =>
          match popped.findLane (popped.engine.orders.record slot).request.token.lane with
          | none => popped.retryDeadline now handle
          | some index =>
            if !(popped.lane index).hasRoom 2 then popped.retryDeadline now handle
            else deadlineLoop H now fuel (popped.expireOrder H index handle)

def processDeadlines (now : Nat) : OmsApi := deadlineLoop H now (api.scheduler.size + 1) api

end OmsApi

end SelfQuant.Oms
