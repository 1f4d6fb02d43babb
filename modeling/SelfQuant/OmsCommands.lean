import SelfQuant.OmsRuntime

namespace SelfQuant.Oms

/-- The update that tells how a command ended. A place that went through has none, and a query
is answered by the adapter. -/
def RuntimeCommand.results (command : RuntimeCommand) (result : Error) : List RuntimeUpdate :=
  match command with
  | .place _ => if result = .ok then [] else [.commandResult .place result (.cancel {} {})]
  | .cancel request => [.commandResult .cancel result (.cancel request.targetToken request.requestToken)]
  | .cancelVenue request => [.commandResult .cancelVenue result
      (.instrument request.requestToken request.instrumentId)]
  | .registerInstrument request => [.commandResult .registerInstrument result
      (.instrument request.requestToken request.instrumentId)]
  | .retireInstrument request => [.commandResult .retireInstrument result
      (.instrument request.requestToken request.instrumentId)]
  | _ => []

namespace OmsApi

variable (H : RuntimeHashes) (api : OmsApi)

variable (index : Nat)

def withToken (token : RequestToken) (execute : OmsApi → Executed) : Executed :=
  match (api.lane index).validateToken token with
  | none => { api := api, result := .invalidArgument }
  | some lane => execute (api.setLane index lane)

def scheduleGtd (handle : OrderHandle) (expireTimeNs : Nat) : Error × OmsApi :=
  if api.scheduler.size = api.scheduler.capacity then (.deadlineCapacityExceeded, api)
  else
    match api.scheduler.schedule .gtd expireTimeNs handle.slot with
    | (.ok, deadline, scheduler) => (.ok, { api with scheduler := scheduler }.linkDeadline handle deadline)
    | (error, deadline, scheduler) =>
      let scheduler := if deadline.generation ≠ 0 then (scheduler.cancel deadline).2 else scheduler
      (if error = .capacityExceeded then .deadlineCapacityExceeded else .notReady,
        { api with scheduler := scheduler })

/-- What is left to do for an order that the engine has accepted: its deadline, then the
commit of the adapter's reservation. -/
def commitPlaced (handle : OrderHandle) (place : NewOrderRequest) (answers : Answers) : Error × OmsApi :=
  let (result, api) := if place.timeInForce = .gtd then api.scheduleGtd handle place.expireTimeNs
    else (.ok, api)
  (if result = .ok then adapterError answers.commitPlace else result, api)

def reservePlace (submitted : SubmitOrderRequest) (answers : Answers) : AdapterResult :=
  match api.router.route submitted.routing with
  | none => .notReady
  | some _ =>
    match preflightPlace answers.capabilities submitted.order with
    | .ok => answers.reserveCommand
    | refused => refused

def place (submitted : SubmitOrderRequest) (answers : Answers) : Executed :=
  let reserved := api.reservePlace submitted answers
  if reserved ≠ .ok then { api := api, result := adapterError reserved }
  else
    let out := api.engine.submit H.orders submitted
    let api := { api with engine := out.engine }
    if out.error ≠ .ok then { api := api, result := out.error, staged := stage [] out.updates }
    else
      match api.commitPlaced out.handle submitted.order answers with
      | (.ok, api) => { api := api, result := .ok, staged := stage [] out.updates }
      | (error, api) =>
        let rejected := api.engine.rejectLocal out.handle
        { api := { api with engine := rejected.engine }, result := error
          staged := stage (stage [] out.updates) rejected.updates }

def cancel (request : CancelOrderRequest) (answers : Answers) : Executed :=
  let adapter := (api.engine.orders.findToken H.orders request.targetToken).bind fun slot =>
    api.router.route (api.engine.orders.record slot).routing
  let reserved := match adapter with
    | none => .notReady
    | some _ => answers.reserveCommand
  if reserved ≠ .ok then { api := api, result := adapterError reserved }
  else
    let out := api.engine.requestCancel H.orders request.targetToken
    { api := { api with engine := out.engine }
      result := if out.error ≠ .ok then out.error else adapterError answers.commitCancel
      staged := stage [] out.updates }

def cancelVenue (request : CancelVenueOrderRequest) (answers : Answers) : Executed :=
  { api := api
    result :=
      if api.router.route request.routing ≠ none ∧
          api.router.route request.routing = api.accountAdapter request.accountId then
        if answers.reserveCommand = .ok then adapterError answers.commitCancelVenue
        else adapterError answers.reserveCommand
      else .invalidArgument }

def registerInstrument (H : RuntimeHashes) (api : OmsApi) (request : RegisterInstrumentRequest)
    (answers : Answers) : Executed :=
  match api.router.route request.routing with
  | none => { api := api, result := .invalidArgument }
  | some _ =>
    match api.directory.register H.directory request.instrumentId request.routing with
    | (.ok, directory) =>
      if answers.registerInstrument ≠ .ok then
        { api := { api with directory := (directory.retire H.directory request.instrumentId false).2 }
          result := adapterError answers.registerInstrument }
      else { api := { api with directory := directory }, result := .ok }
    | (.duplicate, directory) =>
      { api := { api with directory := directory }, result := adapterError answers.registerInstrument }
    | (error, directory) => { api := { api with directory := directory }, result := error }

def eraseTerminal (instrumentId : InstrumentId) : Error × OmsApi :=
  let (error, orders) := api.engine.orders.eraseTerminalByInstrument H.orders instrumentId
  (error, { api with engine := { api.engine with orders := orders } })

variable (request : RetireInstrumentRequest)

def retireIdle (routing : ResolvedInstrument) (answers : Answers) : Executed :=
  if api.router.route routing ≠ none ∧ answers.retireInstrument ≠ .ok then
    { api := api, result := adapterError answers.retireInstrument }
  else
    match api.directory.retire H.directory request.instrumentId false with
    | (.ok, directory) =>
      let (erased, api) := { api with directory := directory }.eraseTerminal H request.instrumentId
      { api := api, result := erased }
    | (.notFound, directory) =>
      let (erased, api) := { api with directory := directory }.eraseTerminal H request.instrumentId
      { api := api, result := if erased ≠ .ok then erased else .notFound }
    | (error, directory) => { api := { api with directory := directory }, result := error }

def forceExpire (routing : ResolvedInstrument) (answers : Answers) : Bool :=
  decide (request.mode = .lifecycleEnded) && decide (routing.instrumentExpiryNs ≠ 0) &&
    decide (routing.instrumentExpiryNs ≤ answers.wallNowNs)

def retireInstrument (answers : Answers) : Executed :=
  let nonTerminal := decide ((api.engine.orders.findNonTerminal request.instrumentId).generation ≠ 0)
  match api.directory.find H.directory request.instrumentId with
  | none =>
    if nonTerminal then { api := api, result := .inconsistentState }
    else
      let (erased, api) := api.eraseTerminal H request.instrumentId
      { api := api, result := if erased = .ok then .notFound else erased }
  | some entry =>
    if nonTerminal then
      if !forceExpire request entry.routing answers then { api := api, result := .deferred }
      else
        let out := api.engine.expireOneForRetirement request.instrumentId
        { api := { api with engine := out.engine }
          result := if out.error = .ok then .deferred else out.error
          staged := if out.error = .ok then stage [] out.updates else [] }
    else api.retireIdle H request entry.routing answers

def query (H : RuntimeHashes) (api : OmsApi) (index : Nat) (kind : QueryKind) (token : RequestToken)
    (request : QueryRequest) (answers : Answers) : OmsApi :=
  let refuse (api : OmsApi) (result : AdapterResult) : OmsApi :=
    if result = .ok then api
    else api.publish index [.queryComplete ⟨token, request.accountId, kind, adapterError result⟩]
  match api.accountAdapter request.accountId with
  | none => refuse api .invalidArgument
  | some _ => refuse (api.handleAdapterEvents H answers.queryEvents) answers.query

variable (command : RuntimeCommand)

def report (done : Executed) : OmsApi :=
  done.api.publish index (done.staged.map SinkUpdate.staged ++ command.results done.result)

def execute (answers : Answers) : OmsApi :=
  match command with
  | .place submitted => report index command <|
      api.withToken index submitted.order.token fun api => api.place H submitted answers
  | .cancel request => report index command <|
      api.withToken index request.requestToken fun api => api.cancel H request answers
  | .cancelVenue request => report index command <|
      api.withToken index request.requestToken fun api => api.cancelVenue request answers
  | .registerInstrument request => report index command <|
      api.withToken index request.requestToken fun api => api.registerInstrument H request answers
  | .retireInstrument request => report index command <|
      api.withToken index request.requestToken fun api => api.retireInstrument H request answers
  | .query kind token request =>
    match (api.lane index).validateToken token with
    | none => api
    | some lane => (api.setLane index lane).query H index kind token request answers
  | .reservedCancelAll | .reservedReconcile => api

def processCommand (answers : Answers) : Bool × OmsApi :=
  if !(api.lane index).hasRoom command.required then (false, api)
  else (true, api.execute H index command answers)

end OmsApi

structure LaneConfig where
  (laneId commandCapacity updateCapacity : Nat)
deriving DecidableEq

/-- The configuration with the zero capacities already replaced by their defaults; the
instruments come with the routes made from them. -/
structure RuntimeConfig where
  mode : ExecutionMode
  lanes : List LaneConfig
  (deadlineCapacity orderCapacity fillDedupCapacity instrumentDirectoryCapacity : Nat)
  adapters : List AdapterIdentity
  accountRoutes : List (AccountId × AdapterKind)
  instruments : List (InstrumentId × ResolvedInstrument)

def kMaxRuntimeLanes : Nat := 64
def kMaxTradeAdapters : Nat := 6
def kMaximumRuntimeSlotCapacity : Nat := 2 ^ 24

def isPowerOfTwo (value : Nat) : Bool := decide (value = 2 ^ value.log2)

def validCapacity (value : Nat) : Bool := decide (2 ≤ value) && isPowerOfTwo value

def validSlots (value : Nat) : Bool := validCapacity value && decide (value ≤ kMaximumRuntimeSlotCapacity)

def validLane (mode : ExecutionMode) (lane : LaneConfig) : Bool :=
  validCapacity lane.updateCapacity && (decide (mode = .inline) || validCapacity lane.commandCapacity)

def validConfig (config : RuntimeConfig) : Bool :=
  validSlots config.orderCapacity && validSlots config.fillDedupCapacity &&
    validSlots config.instrumentDirectoryCapacity && decide (config.lanes ≠ []) &&
    decide (config.lanes.length ≤ kMaxRuntimeLanes) && decide (config.deadlineCapacity ≠ 0) &&
    config.lanes.all (validLane config.mode) &&
    decide (config.lanes.map LaneConfig.laneId).Nodup

def registerAll (H : RuntimeHashes) :
    List (InstrumentId × ResolvedInstrument) → ExecutionDirectory → Option ExecutionDirectory
  | [], directory => some directory
  | (instrumentId, routing) :: instruments, directory =>
    match directory.register H.directory instrumentId routing with
    | (.ok, directory) => registerAll H instruments directory
    | _ => none

def addAdapters : List AdapterIdentity → AdapterRouter → Option AdapterRouter
  | [], router => some router
  | identity :: adapters, router => (router.add identity).bind (addAdapters adapters)

def validAccountRoutes (router : AdapterRouter) (routes : List (AccountId × AdapterKind)) : Bool :=
  routes.all (fun route => decide (route.1 ≠ 0) && (router.find route.2).isSome) && decide (routes.map Prod.fst).Nodup

namespace OmsApi

/-- `none` where the source refuses the configuration. -/
def create (H : RuntimeHashes) (config : RuntimeConfig) (timerErrors : List Nat) : Option OmsApi := do
  guard (validConfig config)
  guard (config.adapters ≠ [] ∧ config.adapters.length ≤ kMaxTradeAdapters)
  let directory ← ExecutionDirectory.create config.instrumentDirectoryCapacity
  let directory ← registerAll H config.instruments directory
  let engine ← StateEngine.create config.orderCapacity config.fillDedupCapacity
  let scheduler ← DeadlineScheduler.create config.deadlineCapacity timerErrors
  let router ← addAdapters config.adapters []
  guard (validAccountRoutes router config.accountRoutes)
  guard (config.instruments.all fun instrument =>
    (router.routeInstrument instrument.2.venue instrument.2.productType).isSome)
  some
    { mode := config.mode, router := router, accountRoutes := config.accountRoutes
      directory := directory, engine := engine, scheduler := scheduler
      gtdHandles := List.replicate config.deadlineCapacity {}
      orderDeadlines := List.replicate engine.orders.capacity {}
      lanes := config.lanes.map fun lane => { laneId := lane.laneId
                                              commandCapacity := lane.commandCapacity
                                              updateCapacity := lane.updateCapacity } }

abbrev TokenResult := Except Error RequestToken

variable (H : RuntimeHashes) (api : OmsApi) (laneId : Nat)

def initializeLane (epoch : Nat) : Error × OmsApi :=
  match api.findLane laneId with
  | none => (.invalidArgument, api)
  | some index =>
    if epoch = 0 then (.invalidArgument, api)
    else if (api.lane index).sessionEpoch ≠ 0 then (.conflict, api)
    else (.ok, api.setLane index { api.lane index with sessionEpoch := epoch })

variable (index : Nat)

def enqueue (build : RequestToken → RuntimeCommand) : TokenResult × OmsApi :=
  if (api.lane index).commandCapacity ≤ (api.lane index).commands.length then (.error .queueFull, api)
  else
    match (api.lane index).allocateToken with
    | (.error error, lane) => (.error error, api.setLane index lane)
    | (.ok token, lane) => (.ok token, api.setLane index { lane with commands := lane.commands ++ [build token] })

/-- Process a command at once under a fresh token, if the lane has `room` free update slots. The
token is spent even when the command is refused. -/
def callInline (room : Nat) (build : RequestToken → RuntimeCommand) (answers : Answers) : TokenResult × OmsApi :=
  if !(api.lane index).hasRoom room then (.error .queueFull, api)
  else
    match (api.lane index).allocateToken with
    | (.error error, lane) => (.error error, api.setLane index lane)
    | (.ok token, lane) =>
      match (api.setLane index lane).processCommand H index (build token) answers with
      | (true, api) => (.ok token, api)
      | (false, api) => (.error .queueFull, api)

def dispatch (room : Nat) (build : RequestToken → RuntimeCommand) (answers : Answers) : TokenResult × OmsApi :=
  match api.mode with
  | .dedicatedIo => api.enqueue index build
  | .inline => api.callInline H index room build answers

def submitOrder (request : SubmitOrderRequest) (answers : Answers) : TokenResult × OmsApi :=
  if api.stopping then (.error .shuttingDown, api)
  else
    match api.findLane laneId with
    | none => (.error .invalidArgument, api)
    | some index =>
      if request.order.instrumentId = 0 then (.error .invalidArgument, api)
      else if api.mode = .dedicatedIo ∧ request.order.timeInForce = .gtd ∧
          (api.lane index).updateCapacity < 3 then (.error .queueFull, api)
      else api.dispatch H index (if request.order.timeInForce = .gtd then 3 else 2)
        (fun token => .place { request with order := { request.order with token := token } }) answers

def cancelOrder (target : RequestToken) (handle : OrderHandle) (answers : Answers) : TokenResult × OmsApi :=
  if api.stopping then (.error .shuttingDown, api)
  else
    match api.findLane laneId with
    | none => (.error .invalidArgument, api)
    | some index => api.dispatch H index 2 (fun token => .cancel ⟨token, target, handle⟩) answers

def cancelVenueOrder (request : CancelVenueOrderRequest) (answers : Answers) : TokenResult × OmsApi :=
  if api.stopping then (.error .shuttingDown, api)
  else
    match api.findLane laneId with
    | none => (.error .invalidArgument, api)
    | some index =>
      if request.accountId = 0 ∨ request.instrumentId = 0 ∨ !validId request.clientOrderId ∨
          !validId request.venueOrderId then (.error .invalidArgument, api)
      else api.dispatch H index 1 (fun token => .cancelVenue { request with requestToken := token }) answers

def submitInstrumentCommand
    (instrumentId : InstrumentId) (build : RequestToken → RuntimeCommand) (answers : Answers) :
    TokenResult × OmsApi :=
  if api.stopping then (.error .shuttingDown, api)
  else
    match api.findLane laneId with
    | none => (.error .invalidArgument, api)
    | some index =>
      if instrumentId = 0 then (.error .invalidArgument, api)
      else api.dispatch H index 1 build answers

def callRegisterInstrument (request : RegisterInstrumentRequest) (answers : Answers) : TokenResult × OmsApi :=
  api.submitInstrumentCommand H laneId request.instrumentId
    (fun token => .registerInstrument ⟨token, request.instrumentId, request.routing⟩) answers

def callRetireInstrument (instrumentId : InstrumentId) (mode : InstrumentRetirementMode) (answers : Answers) :
    TokenResult × OmsApi :=
  api.submitInstrumentCommand H laneId instrumentId
    (fun token => .retireInstrument ⟨token, instrumentId, mode⟩) answers

def submitQuery (request : QueryRequest) (kind : QueryKind) (answers : Answers) : TokenResult × OmsApi :=
  if api.stopping then (.error .shuttingDown, api)
  else
    match api.findLane laneId with
    | none => (.error .invalidArgument, api)
    | some index =>
      if request.accountId = 0 ∨ (request.scope ≠ .all ∧ request.scope ≠ .singleInstrument) then
        (.error .invalidArgument, api)
      else if api.accountAdapter request.accountId = none then (.error .notFound, api)
      else if request.scope = .singleInstrument ∧
          ((api.directory.find H.directory (api.directory.findReference H.directory
            request.instrument)).all fun entry => decide (entry.lifecycle ≠ .active)) then
        (.error .notReady, api)
      else api.dispatch H index 0 (fun token => .query kind token request) answers

def drainUpdates (maximum : Nat) : OmsApi :=
  match api.findLane laneId with
  | none => api
  | some index => api.setLane index ((api.lane index).drain maximum)

def popCommand : OmsApi := api.setLane index { api.lane index with commands := (api.lane index).commands.tail }

/-- The owner thread takes the command at the head of a lane's ring; a command that finds no
room for its updates stays there. -/
def ownerCommand (answers : Answers) : OmsApi :=
  match (api.lane index).commands with
  | [] => api
  | command :: _ =>
    match api.processCommand H index command answers with
    | (false, api) => api
    | (true, api) => api.popCommand index

def work (now : Nat) (events : List AdapterEvent) : OmsApi :=
  (api.processDeadlines H now).handleAdapterEvents H events

def service (timeoutMs : Int) (first second : Nat × List AdapterEvent) : Error × OmsApi :=
  if api.mode ≠ .inline then (.invalidMode, api)
  else if timeoutMs < -1 then (.invalidArgument, api)
  else if api.stopping then (.shuttingDown, api)
  else (.ok, (api.work H first.1 first.2).work H second.1 second.2)

end OmsApi

end SelfQuant.Oms
