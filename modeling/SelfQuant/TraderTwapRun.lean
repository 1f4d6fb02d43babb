import SelfQuant.TraderOrderUpdate
import SelfQuant.TraderSizing

namespace SelfQuant.Trader

inductive TwapStatus
  | pending
  | running
  | completed
  | partiallyCompleted
  | canceled
  | failed
  deriving DecidableEq, Repr

def TwapStatus.active : TwapStatus → Bool
  | .pending | .running => true
  | .completed | .partiallyCompleted | .canceled | .failed => false

inductive ExecutionType
  | maker
  | market
  deriving DecidableEq, Repr

/-- The columns of a job that stay as they are. Times are in nanoseconds. -/
structure TwapPlan where
  side : OrderSide
  totalQuantity : Decimal
  positive : 0 < totalQuantity
  (maxQuantity limitPrice : DecimalText := none)
  executionType : ExecutionType
  (startAt endAt : Int)
  intervalSeconds : ℕ
  orderTimeoutSeconds : ℕ := 0

def TwapPlan.total (plan : TwapPlan) : Decimal := parsePositiveDecimal (some plan.totalQuantity)

/-- A slice and an attempt. They make the idempotency key of a child and so stand for its id. -/
abbrev TwapKey := ℕ × ℕ

structure TwapJob where
  status : TwapStatus := .pending
  (currentSlice currentAttempt : ℕ := 0)
  activeOrderID : Option TwapKey := none
  filledQuantity : Decimal := 0

def TwapJob.key (job : TwapJob) : TwapKey := (job.currentSlice, job.currentAttempt)

structure TwapChild where
  key : TwapKey
  orderType : OrderType
  price : DecimalText
  createdAt : Int
  store : OrderStore
  submissions : ℕ := 0

namespace TwapChild

variable (child : TwapChild)

def order : Order := child.store.row

def terminal : Bool := child.order.status.terminal

def unfilled : Decimal := child.order.quantity - child.order.filledQuantity

def receive (key : TwapKey) (update : OrderUpdate) (child : TwapChild) : TwapChild :=
  if child.key = key then { child with store := child.store.applyOrderUpdate Decimal.div update } else child

def submitted (key : TwapKey) (child : TwapChild) : TwapChild :=
  if child.key = key then { child with submissions := child.submissions + 1 } else child

end TwapChild

/-- How a call of the store ends; an error may come after the change was made. -/
inductive Answer
  | ok
  | lost
  | applied
  deriving DecidableEq, Repr

def Answer.writes : Answer → Bool
  | .ok | .applied => true
  | .lost => false

/-- What `PlaceOrder` answers; an order whose placement is uncertain may be recovered by a query. -/
inductive Placement
  | accepted (result : VenueResult)
  | refused (result : VenueResult)
  | recovered (result : VenueResult)
  | uncertain (result : VenueResult)

structure TwapWorld where
  answer : Answer := .ok
  now : Int := 0
  /-- The clock, read a second time. -/
  later : Int := 0
  instrument : Option Instrument := none
  (credentials adapter : Bool := true)
  /-- The best prices, if they are there and fresh. -/
  book : Option BBO := none
  cancelResult : Option VenueResult := none
  placement : Placement := .accepted {}
  /-- The text of the error tells that the authorization is lost. -/
  unauthorized : Bool := false
  eventAt : Option Int := none

structure TwapRequest where
  quantity : Decimal
  orderType : OrderType
  price : DecimalText

/-- Where `advance` is, with the job as it was last read. -/
inductive TwapStage
  | idle
  | leased (job : TwapJob)
  | refreshed (job : TwapJob)
  | reading (job : TwapJob)
  | cancelReading (job : TwapJob) (atEnd : Bool)
  | cancelCalling (job : TwapJob) (key : TwapKey) (atEnd : Bool)
  | refreshing
  | sizing (job : TwapJob)
  | intending (job : TwapJob) (request : TwapRequest)
  | placing (job : TwapJob) (key : TwapKey)
  | recording (job : TwapJob) (key : TwapKey)
  | scheduling (slice attempt : ℕ) (activeOrderID : Option TwapKey)
  | retrying (job : TwapJob)
  | closing (job : TwapJob) (status : TwapStatus)

structure TwapState where
  job : TwapJob := {}
  /-- The newest child comes first. -/
  children : List TwapChild := []
  stage : TwapStage := .idle

def twapSliceEnd (plan : TwapPlan) (job : TwapJob) : Int :=
  min (plan.startAt + (job.currentSlice + 1) * plan.intervalSeconds * 10 ^ 9) plan.endAt

variable (div : Decimal → Decimal → Decimal)

def calculateSliceQuantity (remaining : Decimal) (interval remainingTime : Int)
    (maxQuantity step : Decimal) : Decimal :=
  if remaining ≤ 0 ∨ interval ≤ 0 ∨ remainingTime ≤ 0 then 0
  else
    let share := div (remaining * interval) remainingTime
    let capped := if 0 < maxQuantity ∧ maxQuantity < share then maxQuantity else share
    floorToStep div (if remaining < capped then remaining else capped) step

def makerRetryQuantityFromOrders (job : TwapJob) (instrument : Instrument)
    (children : List TwapChild) : Option Decimal :=
  match children.find? (·.key = (job.currentSlice, job.currentAttempt - 1)) with
  | none => none
  | some child => some (floorToStep div child.unfilled (parsePositiveDecimal instrument.quantityStep))

def makerPrice (plan : TwapPlan) (instrument : Instrument) (bbo : BBO) : Option Decimal :=
  let tick := parsePositiveDecimal instrument.priceTick
  let limit := parsePositiveDecimal plan.limitPrice
  match plan.side with
  | .buy =>
    bbo.bidPrice.bind fun price =>
      if price ≤ 0 then none
      else if 0 < limit ∧ limit < floorToStep div price tick then some limit
      else some (floorToStep div price tick)
  | .sell =>
    bbo.askPrice.bind fun price =>
      if price ≤ 0 then none
      else if 0 < limit ∧ ceilToStep div price tick < limit then some limit
      else some (ceilToStep div price tick)

/-- A result as the answer to the placement of an order. -/
def normalizeVenueResult (order : Order) (result : VenueResult) : VenueResult :=
  match result.filledQuantity with
  | .number filled =>
    if 0 < order.quantity ∧ order.quantity ≤ filled then
      { result with status := .status .filled, filledQuantity := .number order.quantity }
    else if result.status = .blank then { result with status := .status order.status } else result
  | .blank | .garbled => if result.status = .blank then { result with status := .status order.status } else result

def orderErrorResult (result : VenueResult) (status : OrderStatus) (errorCode : String) : VenueResult :=
  { result with
    status := if result.status = .blank then .status status else result.status
    errorCode := if result.errorCode = "" then errorCode else result.errorCode }

def Placement.result (order : Order) : Placement → VenueResult
  | .accepted result | .recovered result => normalizeVenueResult order result
  | .refused result => orderErrorResult result .rejected "venue_rejected"
  | .uncertain result => orderErrorResult result .unknown "venue_uncertain"

/-- Whether `submitWithOptions` returns an error other than `ErrVenueUncertain`; `stored` tells whether the
result was stored. What a query finds and cannot store leaves the placement uncertain. -/
def Placement.fails (stored : Bool) : Placement → Bool
  | .accepted _ | .uncertain _ => !stored
  | .recovered _ => false
  | .refused _ => true

/-- A cancellation that does not say otherwise leaves the order canceled. -/
def cancellation (result : VenueResult) : VenueResult :=
  if result.status = .blank then { result with status := .status .canceled } else result

def TwapWorld.update (world : TwapWorld) (result : VenueResult) : OrderUpdate where
  result := result
  eventAt := world.eventAt
  now := world.now
  commits := world.answer.writes

def TwapWorld.stores (world : TwapWorld) (child : TwapChild) (update : OrderUpdate) : Bool :=
  world.answer = .ok ∧ (child.store.mergeUpdate Decimal.div update).isOk

inductive TwapEvent
  /-- A venue tells about a child, over a stream or to a query of another part of the program. -/
  | report (key : TwapKey) (update : OrderUpdate)
  | tick
  | restart
  | proceed (world : TwapWorld)

namespace TwapPlan

def advanceSlice (job : TwapJob) : TwapStage := .scheduling (job.currentSlice + 1) 0 none

variable (plan : TwapPlan) (world : TwapWorld)

def scheduleMakerRetry (job : TwapJob) (child : TwapChild) : TwapStage :=
  match world.instrument with
  | none => .retrying job
  | some instrument =>
    if floorToStep Decimal.div child.unfilled (parsePositiveDecimal instrument.quantityStep) ≤ 0 ∨
        twapSliceEnd plan job ≤ world.later then advanceSlice job
    else .scheduling job.currentSlice (max job.currentAttempt child.key.2 + 1) none

def decide (job : TwapJob) : TwapStage :=
  if plan.total ≤ 0 then .closing job .failed
  else if plan.total ≤ job.filledQuantity then .closing job .completed
  else if plan.endAt ≤ world.now then
    if plan.executionType = .maker ∧ job.activeOrderID.isSome then .cancelReading job true
    else .closing job .partiallyCompleted
  else if job.status = .pending then .scheduling job.currentSlice job.currentAttempt job.activeOrderID
  else if job.activeOrderID.isSome then .reading job
  else .sizing job

/-- `handleActive`, with the order that it read. -/
def handleActive (job : TwapJob) (child : TwapChild) : TwapStage :=
  let sliceEnd := twapSliceEnd plan job
  let wait := TwapStage.scheduling job.currentSlice job.currentAttempt job.activeOrderID
  if child.terminal then
    if plan.executionType = .maker ∧ (child.order.status = .canceled ∨ child.order.status = .expired) ∧
        world.now < sliceEnd then plan.scheduleMakerRetry world job child
    else advanceSlice job
  else
    match plan.executionType with
    | .maker =>
      if min (child.createdAt + plan.orderTimeoutSeconds * 10 ^ 9) sliceEnd ≤ world.now then .cancelReading job false
      else wait
    | .market => wait

/-- `cancelActive` has returned the child, in a terminal status. -/
def canceled (job : TwapJob) (child : TwapChild) (atEnd : Bool) : TwapStage :=
  if atEnd then .refreshing
  else if world.now < twapSliceEnd plan job then plan.scheduleMakerRetry world job child
  else advanceSlice job

/-- `cancelActive` has returned an error, which the end of the window ignores. -/
def notCanceled (job : TwapJob) (atEnd : Bool) : TwapStage := if atEnd then .refreshing else .retrying job

/-- The quantity of the next child, if what it is computed from could be read. -/
def sliceQuantity (job : TwapJob) (instrument : Instrument) (children : List TwapChild) : Option Decimal :=
  if 0 < job.currentAttempt then
    if world.answer = .ok then makerRetryQuantityFromOrders Decimal.div job instrument children else none
  else
    some (calculateSliceQuantity Decimal.div (plan.total - job.filledQuantity) (plan.intervalSeconds * 10 ^ 9)
      (plan.endAt - world.now) (parsePositiveDecimal plan.maxQuantity) (parsePositiveDecimal instrument.quantityStep))

def childTerms (instrument : Instrument) : Option (OrderType × DecimalText) :=
  match plan.executionType with
  | .maker =>
    match world.book with
    | none => none
    | some bbo => (makerPrice Decimal.div plan instrument bbo).map fun price => (.limit, some price)
  | .market =>
    match plan.limitPrice with
    | none => some (.market, none)
    | some limit => some (.limit, some limit)

/-- `submitSlice` up to the intent. -/
def submitSlice (job : TwapJob) (children : List TwapChild) : TwapStage :=
  if plan.total - job.filledQuantity ≤ 0 ∨ plan.endAt ≤ world.now then .closing job .partiallyCompleted
  else
    match world.instrument with
    | none => .retrying job
    | some instrument =>
      match plan.sliceQuantity world job instrument children with
      | none => .retrying job
      | some quantity =>
        if quantity ≤ 0 then advanceSlice job
        else if !world.credentials then .retrying job
        else if !world.adapter then .closing job .failed
        else
          match plan.childTerms world instrument with
          | none => advanceSlice job
          | some (orderType, price) => .intending job ⟨quantity, orderType, price⟩

end TwapPlan

namespace TwapState

variable (plan : TwapPlan) (world : TwapWorld) (s : TwapState)

def find (key : TwapKey) : Option TwapChild := s.children.find? (·.key = key)

def filled : Decimal := (s.children.map (·.order.filledQuantity)).sum

def mapChildren (f : TwapChild → TwapChild) : TwapState := { s with children := s.children.map f }

def received (key : TwapKey) (update : OrderUpdate) : TwapState := s.mapChildren (TwapChild.receive key update)

def moveTo (stage : TwapStage) : TwapState := { s with stage }

def refreshTwapProgress : TwapJob := { s.job with filledQuantity := min plan.totalQuantity s.filled }

variable (answer : Answer)

def progressed : TwapState := if answer.writes then { s with job := s.refreshTwapProgress plan } else s

def updateTwapSchedule (status : TwapStatus) (slice attempt : ℕ) (activeOrderID : Option TwapKey) : TwapState :=
  if answer.writes ∧ s.job.status.active then
    { s with job := { s.job with status, currentSlice := slice, currentAttempt := attempt, activeOrderID } }
  else s

def closeTwap (status : TwapStatus) : TwapState :=
  if answer.writes ∧ s.job.status.active then { s with job := { s.job with status, activeOrderID := none } }
  else s

def newChild (key : TwapKey) (request : TwapRequest) : TwapChild where
  key := key
  orderType := request.orderType
  price := request.price
  createdAt := world.now
  store := { row := { quantity := request.quantity } }

/-- The fingerprint of the row is that of the request. -/
def matching (child : TwapChild) (request : TwapRequest) : Bool :=
  child.order.quantity = request.quantity ∧ child.orderType = request.orderType ∧ child.price = request.price

/-- `CreateTwapIntent`, whose transaction also points the job to the child. -/
def createTwapIntent (job : TwapJob) (request : TwapRequest) : TwapState :=
  let pointed : TwapState := { s with job := { s.job with activeOrderID := some job.key } }
  if world.answer = .lost then s.moveTo (.retrying job)
  else if !s.job.status.active then s.moveTo .idle
  else
    match s.find job.key with
    | some child =>
      if !matching child request then s.moveTo (.retrying job)
      else pointed.moveTo (if world.answer = .ok then .recording job job.key else .retrying job)
    | none =>
      { pointed with
        children := newChild world job.key request :: s.children
        stage := if world.answer = .ok then .placing job job.key else .retrying job }

/-- The rest of `cancelActive`, from the credentials to the stored result. -/
def cancelActive (job : TwapJob) (key : TwapKey) (atEnd : Bool) : TwapState :=
  match s.find key, world.cancelResult with
  | some child, some result =>
    let update := world.update (cancellation result)
    let next := s.received key update
    if !world.credentials ∨ !world.instrument.isSome ∨ !world.adapter then s.moveTo (TwapPlan.notCanceled job atEnd)
    else
      match next.find key with
      | some updated =>
        if world.stores child update ∧ updated.terminal then next.moveTo (plan.canceled world job updated atEnd)
        else next.moveTo (TwapPlan.notCanceled job atEnd)
      | none => next.moveTo (TwapPlan.notCanceled job atEnd)
  | _, _ => s.moveTo (TwapPlan.notCanceled job atEnd)

/-- `submitWithOptions` of a child that was just created. -/
def submitChild (job : TwapJob) (key : TwapKey) : TwapState :=
  match s.find key with
  | none => s.moveTo (.recording job key)
  | some child =>
    let update := world.update (world.placement.result child.order)
    ((s.received key update).mapChildren (TwapChild.submitted key)).moveTo
      (if world.placement.fails (world.stores child update) ∧ world.unauthorized then .closing job .failed
        else .recording job key)

def proceed : TwapState :=
  match s.stage with
  | .idle => s
  | .leased job =>
    (s.progressed plan world.answer).moveTo
      (if world.answer = .ok then .refreshed (s.refreshTwapProgress plan) else .retrying job)
  | .refreshed job => s.moveTo (plan.decide world job)
  | .reading job =>
    match job.activeOrderID.bind s.find with
    | some child => s.moveTo (if world.answer = .ok then plan.handleActive world job child else .retrying job)
    | none => s.moveTo (.retrying job)
  | .cancelReading job atEnd =>
    match job.activeOrderID.bind s.find with
    | some child =>
      s.moveTo (if world.answer ≠ .ok then TwapPlan.notCanceled job atEnd
        else if child.terminal then plan.canceled world job child atEnd
        else .cancelCalling job child.key atEnd)
    | none => s.moveTo (TwapPlan.notCanceled job atEnd)
  | .cancelCalling job key atEnd => s.cancelActive plan world job key atEnd
  | .refreshing =>
    let refreshed := s.refreshTwapProgress plan
    (s.progressed plan world.answer).moveTo (if world.answer ≠ .ok then .idle
      else if plan.total ≤ refreshed.filledQuantity then .closing refreshed .completed
      else .closing refreshed .partiallyCompleted)
  | .sizing job => s.moveTo (plan.submitSlice world job s.children)
  | .intending job request => s.createTwapIntent world job request
  | .placing job key => s.submitChild world job key
  | .recording job key =>
    (s.updateTwapSchedule world.answer .running job.currentSlice job.currentAttempt (some key)).moveTo .idle
  | .scheduling slice attempt activeOrderID =>
    (s.updateTwapSchedule world.answer .running slice attempt activeOrderID).moveTo .idle
  | .retrying job =>
    (s.updateTwapSchedule world.answer job.status job.currentSlice job.currentAttempt job.activeOrderID).moveTo .idle
  | .closing job status =>
    (s.closeTwap world.answer status).moveTo (if world.answer = .ok then .idle else .retrying job)

/-- The job is handed out again only when the scheduler is done with it. -/
def leaseDueTwaps : TwapState :=
  match s.stage with
  | .idle => if s.job.status.active then s.moveTo (.leased s.job) else s
  | _ => s

def step : TwapEvent → TwapState
  | .report key update => s.received key update
  | .tick => s.leaseDueTwaps
  | .restart => s.moveTo .idle
  | .proceed world => s.proceed plan world

def run (events : List TwapEvent) : TwapState := events.foldl (step plan) {}

end TwapState

/-- What the scheduler reads of a row when it leases the job. -/
structure TwapRow where
  job : TwapJob := {}
  nextActionAt : Int
  schedulerFailures : ℕ := 0

def timeSecond : Int := 10 ^ 9

namespace TwapRow

variable {row : TwapRow} (times : List Int) (now : Int)

def updateTwapSchedule (row : TwapRow) (status : TwapStatus) (slice attempt : ℕ) (next : Int)
    (activeOrderID : Option TwapKey) : TwapRow :=
  if row.job.status.active then
    { job := { row.job with status, currentSlice := slice, currentAttempt := attempt, activeOrderID }
      nextActionAt := next, schedulerFailures := 0 }
  else row

def retry (row leased : TwapRow) : TwapRow :=
  let delay := min (timeSecond * 2 ^ min leased.schedulerFailures 6) (60 * timeSecond)
  row.updateTwapSchedule leased.job.status leased.job.currentSlice leased.job.currentAttempt (now + delay)
    leased.job.activeOrderID

def errored (row : TwapRow) (now : Int) : TwapRow := row.retry now row

/-- No statement of the repository raises `scheduler_failures`, and its default is zero. -/
structure Waiting (row : TwapRow) : Prop where
  active : row.job.status.active = true
  failures : row.schedulerFailures = 0

theorem Waiting.errored_eq (h : row.Waiting) : row.errored now = { row with nextActionAt := now + timeSecond } := by
  obtain ⟨hactive, hfailures⟩ := h
  have hdelay : min (timeSecond * 2 ^ min row.schedulerFailures 6) (60 * timeSecond) = timeSecond := by
    rw [hfailures]
    decide
  rw [errored, retry, hdelay, updateTwapSchedule, if_pos hactive, ← hfailures]

theorem Waiting.run (h : row.Waiting) : (times.foldl errored row).Waiting := by
  induction times generalizing row with
  | nil => exact h
  | cons now times ih =>
    have hnx : (row.errored now).Waiting := by
      rw [h.errored_eq]
      exact ⟨h.active, h.failures⟩
    exact ih hnx

/-- The retry keeps the pace of a first error, since the update that schedules it clears the counter it reads. -/
theorem retry_backs_off_iff (h : row.Waiting) :
    ((times ++ [now]).foldl errored row).nextActionAt =
      now + min (2 ^ times.length) 60 * timeSecond ↔ times = [] := by
  rw [List.foldl_append, List.foldl_cons, List.foldl_nil, (h.run times).errored_eq]
  cases times with
  | nil => simp
  | cons first rest =>
    have hpow : 0 < 2 ^ rest.length := Nat.two_pow_pos rest.length
    simp only [List.length_cons, pow_succ, timeSecond, reduceCtorEq, iff_false]
    zify at hpow
    omega

theorem retry_backs_off_once : (errored { nextActionAt := 0 } 5).nextActionAt = 5 + timeSecond :=
  (@retry_backs_off_iff { nextActionAt := 0 } [] 5 ⟨rfl, rfl⟩).2 rfl

theorem retry_keeps_pace :
    ([5, 2 * timeSecond].foldl errored { nextActionAt := 0 }).nextActionAt = 3 * timeSecond := by decide

end TwapRow

end SelfQuant.Trader
