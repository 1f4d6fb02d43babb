import SelfQuant.OmsOrderTable

namespace SelfQuant.Oms

open Probe

structure FillDedupEntry where
  handle : OrderHandle
  tradeId : TradeId
  (quantity price : Int)
deriving DecidableEq

structure StateEngine where
  orders : OrderTable
  fillDedup : List (Cell FillDedupEntry)
deriving DecidableEq

/-- The result of an engine call: its error code, the state it leaves, the updates handed to
the sink, and the handle written by `submit`. -/
structure Outcome where
  error : Error
  engine : StateEngine
  updates : List SinkUpdate := []
  handle : OrderHandle := {}

def fillDedupSize (capacity : Nat) : Option Nat :=
  let value := max 4 (capacity * 2 % 2 ^ 64)
  if value > (2 ^ 64 - 1) / 2 then none else some (nextPowerOfTwo value)

def hasAnyByte (value : List UInt8) : Bool := value.any (· != 0)

def validSide : Side → Bool
  | .buy | .sell => true
  | .other _ => false

def validOrderType : OrderType → Bool
  | .limit | .market => true
  | .other _ => false

def validTimeInForce : TimeInForce → Bool
  | .other _ => false
  | _ => true

def venuePolymarket : Nat := 6

/-- The argument checks of `submit`, in the order in which they are made. -/
def submitError (prepared : SubmitOrderRequest) : Error :=
  let request := prepared.order
  let routing := prepared.routing
  let polymarket := decide (routing.kind = .polymarket)
  let ibkr := decide (routing.kind = .ibkr)
  let polymarketVenue := decide (routing.venue = venuePolymarket)
  if (routing.kind ≠ .crypto ∧ !polymarket ∧ !ibkr) ∨
      routing.venue = 0 ∨ routing.productType = 0 ∨ routing.catalogRevision = 0 ∨
      polymarket ≠ polymarketVenue ∨ routing.priceScale > 18 ∨ routing.quantityScale > 18 ∨
      routing.tickSize ≤ 0 ∨ routing.lotSize ≤ 0 ∨
      !validSide request.side ∨ !validOrderType request.type ∨
      !validTimeInForce request.timeInForce ∨ request.instrumentId = 0 ∨
      request.flags &&& ~~~knownFlags ≠ 0 then .invalidArgument
  else if request.quantity.scale ≠ routing.quantityScale ∨ request.price.scale ≠ routing.priceScale then .invalidScale
  else if request.quantity.value ≤ 0 ∨ (request.flags &&& quoteQuantity = 0 ∧
      request.quantity.value.tmod routing.lotSize ≠ 0) then .invalidArgument
  else if request.type = .limit ∧ (request.price.value ≤ 0 ∨
      request.price.value.tmod routing.tickSize ≠ 0) then .invalidArgument
  else if request.type = .market ∧ request.flags &&& postOnly ≠ 0 then .invalidArgument
  else if decide (request.timeInForce = .gtd) ≠ decide (request.expireTimeNs ≠ 0) then .invalidArgument
  else if !polymarket ∧ (routing.venueSymbol.length = 0 ∨ routing.venueSymbol.length > 32) then .invalidArgument
  else if polymarket ∧ (routing.minimumOrderSize ≤ 0 ∨
      request.quantity.value < routing.minimumOrderSize ∨
      (routing.outcome ≠ .yes ∧ routing.outcome ≠ .no) ∨
      !hasAnyByte routing.conditionId ∨ !hasAnyByte routing.tokenId) then .invalidArgument
  else .ok

def emitOrder (type : UpdateType) (handle : OrderHandle) (r : OrderRecord) : SinkUpdate :=
  .order { type := type, handle := handle, token := r.request.token
           clientOrderId := r.request.clientOrderId, venueOrderId := r.venueOrderId
           status := r.status, inflight := r.inflight }

def merge (record candidate : Option Nat) (missing : Error) : Except Error (Option Nat) :=
  match candidate with
  | none => .error (if record = none then missing else .protocolConflict)
  | some slot => if record ≠ none ∧ record ≠ some slot then .error .protocolConflict else .ok (some slot)

def identifyHandle (t : OrderTable) (event : VenueEvent) : Except Error (Option Nat) :=
  if event.handle.generation ≠ 0 then merge none (t.lookup event.handle) .staleHandle else .ok none

variable (H : OrderHashes)

def identifyToken (t : OrderTable) (event : VenueEvent) (record : Option Nat) : Except Error (Option Nat) :=
  if event.token.sequence ≠ 0 then merge record (t.findToken H event.token) .notFound
  else .ok record

def identifyClient (t : OrderTable) (event : VenueEvent) (record : Option Nat) : Except Error (Option Nat) :=
  if event.clientOrderId.length ≠ 0 then
    if !validId event.clientOrderId then .error .invalidArgument
    else merge record (t.findClient H event.clientOrderId) .notFound
  else .ok record

/-- An unknown venue identifier is left for `resolve` to bind. -/
def identifyVenue (t : OrderTable) (event : VenueEvent) (record : Option Nat) : Except Error (Option Nat) :=
  if event.venueOrderId.length ≠ 0 then
    if !validId event.venueOrderId then .error .invalidArgument
    else match t.findVenue H event.venueOrderId with
      | some slot => merge record (some slot) .notFound
      | none => .ok record
  else .ok record

def identify (t : OrderTable) (event : VenueEvent) : Except Error (Option Nat) := do
  let record ← identifyHandle t event
  let record ← identifyToken H t event record
  let record ← identifyClient H t event record
  identifyVenue H t event record

def resolve (t : OrderTable) (event : VenueEvent) : Except Error Nat × OrderTable :=
  match identify H t event with
  | .error error => (.error error, t)
  | .ok none => (.error .notFound, t)
  | .ok (some slot) =>
    if event.venueOrderId.length ≠ 0 ∧ t.findVenue H event.venueOrderId = none then
      match t.bindVenueId H (t.handleOf slot) event.venueOrderId with
      | (.ok, t) => (.ok slot, t)
      | (error, t) => (.error error, t)
    else (.ok slot, t)

inductive Reaction
  | refuse (error : Error)
  | accept (record : OrderRecord) (observe : Bool) (emit : Option UpdateType)

variable (r : OrderRecord)

def ackStatus : OrderStatus :=
  if r.status = .pendingSubmit ∨ r.status = .unknown then
    if r.cumulativeQuantity = 0 then .opened
    else if r.remainingQuantity = 0 then .filled else .partiallyFilled
  else r.status

def ackInflight : InflightAction := if r.inflight = .submit ∨ ackStatus r = .filled then .none else r.inflight

def ackRecord : OrderRecord := { r with status := ackStatus r, inflight := ackInflight r }

def ackChanged : Bool :=
  decide (r.status = .pendingSubmit ∨ r.status = .unknown) || decide (r.inflight = .submit) ||
    decide (ackStatus r = .filled ∧ r.inflight ≠ .none)

def settled (status : OrderStatus) : OrderRecord := { r with status := status, inflight := .none }

def react (event : VenueEvent) : Reaction :=
  match event.type with
  | .newAck =>
    if r.status = .rejected then .refuse .protocolConflict
    else if ackChanged r then .accept (ackRecord r) true (some .accepted)
    else .accept r true none
  | .newReject =>
    if r.status = .rejected then .accept r false none
    else if r.status ≠ .pendingSubmit ∨ r.cumulativeQuantity ≠ 0 then .refuse .protocolConflict
    else .accept (settled r .rejected) true (some .rejected)
  | .cancelAck =>
    if r.status = .canceled then .accept r false none
    else if r.inflight ≠ .cancel ∨ r.status = .filled then .refuse .invalidTransition
    else .accept (settled r .canceled) true (some .canceled)
  | .cancelReject =>
    if r.inflight ≠ .cancel then if isTerminal r.status then .refuse .protocolConflict else .accept r false none
    else .accept { r with inflight := if r.status = .pendingSubmit then .submit else .none } false
      (some .cancelRejected)
  | .expire =>
    if r.status = .expired then .accept r false none
    else if isTerminal r.status then .refuse .protocolConflict
    else .accept (settled r .expired) true (some .expired)
  | .reconcileOpen =>
    if r.remainingQuantity = 0 ∨ (isTerminal r.status ∧ r.status ≠ .unknown) then .refuse .protocolConflict
    else .accept (settled r (if r.cumulativeQuantity = 0 then .opened else .partiallyFilled)) false (some .reconciled)
  | .reconcileTerminal =>
    if !isTerminal event.reconciledStatus then .refuse .invalidArgument
    else if event.reconciledStatus = .filled ∧ r.remainingQuantity ≠ 0 then .refuse .protocolConflict
    else if isTerminal r.status ∧ r.status ≠ event.reconciledStatus then .refuse .protocolConflict
    else if r.status = event.reconciledStatus then .accept r false none
    else .accept (settled r event.reconciledStatus) true (some .reconciled)
  | .fill | .other _ => .refuse .invalidArgument

def filledRecord (event : VenueEvent) : OrderRecord :=
  let quantity := event.fillQuantity.value
  let notional := r.cumulativeNotional + event.fillPrice.value * quantity
  let remaining := r.remainingQuantity - quantity
  let resting := decide (r.status = .opened ∨ r.status = .partiallyFilled ∨ r.status = .unknown)
  let status := if resting then if remaining = 0 then .filled else .partiallyFilled else r.status
  { r with
    cumulativeQuantity := r.cumulativeQuantity + quantity, remainingQuantity := remaining
    cumulativeNotional := notional, averagePrice := notional.tdiv (r.cumulativeQuantity + quantity)
    status := status, inflight := if resting ∧ status = .filled then .none else r.inflight }

def emitFill (handle : OrderHandle) (r : OrderRecord) (event : VenueEvent) : SinkUpdate :=
  .fill { handle := handle, token := r.request.token
          clientOrderId := r.request.clientOrderId, venueOrderId := r.venueOrderId
          tradeId := event.tradeId, quantity := event.fillQuantity, price := event.fillPrice
          cumulativeQuantity := ⟨r.cumulativeQuantity, r.request.quantity.scale⟩
          remainingQuantity := ⟨r.remainingQuantity, r.request.quantity.scale⟩
          averagePrice := ⟨r.averagePrice, r.request.price.scale⟩ }

namespace StateEngine

def create (orderCapacity fillDedupCapacity : Nat) : Option StateEngine := do
  let orders ← OrderTable.create orderCapacity
  let size ← fillDedupSize fillDedupCapacity
  some { orders := orders, fillDedup := List.replicate size .empty }

def setRecord (s : StateEngine) (slot : Nat) (r : OrderRecord) : StateEngine :=
  { s with orders := s.orders.setRecord slot r }

variable (H : OrderHashes) (s : StateEngine) (handle : OrderHandle)

def observeTerminal : StateEngine :=
  match s.orders.lookup handle with
  | none => s
  | some slot =>
    if isTerminal (s.orders.record slot).status then { s with orders := (s.orders.markTerminal handle).2 }
    else s

def submit (prepared : SubmitOrderRequest) : Outcome :=
  if submitError prepared ≠ .ok then { error := submitError prepared, engine := s }
  else
    match s.orders.insert H prepared with
    | (.ok, handle, orders) =>
      { error := .ok, engine := { s with orders := orders }, handle := handle
        updates := [emitOrder .submitted handle (orders.record handle.slot)] }
    | (error, handle, orders) => { error := error, engine := { s with orders := orders }, handle := handle }

variable (slot : Nat)

def settle (status : OrderStatus) (type : UpdateType) : Outcome :=
  let handle := s.orders.handleOf slot
  let r := settled (s.orders.record slot) status
  { error := .ok, engine := (s.setRecord slot r).observeTerminal handle
    updates := [emitOrder type handle r] }

def expireOneForRetirement (instrumentId : InstrumentId) : Outcome :=
  if instrumentId = 0 then { error := .invalidArgument, engine := s }
  else
    let handle := s.orders.findNonTerminal instrumentId
    if handle.generation = 0 then { error := .notFound, engine := s }
    else
      match s.orders.lookup handle with
      | none => { error := .staleHandle, engine := s }
      | some slot =>
        if isTerminal (s.orders.record slot).status then { error := .notFound, engine := s }
        else s.settle slot .expired .expired

def rejectLocal : Outcome :=
  match s.orders.lookup handle with
  | none => { error := .staleHandle, engine := s }
  | some slot =>
    if (s.orders.record slot).status ≠ .pendingSubmit ∨ (s.orders.record slot).inflight ≠ .submit then
      { error := .invalidTransition, engine := s }
    else s.settle slot .rejected .rejected

def requestCancel (token : RequestToken) : Outcome :=
  match s.orders.findToken H token with
  | none => { error := .notFound, engine := s }
  | some slot =>
    let r := s.orders.record slot
    if isTerminal r.status ∨ r.inflight = .cancel then { error := .invalidTransition, engine := s }
    else
      let r := { r with inflight := .cancel }
      { error := .ok, engine := s.setRecord slot r
        updates := [emitOrder .cancelRequested (s.orders.handleOf slot) r] }

def liveEntry (entry : FillDedupEntry) : Bool := (s.orders.lookup entry.handle).isSome

variable (event : VenueEvent)

/-- Look a fill up in the dedup table: a duplicate, a conflict, or the cell to record it in. -/
def checkDuplicate : Error × Nat :=
  if event.tradeId.length = 0 ∨ event.tradeId.length > 96 then (.invalidArgument, 0)
  else
    let hash := H.fill handle event.tradeId
    let path := visited s.fillDedup hash
    let same := fun entry : FillDedupEntry => s.liveEntry entry &&
      decide (entry.handle = handle) && decide (entry.tradeId = event.tradeId)
    match (path.find? (holdsAt s.fillDedup same)).bind fun i => s.fillDedup[i]?.bind Cell.occupant with
    | some entry =>
      (if entry.quantity = event.fillQuantity.value ∧ entry.price = event.fillPrice.value then
        .duplicate else .protocolConflict, 0)
    | none =>
      match ((path.find? (holdsAt s.fillDedup fun entry => !s.liveEntry entry)).or
          (path.find? (isDeletedAt s.fillDedup))).or (firstEmpty s.fillDedup hash) with
      | some cell => (.ok, cell)
      | none => (.capacityExceeded, 0)

def recordFill (cell : Nat) (handle : OrderHandle) (event : VenueEvent) : StateEngine :=
  { s with fillDedup := s.fillDedup.set cell (.full
    { handle := handle, tradeId := event.tradeId
      quantity := event.fillQuantity.value, price := event.fillPrice.value }) }

def applyFill : Outcome :=
  let r := s.orders.record slot
  let handle := s.orders.handleOf slot
  let quantity := event.fillQuantity.value
  let price := event.fillPrice.value
  if event.fillQuantity.scale ≠ r.request.quantity.scale ∨
      event.fillPrice.scale ≠ r.request.price.scale then { error := .invalidScale, engine := s }
  else if quantity ≤ 0 ∨ price ≤ 0 then { error := .invalidArgument, engine := s }
  else
    match s.checkDuplicate H handle event with
    | (.duplicate, _) => { error := .ok, engine := s }
    | (.ok, cell) =>
      if quantity > r.remainingQuantity then { error := .overfill, engine := s }
      else if r.cumulativeQuantity > int64Max - quantity then { error := .arithmeticOverflow, engine := s }
      else if (filledRecord r event).averagePrice > int64Max ∨ (filledRecord r event).averagePrice < int64Min then
        { error := .arithmeticOverflow, engine := s }
      else
        let filled := filledRecord r event
        { error := .ok
          engine := ((s.setRecord slot filled).observeTerminal handle).recordFill cell handle event
          updates := [emitFill handle filled event] }
    | (error, _) => { error := error, engine := s }

def applyReaction : Reaction → Outcome
  | .refuse error => { error := error, engine := s }
  | .accept r observe emit =>
    let handle := s.orders.handleOf slot
    let s := s.setRecord slot r
    { error := .ok, engine := if observe then s.observeTerminal handle else s
      updates := emit.toList.map fun type => emitOrder type handle r }

/-- An event type outside the enumeration falls through the switch of the source into the
fill path. -/
def applyAt : Outcome :=
  match event.type with
  | .fill | .other _ => s.applyFill H slot event
  | _ => s.applyReaction slot (react (s.orders.record slot) event)

def apply : Outcome :=
  match resolve H s.orders event with
  | (.error error, orders) => { error := error, engine := { s with orders := orders } }
  | (.ok slot, orders) => applyAt H { s with orders := orders } slot event

end StateEngine

end SelfQuant.Oms
