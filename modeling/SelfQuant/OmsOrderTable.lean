import Mathlib.Data.List.Basic
import SelfQuant.ProbeMap

namespace SelfQuant.Oms

inductive Error
  | ok | invalidArgument | invalidScale | invalidTransition | notFound | capacityExceeded
  | duplicate | conflict | staleHandle | frozen | untradeable | protocolConflict | overfill
  | arithmeticOverflow | queueFull | invalidMode | notReady | shuttingDown
  | deadlineCapacityExceeded | unsupported | deferred | inconsistentState
deriving DecidableEq

abbrev InstrumentId := Nat
abbrev AccountId := Nat

/-- A length-prefixed identifier: the bytes a reader of `length` bytes sees. A length
above the capacity is representable, as it is in the wire structure. -/
structure FixedId (capacity : Nat) where
  value : List UInt8
deriving DecidableEq

def FixedId.length {capacity : Nat} (id : FixedId capacity) : Nat := id.value.length

def validId {capacity : Nat} (id : FixedId capacity) : Bool := decide (0 < id.length) && decide (id.length ≤ capacity)

abbrev ClientOrderId := FixedId 64
abbrev VenueOrderId := FixedId 96
abbrev TradeId := FixedId 96
abbrev VenueSymbol := FixedId 32

structure RequestToken where
  (lane sessionEpoch sequence : Nat := 0)
deriving DecidableEq

structure OrderHandle where
  (slot reserved generation : Nat := 0)
deriving DecidableEq

structure FixedPoint where
  value : Int := 0
  scale : Nat := 0
deriving DecidableEq

/-- Enumerations whose validity the code checks keep the raw values outside their range. -/
inductive Side
  | buy | sell | other (raw : Nat)
deriving DecidableEq

inductive OrderType
  | limit | market | other (raw : Nat)
deriving DecidableEq

inductive TimeInForce
  | gtc | gtd | ioc | fok | fak | other (raw : Nat)
deriving DecidableEq

inductive OrderStatus
  | pendingSubmit | opened | partiallyFilled | filled | canceled | rejected | expired | unknown
deriving DecidableEq

inductive InflightAction
  | none | submit | cancel | reconcile
deriving DecidableEq

inductive PolymarketOutcome
  | unknown | yes | no
deriving DecidableEq

inductive ExecutionRouteKind
  | crypto | polymarket | ibkr | other (raw : Nat)
deriving DecidableEq

inductive IbkrSecurityType
  | unknown | stock | commodity | cash
deriving DecidableEq

def postOnly : UInt16 := 1
def reduceOnly : UInt16 := 2
def closePosition : UInt16 := 4
def quoteQuantity : UInt16 := 8
def knownFlags : UInt16 := postOnly ||| reduceOnly ||| closePosition ||| quoteQuantity

structure NewOrderRequest where
  token : RequestToken := {}
  clientOrderId : ClientOrderId := ⟨[]⟩
  instrumentId : InstrumentId := 0
  side : Side := .buy
  type : OrderType := .limit
  timeInForce : TimeInForce := .gtc
  flags : UInt16 := 0
  (quantity price : FixedPoint := {})
  expireTimeNs : Nat := 0
deriving DecidableEq

/-- Execution data frozen on the order. The venue-specific arms of the source's union stand
side by side; which one is read depends on `kind`. -/
structure ResolvedInstrument where
  kind : ExecutionRouteKind := .crypto
  (venue productType priceScale quantityScale : Nat := 0)
  outcome : PolymarketOutcome := .unknown
  catalogRevision : Nat := 0
  (tickSize lotSize minimumOrderSize : Int := 0)
  instrumentExpiryNs : Nat := 0
  venueSymbol : VenueSymbol := ⟨[]⟩
  (conditionId tokenId : List UInt8 := [])
  conId : Int := 0
  securityType : IbkrSecurityType := .unknown
deriving DecidableEq

structure SubmitOrderRequest where
  order : NewOrderRequest := {}
  routing : ResolvedInstrument := {}
deriving DecidableEq

inductive VenueEventType
  | newAck | newReject | cancelAck | cancelReject | expire | reconcileOpen | reconcileTerminal
  | fill | other (raw : Nat)
deriving DecidableEq

structure VenueEvent where
  type : VenueEventType := .newAck
  handle : OrderHandle := {}
  token : RequestToken := {}
  clientOrderId : ClientOrderId := ⟨[]⟩
  venueOrderId : VenueOrderId := ⟨[]⟩
  tradeId : TradeId := ⟨[]⟩
  (fillQuantity fillPrice : FixedPoint := {})
  reconciledStatus : OrderStatus := .unknown
deriving DecidableEq

inductive UpdateType
  | submitted | accepted | rejected | cancelRequested | canceled | cancelRejected | expired
  | reconciled
deriving DecidableEq

structure OrderUpdate where
  type : UpdateType
  handle : OrderHandle
  token : RequestToken
  clientOrderId : ClientOrderId
  venueOrderId : VenueOrderId
  status : OrderStatus
  inflight : InflightAction
deriving DecidableEq

structure FillUpdate where
  handle : OrderHandle
  token : RequestToken
  clientOrderId : ClientOrderId
  venueOrderId : VenueOrderId
  tradeId : TradeId
  (quantity price cumulativeQuantity remainingQuantity averagePrice : FixedPoint)
deriving DecidableEq

inductive SinkUpdate
  | order (update : OrderUpdate)
  | fill (update : FillUpdate)
deriving DecidableEq

def SinkUpdate.token : SinkUpdate → RequestToken
  | .order update => update.token
  | .fill update => update.token

def SinkUpdate.handle : SinkUpdate → OrderHandle
  | .order update => update.handle
  | .fill update => update.handle

def isTerminal : OrderStatus → Bool
  | .filled | .canceled | .rejected | .expired => true
  | _ => false

def int64Max : Int := 2 ^ 63 - 1
def int64Min : Int := -2 ^ 63

open List Probe

structure OrderHashes where
  token : RequestToken → Nat
  client : ClientOrderId → Nat
  venue : VenueOrderId → Nat
  fill : OrderHandle → TradeId → Nat

def hashMix (bytes : List UInt8) (hash : Nat) : Nat :=
  bytes.foldl (fun hash byte => (hash ^^^ byte.toNat) * 1099511628211 % 2 ^ 64) hash

def integerBytes (width value : Nat) : List UInt8 := (range width).map fun i => UInt8.ofNat (value / 256 ^ i)

def hashToken (value : RequestToken) : Nat :=
  hashMix (integerBytes 8 value.sequence) (hashMix (integerBytes 4 value.sessionEpoch)
    (hashMix (integerBytes 4 value.lane) 1469598103934665603))

def hashId {capacity : Nat} (value : FixedId capacity) : Nat :=
  hashMix (integerBytes 2 value.length) (hashMix value.value 1469598103934665603)

def fillHash (handle : OrderHandle) (tradeId : TradeId) : Nat :=
  hashMix tradeId.value ((handle.slot * 0x9e3779b97f4a7c15 + handle.generation) % 2 ^ 64)

def sourceHashes : OrderHashes := ⟨hashToken, hashId, hashId, fillHash⟩

def nextPowerOfTwo (value : Nat) : Nat := double 63 1
where
  double : Nat → Nat → Nat
    | 0, result => result
    | fuel + 1, result => if result < value then double fuel (result * 2) else result

abbrev FixedMap (K : Type) := ProbeMap K OrderHandle

def FixedMap.create (K : Type) (capacity : Nat) : FixedMap K :=
  replicate (nextPowerOfTwo (max 4 (capacity * 2))) .empty

def FixedMap.insert {K : Type} [DecidableEq K] (hash : K → Nat) (m : FixedMap K) (key : K)
    (value : OrderHandle) : Error × FixedMap K :=
  match ProbeMap.lookup hash m key with
  | some existing => (if existing = value then .ok else .conflict, m)
  | none =>
    match ProbeMap.store hash m key value with
    | some m => (.ok, m)
    | none => (.capacityExceeded, m)

def kMissing : Nat := 0xffffffff

structure OrderRecord where
  request : NewOrderRequest := {}
  routing : ResolvedInstrument := {}
  venueOrderId : VenueOrderId := ⟨[]⟩
  status : OrderStatus := .pendingSubmit
  inflight : InflightAction := .none
  inTerminal : Bool := false
  (terminalPrev terminalNext : Nat := kMissing)
  (cumulativeQuantity remainingQuantity averagePrice cumulativeNotional : Int := 0)
  generation : Nat := 0
  occupied : Bool := false
deriving DecidableEq

structure TerminalLink where
  slot : Nat := kMissing
  generation : Nat := 0
deriving DecidableEq

def retiredTokenCapacity : Nat := 128

/-- The order table. A record pointer of the source is the slot of the record; the free list
is kept top first. -/
structure OrderTable where
  records : List OrderRecord
  freeSlots : List Nat
  size : Nat := 0
  (terminalHead terminalTail : TerminalLink := {})
  retiredTokens : List RequestToken := replicate retiredTokenCapacity {}
  (retiredTokenCount retiredTokenNext : Nat := 0)
  byToken : FixedMap RequestToken
  byClient : FixedMap ClientOrderId
  byVenue : FixedMap VenueOrderId
deriving DecidableEq

def checkedCapacity (capacity : Nat) : Option Nat :=
  if capacity = 0 ∨ capacity > 2 ^ 32 - 1 ∨ capacity > (2 ^ 64 - 1) / 2 then none else some capacity

namespace OrderTable

def create (capacity : Nat) : Option OrderTable :=
  (checkedCapacity capacity).map fun capacity =>
    { records := replicate capacity {}
      freeSlots := range capacity
      byToken := FixedMap.create _ capacity
      byClient := FixedMap.create _ capacity
      byVenue := FixedMap.create _ capacity }

variable (H : OrderHashes) (t : OrderTable)

def capacity : Nat := t.records.length

def record (slot : Nat) : OrderRecord := (t.records[slot]?).getD {}

def setRecord (slot : Nat) (r : OrderRecord) : OrderTable := { t with records := t.records.set slot r }

def modifyRecord (slot : Nat) (f : OrderRecord → OrderRecord) : OrderTable := t.setRecord slot (f (t.record slot))

variable (handle : OrderHandle)

def lookup : Option Nat :=
  if handle.generation = 0 ∨ handle.reserved ≠ 0 ∨ t.records.length ≤ handle.slot then none
  else if (t.record handle.slot).occupied ∧
      (t.record handle.slot).generation = handle.generation then some handle.slot
  else none

def handleOf (slot : Nat) : OrderHandle := { slot := slot, generation := (t.record slot).generation }

variable (token : RequestToken)

def findToken : Option Nat := (ProbeMap.lookup H.token t.byToken token).bind t.lookup

def findClient (id : ClientOrderId) : Option Nat :=
  if validId id then (ProbeMap.lookup H.client t.byClient id).bind t.lookup else none

def findVenue (id : VenueOrderId) : Option Nat :=
  if validId id then (ProbeMap.lookup H.venue t.byVenue id).bind t.lookup else none

def unlinkTerminal (slot : Nat) : OrderTable :=
  let r := t.record slot
  if !r.inTerminal then t
  else
    let prev := r.terminalPrev
    let next := r.terminalNext
    let prevOk := decide (prev < t.records.length) && (t.record prev).occupied &&
      (t.record prev).inTerminal && decide ((t.record prev).terminalNext = slot)
    let nextOk := decide (next < t.records.length) && (t.record next).occupied &&
      (t.record next).inTerminal && decide ((t.record next).terminalPrev = slot)
    let nextLink : TerminalLink := if nextOk then ⟨next, (t.record next).generation⟩ else {}
    let prevLink : TerminalLink := if prevOk then ⟨prev, (t.record prev).generation⟩ else {}
    let t := if prevOk then t.modifyRecord prev fun p => { p with terminalNext := if nextOk then next else kMissing }
      else t
    let t := if nextOk then t.modifyRecord next fun n => { n with terminalPrev := if prevOk then prev else kMissing }
      else t
    let head := if t.terminalHead.slot = slot ∧ t.terminalHead.generation = r.generation then
      nextLink else t.terminalHead
    let tail := if t.terminalTail.slot = slot ∧ t.terminalTail.generation = r.generation then
      prevLink else t.terminalTail
    { t with terminalHead := head, terminalTail := tail }.modifyRecord slot fun r =>
      { r with inTerminal := false, terminalPrev := kMissing, terminalNext := kMissing }

def erase : Error × OrderTable :=
  match t.lookup handle with
  | none => (.staleHandle, t)
  | some slot =>
    let t := t.unlinkTerminal slot
    let r := t.record slot
    let t := { t with
      byToken := ProbeMap.remove H.token t.byToken r.request.token
      byClient := ProbeMap.remove H.client t.byClient r.request.clientOrderId
      byVenue := if r.venueOrderId.length ≠ 0 then ProbeMap.remove H.venue t.byVenue r.venueOrderId else t.byVenue }
    let t := t.modifyRecord slot fun r => { r with
      occupied := false, inTerminal := false, terminalPrev := kMissing, terminalNext := kMissing }
    (.ok, { t with freeSlots := slot :: t.freeSlots, size := t.size - 1 })

def reclaimOldestTerminal : Error × OrderTable :=
  if t.terminalHead.slot = kMissing ∨ t.records.length ≤ t.terminalHead.slot then (.capacityExceeded, t)
  else
    let r := t.record t.terminalHead.slot
    if !r.occupied || !r.inTerminal || decide (r.generation ≠ t.terminalHead.generation) ||
        !isTerminal r.status || decide (r.inflight ≠ .none) then
      (.capacityExceeded, t)
    else t.erase H { slot := t.terminalHead.slot, generation := r.generation }

/-- The next generation of a slot; generation zero is skipped when the counter wraps. -/
def nextGeneration (generation : Nat) : Nat := if (generation + 1) % 2 ^ 64 = 0 then 1 else (generation + 1) % 2 ^ 64

variable (submitted : SubmitOrderRequest)

def freshRecord (generation : Nat) : OrderRecord :=
  { request := submitted.order
    routing := submitted.routing, status := .pendingSubmit, inflight := .submit
    remainingQuantity := submitted.order.quantity.value, generation := generation, occupied := true }

def occupy : Error × OrderHandle × OrderTable :=
  match t.freeSlots with
  | [] => (.capacityExceeded, {}, t)
  | slot :: freeSlots =>
    let generation := nextGeneration (t.record slot).generation
    let handle : OrderHandle := { slot := slot, generation := generation }
    let t := { t with freeSlots := freeSlots }.setRecord slot (freshRecord submitted generation)
    let (tokenResult, byToken) := FixedMap.insert H.token t.byToken submitted.order.token handle
    let (clientResult, byClient) := FixedMap.insert H.client t.byClient submitted.order.clientOrderId handle
    let t := { t with byToken := byToken, byClient := byClient }
    if tokenResult ≠ .ok ∨ clientResult ≠ .ok then
      let t := { t with
        byToken := ProbeMap.remove H.token t.byToken submitted.order.token
        byClient := ProbeMap.remove H.client t.byClient submitted.order.clientOrderId }
      let t := t.modifyRecord slot fun r => { r with
        occupied := false, inTerminal := false, terminalPrev := kMissing, terminalNext := kMissing }
      (.capacityExceeded, handle, { t with freeSlots := slot :: t.freeSlots })
    else (.ok, handle, { t with size := t.size + 1 })

def insert : Error × OrderHandle × OrderTable :=
  let request := submitted.order
  if request.token.sequence = 0 ∨ !validId request.clientOrderId ∨ request.quantity.value ≤ 0 then
    (.invalidArgument, {}, t)
  else if (ProbeMap.lookup H.token t.byToken request.token).isSome ∨
      (ProbeMap.lookup H.client t.byClient request.clientOrderId).isSome then
    (.conflict, {}, t)
  else if t.freeSlots = [] then
    match t.reclaimOldestTerminal H with
    | (.ok, t) => t.occupy H submitted
    | (_, t) => (.capacityExceeded, {}, t)
  else t.occupy H submitted

def markTerminal : Error × OrderTable :=
  match t.lookup handle with
  | none => (.staleHandle, t)
  | some slot =>
    if !isTerminal (t.record slot).status then (.invalidTransition, t)
    else if (t.record slot).inTerminal then (.ok, t)
    else
      let t := t.modifyRecord slot fun r => { r with terminalPrev := kMissing, terminalNext := kMissing }
      let link : TerminalLink := ⟨handle.slot, handle.generation⟩
      if t.terminalTail.slot < t.records.length then
        let previous := t.record t.terminalTail.slot
        if !previous.occupied || !previous.inTerminal ||
            decide (previous.generation ≠ t.terminalTail.generation) then (.invalidTransition, t)
        else
          let t := t.modifyRecord t.terminalTail.slot fun p => { p with terminalNext := handle.slot }
          let t := t.modifyRecord slot fun r => { r with terminalPrev := t.terminalTail.slot, inTerminal := true }
          let head := if t.records.length ≤ t.terminalHead.slot then link else t.terminalHead
          (.ok, { t with terminalTail := link, terminalHead := head })
      else
        let t := t.modifyRecord slot fun r => { r with inTerminal := true }
        (.ok, { t with terminalTail := link, terminalHead := link })

variable (instrumentId : InstrumentId)

def findNonTerminal : OrderHandle :=
  match (range t.records.length).find? fun slot =>
      (t.record slot).occupied && decide ((t.record slot).request.instrumentId = instrumentId) &&
        !isTerminal (t.record slot).status with
  | some slot => t.handleOf slot
  | none => {}

def bindVenueId (venueId : VenueOrderId) : Error × OrderTable :=
  match t.lookup handle with
  | none => (.staleHandle, t)
  | some slot =>
    if !validId venueId then (.invalidArgument, t)
    else if (t.record slot).venueOrderId.length ≠ 0 then
      (if (t.record slot).venueOrderId = venueId then .ok else .conflict, t)
    else
      match FixedMap.insert H.venue t.byVenue venueId handle with
      | (.ok, byVenue) =>
        (.ok, { t with byVenue := byVenue }.modifyRecord slot fun r => { r with venueOrderId := venueId })
      | (result, _) => (result, t)

def rememberRetiredToken : OrderTable :=
  if token.sequence = 0 then t
  else { t with
    retiredTokens := t.retiredTokens.set (t.retiredTokenNext % retiredTokenCapacity) token
    retiredTokenCount := if t.retiredTokenCount < retiredTokenCapacity then
      t.retiredTokenCount + 1 else t.retiredTokenCount
    retiredTokenNext := (t.retiredTokenNext + 1) % 2 ^ 32 }

def wasRetiredToken : Bool := decide (token.sequence ≠ 0) && decide (token ∈ t.retiredTokens.take t.retiredTokenCount)

def heldBy (slot : Nat) : Bool :=
  (t.record slot).occupied && decide ((t.record slot).request.instrumentId = instrumentId)

def eraseSlots (H : OrderHashes) (instrumentId : InstrumentId) : List Nat → OrderTable → Error × OrderTable
  | [], t => (.ok, t)
  | slot :: slots, t =>
    if t.heldBy instrumentId slot then
      let r := t.record slot
      match (t.rememberRetiredToken r.request.token).erase H { slot := slot, generation := r.generation } with
      | (.ok, t) => eraseSlots H instrumentId slots t
      | (erased, t) => (erased, t)
    else eraseSlots H instrumentId slots t

def eraseTerminalByInstrument : Error × OrderTable :=
  if instrumentId = 0 then (.invalidArgument, t)
  else if (range t.records.length).any fun slot => t.heldBy instrumentId slot &&
      (!isTerminal (t.record slot).status || decide ((t.record slot).inflight ≠ .none)) then
    (.inconsistentState, t)
  else eraseSlots H instrumentId (range t.records.length) t

end OrderTable

end SelfQuant.Oms
