import SelfQuant.OmsStateEngine

namespace SelfQuant.Oms

inductive AdapterKind
  | binanceSpot | binanceUsdm | polymarket | fake | hyperliquid | ibkr
deriving DecidableEq

inductive AdapterStatus
  | stopped | connecting | authenticating | ready | backpressured | reconnecting | reconciling
  | failed
deriving DecidableEq

inductive AdapterResult
  | ok | wouldBlock | notReady | unsupported | invalidArgument | staleReservation | failed
deriving DecidableEq

def adapterError : AdapterResult → Error
  | .ok => .ok
  | .wouldBlock => .queueFull
  | .notReady => .notReady
  | .invalidArgument => .invalidArgument
  | .unsupported => .unsupported
  | .staleReservation => .staleHandle
  | .failed => .notReady

theorem adapterError_eq_ok {result : AdapterResult} : adapterError result = .ok ↔ result = .ok := by
  cases result <;> simp [adapterError]

inductive AdapterCommandKind
  | place | cancel
deriving DecidableEq

structure AdapterCapabilities where
  bits : UInt64 := 0
deriving DecidableEq

/-- The bit of a capability in the capability word. -/
inductive AdapterCapability
  | limit | market | tifGtc | tifGtd | tifIoc | tifFok | tifFak | postOnly | reduceOnly
  | closePosition | quoteQuantity

def AdapterCapability.bit : AdapterCapability → UInt64
  | .limit => 1
  | .market => 2
  | .tifGtc => 4
  | .tifGtd => 8
  | .tifIoc => 16
  | .tifFok => 32
  | .tifFak => 64
  | .postOnly => 128
  | .reduceOnly => 256
  | .closePosition => 512
  | .quoteQuantity => 1024

def AdapterCapabilities.supports (capabilities : AdapterCapabilities) (capability : AdapterCapability) : Bool :=
  decide (capabilities.bits &&& capability.bit ≠ 0)

def tifCapability : TimeInForce → Option AdapterCapability
  | .gtc => some .tifGtc
  | .gtd => some .tifGtd
  | .ioc => some .tifIoc
  | .fok => some .tifFok
  | .fak => some .tifFak
  | .other _ => none

def flagCapabilities : List (UInt16 × AdapterCapability) :=
  [(postOnly, .postOnly), (reduceOnly, .reduceOnly), (closePosition, .closePosition), (quoteQuantity, .quoteQuantity)]

def preflightPlace (capabilities : AdapterCapabilities) (request : NewOrderRequest) : AdapterResult :=
  if (request.type ≠ .limit ∧ request.type ≠ .market) ∨ request.flags &&& ~~~knownFlags ≠ 0 then .invalidArgument
  else if (request.type = .limit ∧ !capabilities.supports .limit) ∨
      (request.type = .market ∧ !capabilities.supports .market) then .unsupported
  else
    match tifCapability request.timeInForce with
    | none => .invalidArgument
    | some tif =>
      if (request.type = .market ∧ request.timeInForce ≠ .gtc) ∨ !capabilities.supports tif then .unsupported
      else if flagCapabilities.any fun flag =>
          decide (request.flags &&& flag.1 ≠ 0) && !capabilities.supports flag.2 then .unsupported
      else if (request.flags &&& postOnly ≠ 0 ∧ (request.type ≠ .limit ∨ request.timeInForce ≠ .gtc)) ∨
          (request.flags &&& quoteQuantity ≠ 0 ∧ request.type ≠ .market) then .unsupported
      else .ok

structure AdapterIdentity where
  kind : AdapterKind := .fake
  (venue productType : Nat := 0)
deriving DecidableEq

def venueBinance : Nat := 1
def venueHyperliquid : Nat := 8
def venueIbkr : Nat := 11
def productSpot : Nat := 1
def productPerpetual : Nat := 2
def productFuture : Nat := 3
def productBinaryOption : Nat := 4

def validIdentity (identity : AdapterIdentity) : Bool :=
  match identity.kind with
  | .binanceSpot => decide (identity.venue = venueBinance ∧ identity.productType = productSpot)
  | .binanceUsdm => decide (identity.venue = venueBinance ∧
      (identity.productType = productPerpetual ∨ identity.productType = productFuture))
  | .polymarket => decide (identity.venue = venuePolymarket ∧ identity.productType = productBinaryOption)
  | .fake => decide (identity.venue = 0 ∧ identity.productType = 0)
  | .hyperliquid => decide (identity.venue = venueHyperliquid ∧ identity.productType = 0)
  | .ibkr => decide (identity.venue = venueIbkr ∧ identity.productType = 0)

/-- The registered adapters, one of a kind; an adapter pointer is its kind. -/
abbrev AdapterRouter := List AdapterKind

namespace AdapterRouter

def add (router : AdapterRouter) (identity : AdapterIdentity) : Option AdapterRouter :=
  if !validIdentity identity ∨ identity.kind ∈ router then none else some (identity.kind :: router)

def find (router : AdapterRouter) (kind : AdapterKind) : Option AdapterKind :=
  if kind ∈ router then some kind else none

end AdapterRouter

def routeKindOf (venue productType : Nat) : AdapterKind :=
  if venue = venueBinance ∧ productType = productSpot then .binanceSpot
  else if venue = venueBinance ∧ (productType = productPerpetual ∨ productType = productFuture) then .binanceUsdm
  else if venue = venuePolymarket ∧ productType = productBinaryOption then .polymarket
  else if venue = venueHyperliquid ∧ (productType = productSpot ∨ productType = productPerpetual) then .hyperliquid
  else if venue = venueIbkr then .ibkr
  else .fake

def routeKind (routing : ResolvedInstrument) : AdapterKind :=
  if routing.kind = .ibkr then .ibkr
  else if routing.kind = .polymarket then .polymarket
  else routeKindOf routing.venue routing.productType

namespace AdapterRouter

def routeInstrument (router : AdapterRouter) (venue productType : Nat) : Option AdapterKind :=
  if routeKindOf venue productType = .fake ∧ (venue = 0 ∨ productType = 0) then none
  else (router.find (routeKindOf venue productType)).or (router.find .fake)

def route (router : AdapterRouter) (routing : ResolvedInstrument) : Option AdapterKind :=
  match router.find (routeKind routing) with
  | some kind => some kind
  | none => if routeKind routing = .fake then none else router.find .fake

end AdapterRouter

inductive QueryKind
  | openOrders | positions | balances
deriving DecidableEq

structure OpenOrderSnapshotItem where
  queryToken : RequestToken := {}
  accountId : AccountId := 0
  instrumentId : InstrumentId := 0
  trackedToken : RequestToken := {}
  clientOrderId : ClientOrderId := ⟨[]⟩
  venueOrderId : VenueOrderId := ⟨[]⟩
  side : Side := .buy
  status : OrderStatus := .unknown
  (quantity price matchedQuantity remainingQuantity : FixedPoint := {})
deriving DecidableEq

structure PositionSnapshotItem where
  queryToken : RequestToken := {}
  accountId : AccountId := 0
  instrumentId : InstrumentId := 0
  quantity : FixedPoint := {}
deriving DecidableEq

structure BalanceSnapshot where
  queryToken : RequestToken := {}
  accountId : AccountId := 0
  assetOrCurrency : List UInt8 := []
  (totalQuantity heldQuantity availableQuantity : Int := 0)
  scale : Nat := 0
deriving DecidableEq

structure QueryComplete where
  queryToken : RequestToken := {}
  accountId : AccountId := 0
  kind : QueryKind := .openOrders
  error : Error := .ok
deriving DecidableEq

/-- An event an adapter hands to its sink; the fields are those the sink reads. -/
inductive AdapterEvent
  | venue (event : VenueEvent)
  | commandResult (kind : AdapterCommandKind) (result : AdapterResult) (requestToken : RequestToken)
  | status (source : AdapterKind) (status : AdapterStatus) (reason : AdapterResult)
      (eventTimeNs : Nat)
  | reconcileComplete (source : AdapterKind) (generation : Nat) (result : AdapterResult)
  | openOrderSnapshot (item : OpenOrderSnapshotItem)
  | positionSnapshot (item : PositionSnapshotItem)
  | queryComplete (complete : QueryComplete)
  | balanceSnapshot (item : BalanceSnapshot)
  | other (raw : Nat)
deriving DecidableEq

/-- What the routed adapter answers, and what the wall clock reads, while one command is
processed. A query hands `queryEvents` to the sink before it returns. -/
structure Answers where
  capabilities : AdapterCapabilities := {}
  (reserveCommand commitPlace commitCancel commitCancelVenue : AdapterResult := .ok)
  queryEvents : List AdapterEvent := []
  (query registerInstrument retireInstrument : AdapterResult := .ok)
  wallNowNs : Nat := 0

end SelfQuant.Oms
