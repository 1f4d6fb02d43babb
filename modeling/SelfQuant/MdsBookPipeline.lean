import SelfQuant.MdsBookBridge

namespace SelfQuant.Mds

inductive Venue
  | unknown | binance | okx | bybit | gate | bitget | polymarket | sse | hyperliquid | aster | lighter
  | ibkr
deriving DecidableEq

inductive ProductType
  | unknown | spot | perpetual | future | binaryOption | equity
deriving DecidableEq

inductive BboOrigin
  | unknown | tickerStream | orderBookStream
deriving DecidableEq

/-- The text of a fixed array of characters, with what stands behind its end. -/
abbrev FixedText := List Char

def fixedView (text : FixedText) : List Char := text.takeWhile (· ≠ Char.ofNat 0)

def kInstrumentRefineBookTick : Nat := 1

structure Instrument where
  instrumentId : Nat := 0
  venue : Venue := .unknown
  productType : ProductType := .unknown
  (priceScale quantityScale contractMultiplierScale flags : Nat := 0)
  (tickSize lotSize contractMultiplier : Int := 0)
  (baseAsset quoteAsset settleAsset canonicalSymbol venueSymbol : FixedText := [])
deriving DecidableEq

structure InstrumentCatalog where
  instrumentId : Nat := 0
  venue : Venue := .unknown
  productType : ProductType := .unknown
  canonicalSymbol : FixedText := []
deriving DecidableEq

structure EventHeader where
  (instrumentId bookGeneration sourceSeq exchangeTsNs : Nat := 0)
  state : BookState := .empty
  bboOrigin : BboOrigin := .unknown
deriving DecidableEq

structure RecordHeader where
  (instrumentId busSeq sourceSeq exchangeTsNs bookGeneration : Nat := 0)
  state : BookState := .empty
  flags : Nat := 0
deriving DecidableEq

inductive DerivedType
  | aggBbo | aggOrderBook | fairPrice | fairPriceV2
deriving DecidableEq

def kSnapshotLevelsPerChunk : Nat := 24

inductive Body
  | bbo (bid ask : Level)
  | ticker (bid ask : Level) (lastQuantity : Int)
  | bookDelta (side : Side) (level : Level)
  | snapshotBegin (itemCount chunkCount : Nat)
  | snapshotChunk (chunkIndex : Nat) (side : Side) (levels : List Level)
  | snapshotEnd (itemCount checksum : Nat)
  | instrumentUpdate (instrument : Instrument)
  | instrumentCatalog (catalog : InstrumentCatalog)
  | derived (type : DerivedType)
  | unknown (type : Nat)
deriving DecidableEq

def Body.type : Body → Nat
  | .bbo .. => 1
  | .ticker .. => 2
  | .bookDelta .. => 3
  | .snapshotBegin .. => 4
  | .snapshotChunk .. => 5
  | .snapshotEnd .. => 6
  | .instrumentUpdate _ => 7
  | .derived .aggBbo => 8
  | .derived .aggOrderBook => 9
  | .instrumentCatalog _ => 10
  | .derived .fairPrice => 11
  | .derived .fairPriceV2 => 12
  | .unknown type => type

structure WireRecord where
  header : RecordHeader
  body : Body
deriving DecidableEq

inductive CodecError
  | ok | unknownMessageType | invalidField
deriving DecidableEq

def kBboOriginTickerStream : Nat := 256

def kBboOriginOrderBookStream : Nat := 512

def validFlags (body : Body) (flags : Nat) : Bool :=
  match body with
  | .bbo .. => flags = 0 ∨ flags = kBboOriginTickerStream ∨ flags = kBboOriginOrderBookStream
  | .ticker .. => flags = 0 ∨ flags = kBboOriginTickerStream ∨ flags = kBboOriginOrderBookStream
  | .derived .aggBbo => flags < 4
  | _ => flags = 0

def validateHeader (record : WireRecord) : CodecError :=
  match record.body with
  | .unknown _ => .unknownMessageType
  | _ => if !validFlags record.body record.header.flags then .invalidField else .ok

/-- The checks on what a record carries, the same when it is written and when it is read. -/
def validBody (instrumentId : Nat) : Body → Bool
  | .bbo bid ask => bid.quantity ≥ 0 ∧ ask.quantity ≥ 0
  | .ticker bid ask lastQuantity => bid.quantity ≥ 0 ∧ ask.quantity ≥ 0 ∧ lastQuantity ≥ 0
  | .bookDelta _ level => level.quantity ≥ 0
  | .snapshotBegin itemCount chunkCount =>
    (itemCount + kSnapshotLevelsPerChunk - 1) / kSnapshotLevelsPerChunk ≤ chunkCount ∧
      (if itemCount = 0 then chunkCount = 0 else chunkCount ≤ itemCount)
  | .snapshotChunk _ _ levels => levels ≠ [] ∧ levels.length ≤ kSnapshotLevelsPerChunk
  | .snapshotEnd .. => true
  | .instrumentUpdate instrument =>
    instrument.instrumentId = instrumentId ∧ instrument.flags ≤ kInstrumentRefineBookTick
  | .instrumentCatalog catalog => catalog.instrumentId = instrumentId ∧ catalog.instrumentId ≠ 0
  | .derived _ => true
  | .unknown _ => false

/-- The check that is made of the levels of a chunk only when it is written. -/
def validLevels : Body → Bool
  | .snapshotChunk _ _ levels => levels.all (·.quantity ≥ 0)
  | _ => true

def encode (header : RecordHeader) (body : Body) : Option WireRecord :=
  if validFlags body header.flags ∧ validBody header.instrumentId body ∧ validLevels body then some ⟨header, body⟩
  else none

structure Published where
  (ringSequence outerType : Nat)
  record : WireRecord
deriving DecidableEq

/-- The writer of a ring that takes every record. `ringSequence` is the number of the last one, and
`published` are those of this writer, the first one first. -/
structure WirePublisher where
  currentBusSeq : Nat := 0
  busSeqExhausted : Bool := false
  ringSequence : Nat := 0
  published : List Published := []

namespace WirePublisher

def headerFields (header : EventHeader) (busSeq flags : Nat) : RecordHeader :=
  { instrumentId := header.instrumentId, busSeq := busSeq, sourceSeq := header.sourceSeq
    exchangeTsNs := header.exchangeTsNs, bookGeneration := header.bookGeneration
    state := header.state, flags := flags }

variable (p : WirePublisher)

def publish (header : EventHeader) (flags : Nat) (body : Body) : Bool × WirePublisher :=
  if p.busSeqExhausted then (false, p)
  else if p.currentBusSeq = 2 ^ 64 - 1 then (false, { p with busSeqExhausted := true })
  else
    let p := { p with currentBusSeq := p.currentBusSeq + 1 }
    match encode (headerFields header p.currentBusSeq flags) body with
    | none => (false, p)
    | some record =>
      (true, { p with
        ringSequence := p.ringSequence + 1
        published := p.published ++ [⟨p.ringSequence + 1, body.type, record⟩] })

def originFlags : BboOrigin → Nat
  | .unknown => 0
  | .tickerStream => kBboOriginTickerStream
  | .orderBookStream => kBboOriginOrderBookStream

def publishInstrument (header : EventHeader) (instrument : Instrument) :
    Bool × WirePublisher := p.publish header 0 (.instrumentUpdate instrument)

def publishBbo (header : EventHeader) (bid ask : Level) : Bool × WirePublisher :=
  p.publish header (originFlags header.bboOrigin) (.bbo bid ask)

def publishDelta (header : EventHeader) (side : Side) (level : Level) :
    Bool × WirePublisher := p.publish header 0 (.bookDelta side level)

def publishSide (header : EventHeader) (side : Side) : Nat → Nat → List Level → WirePublisher → Bool × WirePublisher
  | _, _, [], p => (true, p)
  | 0, _, _, p => (true, p)
  | turns + 1, chunkIndex, levels, p =>
    match p.publish header 0 (.snapshotChunk chunkIndex side (levels.take kSnapshotLevelsPerChunk)) with
    | (false, p) => (false, p)
    | (true, p) => publishSide header side turns (chunkIndex + 1)
        (levels.drop kSnapshotLevelsPerChunk) p

def chunkCount (size : Nat) : Nat :=
  size / kSnapshotLevelsPerChunk + (if size % kSnapshotLevelsPerChunk ≠ 0 then 1 else 0)

def publishSnapshot (header : EventHeader) (bids asks : List Level) : Bool × WirePublisher :=
  let total := bids.length + asks.length
  if total > 2 ^ 32 - 1 then (false, p)
  else
    match p.publish header 0 (.snapshotBegin total (chunkCount bids.length + chunkCount asks.length)) with
    | (false, p) => (false, p)
    | (true, p) =>
      match publishSide header .bid bids.length 0 bids p with
      | (false, p) => (false, p)
      | (true, p) =>
        match publishSide header .ask asks.length 0 asks p with
        | (false, p) => (false, p)
        | (true, p) => p.publish header 0 (.snapshotEnd total 0)

end WirePublisher

inductive PipelineResult
  | applied | resync | invalidImage | publishFailed
deriving DecidableEq

def OrderBook.bbo (b : OrderBook) : Option (Level × Level) :=
  if b.state ≠ .live then none
  else match b.bids.best, b.asks.best with
    | some bid, some ask => some (bid, ask)
    | _, _ => none

structure BookPipeline where
  instrumentId : Nat
  bridge : BookBridge
  publisher : Option WirePublisher
  allowEmptySides : Bool

namespace BookPipeline

def create (instrumentId ladderTicksPerSide : Nat) (tickSize : Int) (publisher : Option WirePublisher)
    (refineSnapshotTick allowEmptySides : Bool) : BookPipeline :=
  { instrumentId := instrumentId
    bridge := BookBridge.create (OrderBook.create ladderTicksPerSide) tickSize refineSnapshotTick allowEmptySides
    publisher := publisher, allowEmptySides := allowEmptySides }

variable (p : BookPipeline)

def publishCanonical (header : EventHeader) : Bool × BookPipeline :=
  match p.bridge.book.bbo with
  | none => (p.allowEmptySides, p)
  | some (bid, ask) =>
    match p.publisher with
    | none => (true, p)
    | some w =>
      let header := { header with instrumentId := p.instrumentId, state := .live, bboOrigin := .orderBookStream }
      let (ok, w) := w.publishBbo header bid ask
      (ok, { p with publisher := some w })

def loadImage (header : EventHeader) (imageSequence : Nat) (bids asks : List Level)
    (publishImage : Bool) : PipelineResult × BookPipeline :=
  let (loaded, bridge) := p.bridge.loadSnapshot ⟨imageSequence, bids, asks⟩ header.bookGeneration
  if loaded.action ≠ .applied then (.invalidImage, { p with bridge := bridge })
  else
    let p := { p with bridge := bridge.setLive }
    match p.publisher, publishImage with
    | some w, true =>
      let header := { header with instrumentId := p.instrumentId, sourceSeq := imageSequence, state := .live }
      match w.publishSnapshot header bids asks with
      | (false, w) => (.publishFailed, { p with publisher := some w })
      | (true, w) =>
        match publishCanonical { p with publisher := some w } header with
        | (false, p) => (.publishFailed, p)
        | (true, p) => (.applied, p)
    | _, _ => (.applied, p)

def publishLevels (p : BookPipeline) (header : EventHeader) (side : Side) :
    List Level → WirePublisher → Bool × WirePublisher
  | [], w => (true, w)
  | level :: levels, w =>
    if p.bridge.inWindow side level.price then
      let header' := { header with instrumentId := p.instrumentId, state := .live }
      match w.publishDelta header' side level with
      | (false, w) => (false, w)
      | (true, w) => publishLevels p header side levels w
    else publishLevels p header side levels w

def applyDelta (header : EventHeader) (update : DepthUpdate) (publishDelta : Bool) : PipelineResult × BookPipeline :=
  let (action, bridge) := p.bridge.apply update
  let p := { p with bridge := bridge }
  match action with
  | .resync => (.resync, p)
  | .invalidSnapshot => (.invalidImage, p)
  | .applied =>
    match p.publisher, publishDelta with
    | some w, true =>
      match p.publishLevels header .bid update.bids w with
      | (false, w) => (.publishFailed, { p with publisher := some w })
      | (true, w) =>
        match p.publishLevels header .ask update.asks w with
        | (false, w) => (.publishFailed, { p with publisher := some w })
        | (true, w) =>
          match publishCanonical { p with publisher := some w } header with
          | (false, p) => (.publishFailed, p)
          | (true, p) => (.applied, p)
    | _, _ => (.applied, p)

end BookPipeline

end SelfQuant.Mds
