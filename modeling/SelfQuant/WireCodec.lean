import SelfQuant.WireRecords
import SelfQuant.MdsAggRecord

namespace SelfQuant.Wire

open Mds SnapshotControl FairPrice

variable {β : Type}

inductive MessageType
  | bbo | ticker | bookDelta | snapshotBegin | snapshotChunk | snapshotEnd | instrumentUpdate | aggBbo
  | aggOrderBook | instrumentCatalog | fairPrice | fairPriceV2
deriving DecidableEq

namespace MessageType

def all : List MessageType :=
  [bbo, ticker, bookDelta, snapshotBegin, snapshotChunk, snapshotEnd, instrumentUpdate, aggBbo, aggOrderBook,
    instrumentCatalog, fairPrice, fairPriceV2]

def code : MessageType → UInt16
  | bbo => 1
  | ticker => 2
  | bookDelta => 3
  | snapshotBegin => 4
  | snapshotChunk => 5
  | snapshotEnd => 6
  | instrumentUpdate => 7
  | aggBbo => 8
  | aggOrderBook => 9
  | instrumentCatalog => 10
  | fairPrice => 11
  | fairPriceV2 => 12

def ofCode? (code : UInt16) : Option MessageType := all.find? fun type => type.code = code

def size : MessageType → Nat
  | bbo => recordSize Bbo.layout
  | ticker => recordSize Ticker.layout
  | bookDelta => recordSize Delta.layout
  | snapshotBegin => recordSize layout
  | snapshotChunk => recordSize SnapshotChunk.layout
  | snapshotEnd => recordSize layout
  | instrumentUpdate => recordSize Instrument.layout
  | aggBbo => recordSize AggBbo.layout
  | aggOrderBook => recordSize AggOrderBook.layout
  | instrumentCatalog => recordSize InstrumentCatalog.layout
  | fairPrice => recordSize (layout 32)
  | fairPriceV2 => recordSize (layout 64)

end MessageType

example : MessageType.all.map MessageType.size = [104, 176, 96, 80, 464, 80, 296, 416, 14208, 472, 408, 440] := rfl

inductive CodecError
  | ok | bufferTooSmall | badMagic | unsupportedSchema | unknownMessageType | lengthMismatch | invalidField
deriving DecidableEq

def validState (state : UInt8) : Bool := state ≤ 4

def expectedSize (type : UInt16) : Nat :=
  match MessageType.ofCode? type with
  | some type => type.size
  | none => 0

def kBboOriginMask : UInt16 := 0x300

def kAggSkewEnforced : UInt16 := 1

def kAggMemberDataError : UInt16 := 2

variable (type : MessageType)

def validFlags (flags : UInt16) : Bool :=
  if type = .bbo ∨ type = .ticker then
    decide (flags &&& ~~~kBboOriginMask = 0 ∧ flags &&& kBboOriginMask ≠ kBboOriginMask)
  else if type = .aggBbo then decide (flags &&& ~~~(kAggSkewEnforced ||| kAggMemberDataError) = 0)
  else decide (flags = 0)

/-- The state and the side are bytes: a value of those types may lie outside its enumeration. -/
structure HeaderFields where
  (instrumentId busSeq sourceSeq exchangeTsNs receiveTsc publishTsc : UInt64 := 0)
  bookGeneration : UInt32 := 0
  (state sourceId : UInt8 := 0)
  flags : UInt16 := 0
deriving DecidableEq

def makeHeader (length : Nat) (fields : HeaderFields) : RecordHeader where
  magic := kMagic
  schemaMajor := kSchemaMajor
  schemaMinor := kSchemaMinor
  messageType := type.code
  recordLength := UInt16.ofNat length
  instrumentId := fields.instrumentId
  busSeq := fields.busSeq
  sourceSeq := fields.sourceSeq
  exchangeTsNs := fields.exchangeTsNs
  receiveTsc := fields.receiveTsc
  publishTsc := fields.publishTsc
  bookGeneration := fields.bookGeneration
  state := fields.state
  sourceId := fields.sourceId
  flags := fields.flags

def validateEncodeFields (fields : HeaderFields) : Bool := validState fields.state && validFlags type fields.flags

def writeRecord (body : Layout β) (capacity : Nat) (record : Record β) : Except CodecError (List UInt8) :=
  if capacity < recordSize body then .error .bufferTooSmall else .ok ((Record.layout body).write record)

variable (bytes : List UInt8)

def loadHeader : RecordHeader := RecordHeader.layout.read (bytes.take RecordHeader.layout.size)

def unsupportedSchema (header : RecordHeader) : Bool :=
  header.schemaMajor ≠ kSchemaMajor ∨ header.schemaMinor < kSchemaMinor

def decodeRecord (body : Layout β) (expectedType : MessageType) (bytes : List UInt8) : Except CodecError (Record β) :=
  if bytes.length < RecordHeader.layout.size then .error .bufferTooSmall
  else if bytes.length ≠ recordSize body then .error .lengthMismatch
  else
    let record := (Record.layout body).read bytes
    if record.header.magic ≠ kMagic then .error .badMagic
    else if unsupportedSchema record.header then .error .unsupportedSchema
    else if record.header.messageType ≠ expectedType.code then
      .error (if expectedSize record.header.messageType = 0 then .unknownMessageType else .lengthMismatch)
    else if record.header.recordLength.toNat ≠ recordSize body then .error .lengthMismatch
    else if ¬(validState record.header.state && validFlags expectedType record.header.flags) then .error .invalidField
    else .ok record

def validateHeader : CodecError × Option RecordHeader :=
  if bytes.length < RecordHeader.layout.size then (.bufferTooSmall, none)
  else
    let decoded := loadHeader bytes
    if decoded.magic ≠ kMagic then (.badMagic, none)
    else if unsupportedSchema decoded then (.unsupportedSchema, none)
    else
      match MessageType.ofCode? decoded.messageType with
      | none =>
        if decoded.recordLength.toNat < RecordHeader.layout.size ∨ decoded.recordLength.toNat % 8 ≠ 0 ∨
            bytes.length ≠ decoded.recordLength.toNat then (.lengthMismatch, none)
        else (.unknownMessageType, some decoded)
      | some type =>
        if decoded.recordLength.toNat ≠ type.size ∨ bytes.length ≠ type.size then (.lengthMismatch, none)
        else if ¬(validState decoded.state && validFlags type decoded.flags) then (.invalidField, none)
        else (.ok, some decoded)

section Aggregated

def AggBboSide.view (side : AggBboSide) : Agg.AggBboSide where
  price := side.price.toInt
  quantity := side.quantity.toInt
  venueQuantity slot := (side.venueQuantity slot).toInt
  exchangeTsNs := side.exchangeTsNs.toNat
  venueMask := side.venueMask.toBitVec
  worstIngressAgeUs := side.worstIngressAgeUs.toNat
  bestVenue := side.bestVenue.toNat
  timestampVenue := side.timestampVenue.toNat
  contributorCount := side.contributorCount.toNat
  reserved byte := (side.reserved byte).toNat

def AggBboRawSide.view (side : AggBboRawSide) : Agg.AggBboRawSide where
  price := side.price.toInt
  quantity := side.quantity.toInt
  venueMask := side.venueMask.toBitVec
  bestVenue := side.bestVenue.toNat
  reserved byte := (side.reserved byte).toNat

def AggBbo.view (value : AggBbo) : Agg.AggBboRecord where
  gatedBid := value.gatedBid.view
  gatedAsk := value.gatedAsk.view
  rawBid := value.rawBid.view
  rawAsk := value.rawAsk.view
  baseAsset := value.baseAsset
  quoteAsset := value.quoteAsset
  venueSlotIds slot := (value.venueSlotIds slot).toNat
  priceScale := value.priceScale
  quantityScale := value.quantityScale
  memberCount := value.memberCount.toNat
  identityReserved byte := (value.identityReserved byte).toNat
  memberMask := value.memberMask.toBitVec
  liveMask := value.liveMask.toBitVec
  rawCrossBps := value.rawCrossBps.toInt
  gatedCrossBps := value.gatedCrossBps.toInt
  skewUs := value.skewUs.toNat
  crossSkewThresholdUs := value.crossSkewThresholdUs.toNat
  fxAgeUs := value.fxAgeUs.toNat
  crossBidVenue := value.crossBidVenue.toNat
  crossAskVenue := value.crossAskVenue.toNat
  fxVenue := value.fxVenue.toNat
  summaryReserved byte := (value.summaryReserved byte).toNat

def validAggBbo (value : AggBbo) : Bool := Agg.validAggBbo value.view

def AggLevel.view (level : AggLevel) : Agg.AggLevel where
  price := level.price.toInt
  quantity := level.quantity.toInt
  venueQuantity slot := (level.venueQuantity slot).toInt
  venueMask := level.venueMask.toBitVec
  contributorCount := level.contributorCount.toNat
  reserved byte := (level.reserved byte).toNat

def AggOrderBook.view (value : AggOrderBook) : Agg.AggOrderBookRecord where
  baseAsset := value.baseAsset
  quoteAsset := value.quoteAsset
  venueSlotIds slot := (value.venueSlotIds slot).toNat
  priceScale := value.priceScale
  quantityScale := value.quantityScale
  memberCount := value.memberCount.toNat
  metadataReserved := value.metadataReserved.toNat
  memberMask := value.memberMask.toBitVec
  activeMask := value.activeMask.toBitVec
  bids := ((List.ofFn value.bids).take value.bidCount.toNat).map AggLevel.view
  asks := ((List.ofFn value.asks).take value.askCount.toNat).map AggLevel.view

/-- Places behind the two counts are not looked at. -/
def validAggOrderbook (value : AggOrderBook) : Bool :=
  value.bidCount.toNat ≤ kAggMaxLevelsPerSide && value.askCount.toNat ≤ kAggMaxLevelsPerSide &&
    Agg.validAggOrderbook value.view

end Aggregated

section Decoders

/-- `decode_record` and then the checks of the record's own type. -/
def decodeChecked (body : Layout β) (type : MessageType) (valid : Record β → Bool) (bytes : List UInt8) :
    Except CodecError (Record β) :=
  match decodeRecord body type bytes with
  | .error error => .error error
  | .ok record => if valid record then .ok record else .error .invalidField

def kInstrumentRefineBookTick : UInt8 := 1

def isSide (side : UInt8) : Bool := side = 1 ∨ side = 2

def decodeInstrument : List UInt8 → Except CodecError InstrumentUpdateRecord :=
  decodeChecked Instrument.layout .instrumentUpdate fun record =>
    record.body.instrumentId = record.header.instrumentId ∧
      record.body.flags &&& ~~~kInstrumentRefineBookTick = 0 ∧ record.body.reserved0 = 0

def decodeInstrumentCatalog : List UInt8 → Except CodecError InstrumentCatalogRecord :=
  decodeChecked InstrumentCatalog.layout .instrumentCatalog fun record =>
    record.body.instrumentId = record.header.instrumentId ∧ record.body.instrumentId ≠ 0

def decodeBbo : List UInt8 → Except CodecError BboRecord :=
  decodeChecked Bbo.layout .bbo fun record => 0 ≤ record.body.bidQuantity ∧ 0 ≤ record.body.askQuantity

def decodeTicker : List UInt8 → Except CodecError TickerRecord :=
  decodeChecked Ticker.layout .ticker fun record =>
    0 ≤ record.body.bidQuantity ∧ 0 ≤ record.body.askQuantity ∧ 0 ≤ record.body.lastQuantity

def decodeDelta : List UInt8 → Except CodecError DeltaRecord :=
  decodeChecked Delta.layout .bookDelta fun record =>
    isSide record.body.side ∧ 0 ≤ record.body.quantity ∧ ∀ byte, record.body.reserved byte = 0

def expectedChunks (levels : UInt32) : Nat := (levels.toNat + kSnapshotLevelsPerChunk - 1) / kSnapshotLevelsPerChunk

def decodeSnapshotBegin : List UInt8 → Except CodecError SnapshotBeginRecord :=
  decodeChecked layout .snapshotBegin fun record =>
    expectedChunks record.body.itemCount ≤ record.body.chunkCountOrChecksum.toNat ∧
      if record.body.itemCount = 0 then record.body.chunkCountOrChecksum = 0
      else record.body.chunkCountOrChecksum ≤ record.body.itemCount

/-- Levels behind the count are zero; the quantities of the others are not looked at. -/
def decodeSnapshotChunk : List UInt8 → Except CodecError SnapshotChunkRecord :=
  decodeChecked SnapshotChunk.layout .snapshotChunk fun record =>
    record.body.levelCount ≠ 0 ∧ record.body.levelCount.toNat ≤ kSnapshotLevelsPerChunk ∧
      isSide record.body.side ∧ record.body.reserved = 0 ∧
      ∀ index, record.body.levelCount.toNat ≤ index.val → record.body.levels index = {}

def decodeSnapshotEnd : List UInt8 → Except CodecError SnapshotEndRecord := decodeRecord layout .snapshotEnd

def decodeAggBbo : List UInt8 → Except CodecError AggBboRecord :=
  decodeChecked AggBbo.layout .aggBbo fun record => validAggBbo record.body

def decodeAggOrderBook : List UInt8 → Except CodecError AggOrderBookRecord :=
  decodeChecked AggOrderBook.layout .aggOrderBook fun record => validAggOrderbook record.body

def decodeFairPrice : List UInt8 → Except CodecError FairPriceRecordV1 := decodeRecord (layout 32) .fairPrice

def decodeFairPriceV2 : List UInt8 → Except CodecError FairPriceRecordV2 := decodeRecord (layout 64) .fairPriceV2

end Decoders

section Encoders

/-- The header's checks and those of the type, and then a record with a new header. -/
def encodeChecked (body : Layout β) (type : MessageType) (valid : Bool) (capacity : Nat) (header : HeaderFields)
    (value : β) : Except CodecError (List UInt8) :=
  if ¬(validateEncodeFields type header && valid) then .error .invalidField
  else writeRecord body capacity ⟨makeHeader type (recordSize body) header, value⟩

variable (capacity : Nat) (header : HeaderFields)

def encodeInstrument (instrument : Instrument) : Except CodecError (List UInt8) :=
  encodeChecked Instrument.layout .instrumentUpdate
    (header.instrumentId = instrument.instrumentId ∧ instrument.flags &&& ~~~kInstrumentRefineBookTick = 0 ∧
      instrument.reserved0 = 0) capacity header instrument

def encodeInstrumentCatalog (catalog : InstrumentCatalog) : Except CodecError (List UInt8) :=
  encodeChecked InstrumentCatalog.layout .instrumentCatalog
    (header.instrumentId ≠ 0 ∧ header.instrumentId = catalog.instrumentId) capacity header catalog

def encodeBbo (bid ask : Level) : Except CodecError (List UInt8) :=
  encodeChecked Bbo.layout .bbo (0 ≤ bid.quantity ∧ 0 ≤ ask.quantity) capacity header
    { bidPrice := bid.price, bidQuantity := bid.quantity, askPrice := ask.price, askQuantity := ask.quantity }

/-- The header of the event is not used. -/
structure TickerEvent where
  (bid ask : Level)
  (lastPrice lastQuantity markPrice indexPrice fundingRate openPrice highPrice lowPrice closePrice : Int64)

def encodeTicker (event : TickerEvent) : Except CodecError (List UInt8) :=
  encodeChecked Ticker.layout .ticker
    (0 ≤ event.bid.quantity ∧ 0 ≤ event.ask.quantity ∧ 0 ≤ event.lastQuantity) capacity header
    { bidPrice := event.bid.price
      bidQuantity := event.bid.quantity, askPrice := event.ask.price, askQuantity := event.ask.quantity
      lastPrice := event.lastPrice, lastQuantity := event.lastQuantity, markPrice := event.markPrice
      indexPrice := event.indexPrice, fundingRate := event.fundingRate, openPrice := event.openPrice
      highPrice := event.highPrice, lowPrice := event.lowPrice, closePrice := event.closePrice }

def encodeDelta (side : UInt8) (level : Level) : Except CodecError (List UInt8) :=
  encodeChecked Delta.layout .bookDelta (isSide side ∧ 0 ≤ level.quantity) capacity header
    { side := side, reserved := fun _ => 0, price := level.price, quantity := level.quantity }

def encodeSnapshotBegin (levelCount chunkCount : UInt32) : Except CodecError (List UInt8) :=
  encodeChecked layout .snapshotBegin
    (expectedChunks levelCount ≤ chunkCount.toNat ∧
      if levelCount = 0 then chunkCount = 0 else chunkCount ≤ levelCount) capacity header
    { itemCount := levelCount, chunkCountOrChecksum := chunkCount }

def encodeSnapshotChunk (chunkIndex : UInt32) (side : UInt8) (levels : List Level) : Except CodecError (List UInt8) :=
  encodeChecked SnapshotChunk.layout .snapshotChunk
    (levels ≠ [] ∧ levels.length ≤ kSnapshotLevelsPerChunk ∧ isSide side ∧ ∀ level ∈ levels, 0 ≤ level.quantity)
    capacity header
    { chunkIndex := chunkIndex
      levelCount := UInt16.ofNat levels.length, side := side, reserved := 0
      levels := fun index => levels.getD index {} }

def encodeSnapshotEnd (receivedLevels checksum : UInt32) : Except CodecError (List UInt8) :=
  encodeChecked layout .snapshotEnd true capacity header
    { itemCount := receivedLevels, chunkCountOrChecksum := checksum }

def encodeAggBbo (value : AggBboRecord) : Except CodecError (List UInt8) :=
  encodeChecked AggBbo.layout .aggBbo (validAggBbo value.body) capacity header value.body

def encodeAggOrderBook (value : AggOrderBookRecord) : Except CodecError (List UInt8) :=
  encodeChecked AggOrderBook.layout .aggOrderBook (validAggOrderbook value.body) capacity header value.body

def encodeFairPrice (value : FairPriceRecordV1) : Except CodecError (List UInt8) :=
  encodeChecked (layout 32) .fairPrice true capacity header value.body

def encodeFairPriceV2 (value : FairPriceRecordV2) : Except CodecError (List UInt8) :=
  encodeChecked (layout 64) .fairPriceV2 true capacity header value.body

end Encoders

inductive AnyRecord
  | instrument (record : InstrumentUpdateRecord)
  | instrumentCatalog (record : InstrumentCatalogRecord)
  | bbo (record : BboRecord)
  | ticker (record : TickerRecord)
  | delta (record : DeltaRecord)
  | snapshotBegin (record : SnapshotBeginRecord)
  | snapshotChunk (record : SnapshotChunkRecord)
  | snapshotEnd (record : SnapshotEndRecord)
  | aggBbo (record : AggBboRecord)
  | aggOrderBook (record : AggOrderBookRecord)
  | fairPrice (record : FairPriceRecordV1)
  | fairPriceV2 (record : FairPriceRecordV2)

def decodeAs : MessageType → List UInt8 → Except CodecError AnyRecord
  | .instrumentUpdate, bytes => (decodeInstrument bytes).map .instrument
  | .instrumentCatalog, bytes => (decodeInstrumentCatalog bytes).map .instrumentCatalog
  | .bbo, bytes => (decodeBbo bytes).map .bbo
  | .ticker, bytes => (decodeTicker bytes).map .ticker
  | .bookDelta, bytes => (decodeDelta bytes).map .delta
  | .snapshotBegin, bytes => (decodeSnapshotBegin bytes).map .snapshotBegin
  | .snapshotChunk, bytes => (decodeSnapshotChunk bytes).map .snapshotChunk
  | .snapshotEnd, bytes => (decodeSnapshotEnd bytes).map .snapshotEnd
  | .aggBbo, bytes => (decodeAggBbo bytes).map .aggBbo
  | .aggOrderBook, bytes => (decodeAggOrderBook bytes).map .aggOrderBook
  | .fairPrice, bytes => (decodeFairPrice bytes).map .fairPrice
  | .fairPriceV2, bytes => (decodeFairPriceV2 bytes).map .fairPriceV2

/-- A visitor has no callback for the aggregated records. -/
def hasCallback : Bool := type ≠ .aggBbo ∧ type ≠ .aggOrderBook

/-- The dispatcher, with what it has shown to the visitor. -/
def decode (visitor : AnyRecord → Bool) : CodecError × Option AnyRecord :=
  match validateHeader bytes with
  | (.ok, some header) =>
    match MessageType.ofCode? header.messageType with
    | none => (.unknownMessageType, none)
    | some type =>
      if hasCallback type then
        match decodeAs type bytes with
        | .error error => (error, none)
        | .ok record => (if visitor record then .ok else .invalidField, some record)
      else (.unknownMessageType, none)
  | (error, _) => (error, none)

end SelfQuant.Wire
