import SelfQuant.ByteMemory

namespace SelfQuant.Wire

open Layout

def kMagic : UInt32 := 0x444d5153

def kSchemaMajor : UInt16 := 2

def kSchemaMinor : UInt16 := 0

def kAggVenueSlots : Nat := 8

def kAggMaxLevelsPerSide : Nat := 80

def kSnapshotLevelsPerChunk : Nat := 24

structure RecordHeader where
  magic : UInt32 := 0
  (schemaMajor schemaMinor messageType recordLength : UInt16 := 0)
  reserved : UInt32 := 0
  (instrumentId busSeq sourceSeq exchangeTsNs receiveTsc publishTsc : UInt64 := 0)
  bookGeneration : UInt32 := 0
  (state sourceId : UInt8 := 0)
  flags : UInt16 := 0
deriving DecidableEq

def RecordHeader.layout : Layout RecordHeader :=
  (uint32.pair (uint16.pair (uint16.pair (uint16.pair (uint16.pair (uint32.pair (uint64.pair (uint64.pair
    (uint64.pair (uint64.pair (uint64.pair (uint64.pair (uint32.pair (uint8.pair (uint8.pair uint16))))))))))))))).map
    ⟨fun (magic, schemaMajor, schemaMinor, messageType, recordLength, reserved, instrumentId, busSeq, sourceSeq,
        exchangeTsNs, receiveTsc, publishTsc, bookGeneration, state, sourceId, flags) =>
        ⟨magic, schemaMajor, schemaMinor, messageType, recordLength, reserved, instrumentId, busSeq, sourceSeq,
          exchangeTsNs, receiveTsc, publishTsc, bookGeneration, state, sourceId, flags⟩,
      fun h => (h.magic, h.schemaMajor, h.schemaMinor, h.messageType, h.recordLength, h.reserved, h.instrumentId,
        h.busSeq, h.sourceSeq, h.exchangeTsNs, h.receiveTsc, h.publishTsc, h.bookGeneration, h.state, h.sourceId,
        h.flags),
      fun _ => rfl, fun _ => rfl⟩

example : RecordHeader.layout.size = 72 := rfl

/-- Every record is a header with the fields of its type behind it. -/
structure Record (β : Type) where
  header : RecordHeader
  body : β

def Record.layout {β : Type} (body : Layout β) : Layout (Record β) :=
  (RecordHeader.layout.pair body).map
    ⟨fun (header, body) => ⟨header, body⟩, fun r => (r.header, r.body), fun _ => rfl, fun _ => rfl⟩

structure Level where
  (price quantity : Int64 := 0)
deriving DecidableEq

def Level.layout : Layout Level :=
  (int64.pair int64).map
    ⟨fun (price, quantity) => ⟨price, quantity⟩, fun l => (l.price, l.quantity), fun _ => rfl, fun _ => rfl⟩

structure Bbo where
  (bidPrice bidQuantity askPrice askQuantity : Int64)

def Bbo.layout : Layout Bbo :=
  (int64.pair (int64.pair (int64.pair int64))).map
    ⟨fun (bidPrice, bidQuantity, askPrice, askQuantity) => ⟨bidPrice, bidQuantity, askPrice, askQuantity⟩,
      fun b => (b.bidPrice, b.bidQuantity, b.askPrice, b.askQuantity), fun _ => rfl, fun _ => rfl⟩

structure Ticker where
  (bidPrice bidQuantity askPrice askQuantity lastPrice lastQuantity markPrice indexPrice fundingRate : Int64)
  (openPrice highPrice lowPrice closePrice : Int64)

def Ticker.layout : Layout Ticker :=
  (int64.pair (int64.pair (int64.pair (int64.pair (int64.pair (int64.pair (int64.pair (int64.pair (int64.pair
    (int64.pair (int64.pair (int64.pair int64)))))))))))).map
    ⟨fun (bidPrice, bidQuantity, askPrice, askQuantity, lastPrice, lastQuantity, markPrice, indexPrice, fundingRate,
        openPrice, highPrice, lowPrice, closePrice) =>
        ⟨bidPrice, bidQuantity, askPrice, askQuantity, lastPrice, lastQuantity, markPrice, indexPrice, fundingRate,
          openPrice, highPrice, lowPrice, closePrice⟩,
      fun t => (t.bidPrice, t.bidQuantity, t.askPrice, t.askQuantity, t.lastPrice, t.lastQuantity, t.markPrice,
        t.indexPrice, t.fundingRate, t.openPrice, t.highPrice, t.lowPrice, t.closePrice),
      fun _ => rfl, fun _ => rfl⟩

structure Delta where
  side : UInt8
  reserved : Fin 7 → UInt8
  (price quantity : Int64)

def Delta.layout : Layout Delta :=
  (uint8.pair ((uint8.array 7).pair (int64.pair int64))).map
    ⟨fun (side, reserved, price, quantity) => ⟨side, reserved, price, quantity⟩,
      fun d => (d.side, d.reserved, d.price, d.quantity), fun _ => rfl, fun _ => rfl⟩

structure SnapshotControl where
  (itemCount chunkCountOrChecksum : UInt32)

def SnapshotControl.layout : Layout SnapshotControl :=
  (uint32.pair uint32).map
    ⟨fun (itemCount, chunkCountOrChecksum) => ⟨itemCount, chunkCountOrChecksum⟩,
      fun s => (s.itemCount, s.chunkCountOrChecksum), fun _ => rfl, fun _ => rfl⟩

structure SnapshotChunk where
  chunkIndex : UInt32
  levelCount : UInt16
  (side reserved : UInt8)
  levels : Fin kSnapshotLevelsPerChunk → Level

def SnapshotChunk.layout : Layout SnapshotChunk :=
  (uint32.pair (uint16.pair (uint8.pair (uint8.pair (Level.layout.array kSnapshotLevelsPerChunk))))).map
    ⟨fun (chunkIndex, levelCount, side, reserved, levels) => ⟨chunkIndex, levelCount, side, reserved, levels⟩,
      fun c => (c.chunkIndex, c.levelCount, c.side, c.reserved, c.levels), fun _ => rfl, fun _ => rfl⟩

/-- The last four bytes only fill the structure up. -/
structure Instrument where
  instrumentId : UInt64
  venue : UInt16
  (productType priceScale quantityScale contractMultiplierScale flags reserved0 : UInt8)
  (tickSize lotSize contractMultiplier : Int64)
  expiryYyyymmdd : UInt32
  (baseAsset quoteAsset settleAsset : Fin 16 → UInt8)
  (canonicalSymbol venueSymbol : Fin 32 → UInt8)
  instrumentKey : Fin 64 → UInt8
  padding : Fin 4 → UInt8

def Instrument.layout : Layout Instrument :=
  (uint64.pair (uint16.pair (uint8.pair (uint8.pair (uint8.pair (uint8.pair (uint8.pair (uint8.pair (int64.pair
    (int64.pair (int64.pair (uint32.pair ((uint8.array 16).pair ((uint8.array 16).pair ((uint8.array 16).pair
      ((uint8.array 32).pair ((uint8.array 32).pair ((uint8.array 64).pair (uint8.array 4))))))))))))))))))).map
    ⟨fun (instrumentId, venue, productType, priceScale, quantityScale, contractMultiplierScale, flags, reserved0,
        tickSize, lotSize, contractMultiplier, expiryYyyymmdd, baseAsset, quoteAsset, settleAsset, canonicalSymbol,
        venueSymbol, instrumentKey, padding) =>
        ⟨instrumentId, venue, productType, priceScale, quantityScale, contractMultiplierScale, flags, reserved0,
          tickSize, lotSize, contractMultiplier, expiryYyyymmdd, baseAsset, quoteAsset, settleAsset,
          canonicalSymbol, venueSymbol, instrumentKey, padding⟩,
      fun i => (i.instrumentId, i.venue, i.productType, i.priceScale, i.quantityScale, i.contractMultiplierScale,
        i.flags, i.reserved0, i.tickSize, i.lotSize, i.contractMultiplier, i.expiryYyyymmdd, i.baseAsset,
        i.quoteAsset, i.settleAsset, i.canonicalSymbol, i.venueSymbol, i.instrumentKey, i.padding),
      fun _ => rfl, fun _ => rfl⟩

/-- Two bytes before the tick size fill the structure up. -/
structure InstrumentCatalog where
  instrumentId : UInt64
  venue : UInt16
  (productType priceScale quantityScale contractMultiplierScale flags signatureType negativeRisk : UInt8)
  ibkrSecurityType : UInt8
  reserved : Fin 4 → UInt8
  padding : Fin 2 → UInt8
  (tickSize lotSize contractMultiplier : Int64)
  expiryUnixNs : UInt64
  (baseAsset quoteAsset settleAsset : Fin 16 → UInt8)
  (canonicalSymbol marketSlug : Fin 64 → UInt8)
  venueSymbol : Fin 80 → UInt8
  conditionId : Fin 72 → UInt8
  outcome : Fin 16 → UInt8

def InstrumentCatalog.layout : Layout InstrumentCatalog :=
  (uint64.pair (uint16.pair (uint8.pair (uint8.pair (uint8.pair (uint8.pair (uint8.pair (uint8.pair (uint8.pair
    (uint8.pair ((uint8.array 4).pair ((uint8.array 2).pair (int64.pair (int64.pair (int64.pair (uint64.pair
      ((uint8.array 16).pair ((uint8.array 16).pair ((uint8.array 16).pair ((uint8.array 64).pair
        ((uint8.array 64).pair ((uint8.array 80).pair ((uint8.array 72).pair
          (uint8.array 16)))))))))))))))))))))))).map
    ⟨fun (instrumentId, venue, productType, priceScale, quantityScale, contractMultiplierScale, flags, signatureType,
        negativeRisk, ibkrSecurityType, reserved, padding, tickSize, lotSize, contractMultiplier, expiryUnixNs,
        baseAsset, quoteAsset, settleAsset, canonicalSymbol, marketSlug, venueSymbol, conditionId, outcome) =>
        ⟨instrumentId, venue, productType, priceScale, quantityScale, contractMultiplierScale, flags, signatureType,
          negativeRisk, ibkrSecurityType, reserved, padding, tickSize, lotSize, contractMultiplier, expiryUnixNs,
          baseAsset, quoteAsset, settleAsset, canonicalSymbol, marketSlug, venueSymbol, conditionId, outcome⟩,
      fun c => (c.instrumentId, c.venue, c.productType, c.priceScale, c.quantityScale, c.contractMultiplierScale,
        c.flags, c.signatureType, c.negativeRisk, c.ibkrSecurityType, c.reserved, c.padding, c.tickSize, c.lotSize,
        c.contractMultiplier, c.expiryUnixNs, c.baseAsset, c.quoteAsset, c.settleAsset, c.canonicalSymbol,
        c.marketSlug, c.venueSymbol, c.conditionId, c.outcome),
      fun _ => rfl, fun _ => rfl⟩

structure AggBboSide where
  (price quantity : Int64 := 0)
  venueQuantity : Fin kAggVenueSlots → Int64 := fun _ => 0
  exchangeTsNs : UInt64 := 0
  (venueMask worstIngressAgeUs : UInt32 := 0)
  (bestVenue timestampVenue contributorCount : UInt8 := 0)
  reserved : Fin 5 → UInt8 := fun _ => 0

def AggBboSide.layout : Layout AggBboSide :=
  (int64.pair (int64.pair ((int64.array kAggVenueSlots).pair (uint64.pair (uint32.pair (uint32.pair (uint8.pair
    (uint8.pair (uint8.pair (uint8.array 5)))))))))).map
    ⟨fun (price, quantity, venueQuantity, exchangeTsNs, venueMask, worstIngressAgeUs, bestVenue, timestampVenue,
        contributorCount, reserved) =>
        ⟨price, quantity, venueQuantity, exchangeTsNs, venueMask, worstIngressAgeUs, bestVenue, timestampVenue,
          contributorCount, reserved⟩,
      fun s => (s.price, s.quantity, s.venueQuantity, s.exchangeTsNs, s.venueMask, s.worstIngressAgeUs, s.bestVenue,
        s.timestampVenue, s.contributorCount, s.reserved),
      fun _ => rfl, fun _ => rfl⟩

structure AggBboRawSide where
  (price quantity : Int64 := 0)
  venueMask : UInt32 := 0
  bestVenue : UInt8 := 0
  reserved : Fin 3 → UInt8 := fun _ => 0

def AggBboRawSide.layout : Layout AggBboRawSide :=
  (int64.pair (int64.pair (uint32.pair (uint8.pair (uint8.array 3))))).map
    ⟨fun (price, quantity, venueMask, bestVenue, reserved) => ⟨price, quantity, venueMask, bestVenue, reserved⟩,
      fun s => (s.price, s.quantity, s.venueMask, s.bestVenue, s.reserved), fun _ => rfl, fun _ => rfl⟩

structure AggBbo where
  (gatedBid gatedAsk : AggBboSide := {})
  (rawBid rawAsk : AggBboRawSide := {})
  (baseAsset quoteAsset : Fin 16 → UInt8 := fun _ => 0)
  venueSlotIds : Fin kAggVenueSlots → UInt8 := fun _ => 0
  (priceScale quantityScale memberCount : UInt8 := 0)
  identityReserved : Fin 5 → UInt8 := fun _ => 0
  (memberMask liveMask : UInt32 := 0)
  (rawCrossBps gatedCrossBps : Int32 := 0)
  (skewUs crossSkewThresholdUs fxAgeUs : UInt32 := 0)
  (crossBidVenue crossAskVenue fxVenue : UInt8 := 0)
  summaryReserved : Fin 9 → UInt8 := fun _ => 0

def AggBbo.layout : Layout AggBbo :=
  (AggBboSide.layout.pair (AggBboSide.layout.pair (AggBboRawSide.layout.pair (AggBboRawSide.layout.pair
    ((uint8.array 16).pair ((uint8.array 16).pair ((uint8.array kAggVenueSlots).pair (uint8.pair (uint8.pair
      (uint8.pair ((uint8.array 5).pair (uint32.pair (uint32.pair (int32.pair (int32.pair (uint32.pair (uint32.pair
        (uint32.pair (uint8.pair (uint8.pair (uint8.pair (uint8.array 9)))))))))))))))))))))).map
    ⟨fun (gatedBid, gatedAsk, rawBid, rawAsk, baseAsset, quoteAsset, venueSlotIds, priceScale, quantityScale,
        memberCount, identityReserved, memberMask, liveMask, rawCrossBps, gatedCrossBps, skewUs,
        crossSkewThresholdUs, fxAgeUs, crossBidVenue, crossAskVenue, fxVenue, summaryReserved) =>
        ⟨gatedBid, gatedAsk, rawBid, rawAsk, baseAsset, quoteAsset, venueSlotIds, priceScale, quantityScale,
          memberCount, identityReserved, memberMask, liveMask, rawCrossBps, gatedCrossBps, skewUs,
          crossSkewThresholdUs, fxAgeUs, crossBidVenue, crossAskVenue, fxVenue, summaryReserved⟩,
      fun a => (a.gatedBid, a.gatedAsk, a.rawBid, a.rawAsk, a.baseAsset, a.quoteAsset, a.venueSlotIds, a.priceScale,
        a.quantityScale, a.memberCount, a.identityReserved, a.memberMask, a.liveMask, a.rawCrossBps,
        a.gatedCrossBps, a.skewUs, a.crossSkewThresholdUs, a.fxAgeUs, a.crossBidVenue, a.crossAskVenue, a.fxVenue,
        a.summaryReserved),
      fun _ => rfl, fun _ => rfl⟩

structure AggLevel where
  (price quantity : Int64 := 0)
  venueQuantity : Fin kAggVenueSlots → Int64 := fun _ => 0
  venueMask : UInt32 := 0
  contributorCount : UInt8 := 0
  reserved : Fin 3 → UInt8 := fun _ => 0

def AggLevel.layout : Layout AggLevel :=
  (int64.pair (int64.pair ((int64.array kAggVenueSlots).pair (uint32.pair (uint8.pair (uint8.array 3)))))).map
    ⟨fun (price, quantity, venueQuantity, venueMask, contributorCount, reserved) =>
        ⟨price, quantity, venueQuantity, venueMask, contributorCount, reserved⟩,
      fun l => (l.price, l.quantity, l.venueQuantity, l.venueMask, l.contributorCount, l.reserved),
      fun _ => rfl, fun _ => rfl⟩

structure AggOrderBook where
  (baseAsset quoteAsset : Fin 16 → UInt8)
  venueSlotIds : Fin kAggVenueSlots → UInt8
  (priceScale quantityScale memberCount metadataReserved : UInt8)
  (memberMask activeMask : UInt32)
  (bidCount askCount : UInt16)
  (bids asks : Fin kAggMaxLevelsPerSide → AggLevel)

def AggOrderBook.layout : Layout AggOrderBook :=
  ((uint8.array 16).pair ((uint8.array 16).pair ((uint8.array kAggVenueSlots).pair (uint8.pair (uint8.pair
    (uint8.pair (uint8.pair (uint32.pair (uint32.pair (uint16.pair (uint16.pair
      ((AggLevel.layout.array kAggMaxLevelsPerSide).pair (AggLevel.layout.array kAggMaxLevelsPerSide))))))))))))).map
    ⟨fun (baseAsset, quoteAsset, venueSlotIds, priceScale, quantityScale, memberCount, metadataReserved, memberMask,
        activeMask, bidCount, askCount, bids, asks) =>
        ⟨baseAsset, quoteAsset, venueSlotIds, priceScale, quantityScale, memberCount, metadataReserved, memberMask,
          activeMask, bidCount, askCount, bids, asks⟩,
      fun a => (a.baseAsset, a.quoteAsset, a.venueSlotIds, a.priceScale, a.quantityScale, a.memberCount,
        a.metadataReserved, a.memberMask, a.activeMask, a.bidCount, a.askCount, a.bids, a.asks),
      fun _ => rfl, fun _ => rfl⟩

/-- The two versions of a fair price differ in how long the name of its profile may be. A `double` is
given by its bits. -/
structure FairPrice (profileSize : Nat) where
  profile : Fin profileSize → UInt8
  (symbol modelId : Fin 32 → UInt8)
  (ringEpoch ringSequence generation wallNs exchangeTsNs : UInt64)
  (price priceRaw mid microprice bestBid bestAsk effectiveBid effectiveAsk impactBid impactAsk : Int64)
  crossedQuantity : Int64
  (imbalance spreadBps crossBps weightedBidDepth weightedAskDepth depthBidNotional depthAskNotional : UInt64)
  (activeVenueMask degradedMask : UInt32)
  (priceScale quantityScale outputScale ready crossed degraded hasImpactBid hasImpactAsk : UInt8)
  (hasCrossedQuantity hasCrossBps : UInt8)
  reserved : Fin 6 → UInt8
  resetReason : Fin 32 → UInt8

def FairPrice.layout (profileSize : Nat) : Layout (FairPrice profileSize) :=
  ((uint8.array profileSize).pair ((uint8.array 32).pair ((uint8.array 32).pair (uint64.pair (uint64.pair
    (uint64.pair (uint64.pair (uint64.pair (int64.pair (int64.pair (int64.pair (int64.pair (int64.pair (int64.pair
      (int64.pair (int64.pair (int64.pair (int64.pair (int64.pair (uint64.pair (uint64.pair (uint64.pair (uint64.pair
        (uint64.pair (uint64.pair (uint64.pair (uint32.pair (uint32.pair (uint8.pair (uint8.pair (uint8.pair
          (uint8.pair (uint8.pair (uint8.pair (uint8.pair (uint8.pair (uint8.pair (uint8.pair
            ((uint8.array 6).pair (uint8.array 32)))))))))))))))))))))))))))))))))))))))).map
    ⟨fun (profile, symbol, modelId, ringEpoch, ringSequence, generation, wallNs, exchangeTsNs, price, priceRaw, mid,
        microprice, bestBid, bestAsk, effectiveBid, effectiveAsk, impactBid, impactAsk, crossedQuantity, imbalance,
        spreadBps, crossBps, weightedBidDepth, weightedAskDepth, depthBidNotional, depthAskNotional, activeVenueMask,
        degradedMask, priceScale, quantityScale, outputScale, ready, crossed, degraded, hasImpactBid, hasImpactAsk,
        hasCrossedQuantity, hasCrossBps, reserved, resetReason) =>
        ⟨profile, symbol, modelId, ringEpoch, ringSequence, generation, wallNs, exchangeTsNs, price, priceRaw, mid,
          microprice, bestBid, bestAsk, effectiveBid, effectiveAsk, impactBid, impactAsk, crossedQuantity, imbalance,
          spreadBps, crossBps, weightedBidDepth, weightedAskDepth, depthBidNotional, depthAskNotional,
          activeVenueMask, degradedMask, priceScale, quantityScale, outputScale, ready, crossed, degraded,
          hasImpactBid, hasImpactAsk, hasCrossedQuantity, hasCrossBps, reserved, resetReason⟩,
      fun f => (f.profile, f.symbol, f.modelId, f.ringEpoch, f.ringSequence, f.generation, f.wallNs, f.exchangeTsNs,
        f.price, f.priceRaw, f.mid, f.microprice, f.bestBid, f.bestAsk, f.effectiveBid, f.effectiveAsk, f.impactBid,
        f.impactAsk, f.crossedQuantity, f.imbalance, f.spreadBps, f.crossBps, f.weightedBidDepth,
        f.weightedAskDepth, f.depthBidNotional, f.depthAskNotional, f.activeVenueMask, f.degradedMask, f.priceScale,
        f.quantityScale, f.outputScale, f.ready, f.crossed, f.degraded, f.hasImpactBid, f.hasImpactAsk,
        f.hasCrossedQuantity, f.hasCrossBps, f.reserved, f.resetReason),
      fun _ => rfl, fun _ => rfl⟩

abbrev InstrumentUpdateRecord := Record Instrument

abbrev InstrumentCatalogRecord := Record InstrumentCatalog

abbrev BboRecord := Record Bbo

abbrev TickerRecord := Record Ticker

abbrev DeltaRecord := Record Delta

abbrev SnapshotBeginRecord := Record SnapshotControl

abbrev SnapshotChunkRecord := Record SnapshotChunk

abbrev SnapshotEndRecord := Record SnapshotControl

abbrev AggBboRecord := Record AggBbo

abbrev AggOrderBookRecord := Record AggOrderBook

abbrev FairPriceRecordV1 := Record (FairPrice 32)

abbrev FairPriceRecordV2 := Record (FairPrice 64)

def recordSize {β : Type} (body : Layout β) : Nat := (Record.layout body).size

end SelfQuant.Wire
