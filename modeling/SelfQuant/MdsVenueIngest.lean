import SelfQuant.MdsBookPipeline

namespace SelfQuant.Mds

def kLevelsPerMember : Nat := 10

inductive IngestResult
  | ignored | instrument | bbo | book | needResync | invalid
deriving DecidableEq

/-- Which instrument to read; an unknown venue or product and an empty symbol stand for any. -/
structure Selector where
  venue : Venue := .unknown
  product : ProductType := .unknown
  canonicalSymbol : List Char := []
deriving DecidableEq

def Selector.selects (s : Selector) (venue : Venue) (product : ProductType) (symbol : FixedText) : Bool :=
  decide ((s.venue = .unknown ∨ venue = s.venue) ∧ (s.product = .unknown ∨ product = s.product) ∧
    (s.canonicalSymbol = [] ∨ fixedView symbol = s.canonicalSymbol))

structure BookInput where
  (bids asks : List Level)
  (exchangeTsNs ingressMonoNs generation : Nat)
deriving DecidableEq

structure BboRecord where
  header : RecordHeader := {}
  (bid ask : Level := {})
deriving DecidableEq

/-- The reader of one venue's ring. The bridge works on the reader's book: `idleBook` is that book
while there is no bridge. -/
structure VenueIngest where
  selector : Selector := {}
  selectedInstrumentId : Nat := 0
  idleBook : OrderBook
  bridge : Option BookBridge := none
  instrument : Instrument := {}
  bbo : BboRecord := {}
  (snapshotBids snapshotAsks : List Level := [])
  (snapshotBridgeSequence bboIngressNs bookIngressNs bookExchangeTsNs lastRingSequence : Nat := 0)
  (lastBusSequence lastSourceSequence sourceGeneration bookGeneration : Nat := 0)
  (haveSequence haveSourceSequence haveInstrument instrumentChanged haveBbo snapshotActive : Bool := false)
  bookDirty : Bool := false

namespace VenueIngest

def create (selector : Selector) (ladderCapacity : Nat) : VenueIngest :=
  { selector := selector, idleBook := OrderBook.create (min ladderCapacity kMaxLadderLevels) }

def book (v : VenueIngest) : OrderBook :=
  match v.bridge with
  | some bridge => bridge.book
  | none => v.idleBook

def describes : Body → Bool
  | .instrumentUpdate _ => true
  | .instrumentCatalog _ => true
  | _ => false

variable (v : VenueIngest) (ringSequence : Nat)

def follows (header : RecordHeader) : Bool :=
  !v.haveSequence || decide (ringSequence = v.lastRingSequence + 1 ∧ header.busSeq = v.lastBusSequence + 1)

variable (record : WireRecord)

def sequenceOk : Bool :=
  if !v.follows ringSequence record.header then false
  else if describes record.body ∨ record.header.instrumentId ≠ v.selectedInstrumentId then true
  else if v.sourceGeneration ≠ 0 ∧ record.header.bookGeneration ≠ v.sourceGeneration then false
  else !v.haveSourceSequence || decide (record.header.sourceSeq ≥ v.lastSourceSequence)

def acceptSequence : VenueIngest :=
  let v := { v with lastRingSequence := ringSequence, lastBusSequence := record.header.busSeq, haveSequence := true }
  if record.header.instrumentId = v.selectedInstrumentId ∧ !describes record.body then
    { v with
      lastSourceSequence := record.header.sourceSeq
      sourceGeneration := record.header.bookGeneration, haveSourceSequence := true }
  else v

def resetGenerationState (generation : Nat) : VenueIngest :=
  { v with
    haveBbo := false, snapshotActive := false, snapshotBids := [], snapshotAsks := []
    snapshotBridgeSequence := 0, bboIngressNs := 0, bookIngressNs := 0, bookExchangeTsNs := 0
    bridge := none, idleBook := v.book.reset 0 0 0 generation, bookGeneration := generation
    bookDirty := false, lastSourceSequence := 0, sourceGeneration := generation
    haveSourceSequence := false }

def reset (v : VenueIngest) : VenueIngest :=
  let v := { v with
    haveSequence := false, haveSourceSequence := false, haveBbo := false, snapshotActive := false
    bookDirty := false, instrumentChanged := false }
  let v := if v.selector.canonicalSymbol ≠ [] then { v with selectedInstrumentId := 0, haveInstrument := false }
    else v
  let book := v.book.reset 0 0 0 (v.bookGeneration + 1)
  { v with
    bookGeneration := v.bookGeneration + 1, idleBook := if v.bridge = none then book else v.idleBook
    bridge := v.bridge.map fun bridge => { bridge with book := book } }

def choose (instrumentId : Nat) (selects : Bool) : VenueIngest :=
  if v.selectedInstrumentId = 0 ∧ selects then { v with selectedInstrumentId := instrumentId } else v

def consumeCatalog (catalog : InstrumentCatalog) : IngestResult × VenueIngest :=
  let v := v.choose record.header.instrumentId
    (v.selector.selects catalog.venue catalog.productType catalog.canonicalSymbol)
  let generation := record.header.bookGeneration
  if record.header.instrumentId = v.selectedInstrumentId then
    if v.sourceGeneration ≠ 0 ∧ generation < v.sourceGeneration then (.ignored, v.acceptSequence ringSequence record)
    else
      let v := if generation > v.sourceGeneration then v.resetGenerationState generation else v
      (.ignored, v.acceptSequence ringSequence record)
  else (.ignored, v.acceptSequence ringSequence record)

def consumeInstrument (instrument : Instrument) : IngestResult × VenueIngest :=
  let v := v.choose record.header.instrumentId
    (v.selector.selects instrument.venue instrument.productType instrument.canonicalSymbol)
  let generation := record.header.bookGeneration
  if record.header.instrumentId ≠ v.selectedInstrumentId then (.ignored, v.acceptSequence ringSequence record)
  else if v.sourceGeneration ≠ 0 ∧ generation < v.sourceGeneration then
    (.ignored, v.acceptSequence ringSequence record)
  else
    let generationAdvanced := generation > v.sourceGeneration
    let v := if generationAdvanced then v.resetGenerationState generation else v
    let changed := v.haveInstrument ∧ v.instrument ≠ instrument
    let v := { v with
      instrumentChanged := decide (changed ∨ generationAdvanced), instrument := instrument
      haveInstrument := decide (instrument.tickSize > 0) }
    let v := if changed then v.resetGenerationState generation else v
    let v := if v.haveInstrument ∧ v.bridge.isNone then
        { v with bridge := some (BookBridge.create v.book instrument.tickSize
            (instrument.flags % 2 = 1) false) }
      else v
    (if v.haveInstrument then .instrument else .invalid, v.acceptSequence ringSequence record)

def rebuildBook (itemCount generation : Nat) : Bool × VenueIngest :=
  match v.bridge with
  | none => (false, v)
  | some bridge =>
    if itemCount ≠ v.snapshotBids.length + v.snapshotAsks.length then (false, v)
    else
      let (loaded, bridge) := bridge.loadSnapshot
        ⟨v.snapshotBridgeSequence, v.snapshotBids, v.snapshotAsks⟩ generation
      if loaded.action ≠ .applied then (false, { v with bridge := some bridge })
      else (true, { v with bridge := some bridge.setLive, bookGeneration := generation })

def consumeSelected (ingressMonoNs : Nat) : IngestResult × VenueIngest :=
  match record.body with
  | .bbo bid ask | .ticker bid ask _ =>
    let v := { v with bbo := ⟨record.header, bid, ask⟩, bboIngressNs := ingressMonoNs, haveBbo := true }
    (.bbo, v.acceptSequence ringSequence record)
  | .snapshotBegin itemCount _ =>
    if v.bridge.isNone ∨ itemCount > kMaxLadderLevels + kMaxLadderLevels then (.invalid, v)
    else
      let v := { v with
        snapshotBids := [], snapshotAsks := [], snapshotBridgeSequence := record.header.busSeq
        snapshotActive := true }
      (.ignored, v.acceptSequence ringSequence record)
  | .snapshotChunk _ side levels =>
    if !v.snapshotActive then (.invalid, v)
    else
      let known := match side with
        | .bid => v.snapshotBids
        | .ask => v.snapshotAsks
      if known.length + levels.length > kMaxLadderLevels then (.invalid, { v with snapshotActive := false })
      else
        let v := match side with
          | .bid => { v with snapshotBids := v.snapshotBids ++ levels }
          | .ask => { v with snapshotAsks := v.snapshotAsks ++ levels }
        (.ignored, v.acceptSequence ringSequence record)
  | .snapshotEnd itemCount _ =>
    if !v.snapshotActive then (.needResync, { v with snapshotActive := false })
    else
      match v.rebuildBook itemCount record.header.bookGeneration with
      | (false, v) => (.needResync, { v with snapshotActive := false })
      | (true, v) =>
        let v := { v with
          snapshotActive := false, bookIngressNs := ingressMonoNs
          bookExchangeTsNs := record.header.exchangeTsNs, bookDirty := true }
        (.book, v.acceptSequence ringSequence record)
  | .bookDelta side level =>
    match v.bridge with
    | none => (.invalid, v)
    | some bridge =>
      let bids := if side = .bid then [level] else []
      let asks := if side = .ask then [level] else []
      match bridge.apply ⟨record.header.busSeq, record.header.busSeq, bids, asks⟩ with
      | (.applied, bridge) =>
        let v := { v with
          bridge := some bridge, bookIngressNs := ingressMonoNs
          bookExchangeTsNs := record.header.exchangeTsNs, bookDirty := true }
        (.book, v.acceptSequence ringSequence record)
      | (_, bridge) => (.needResync, { v with bridge := some bridge })
  | _ => (.ignored, v)

def consume (outerType : Nat) (record : WireRecord) (ingressMonoNs : Nat) : IngestResult × VenueIngest :=
  match validateHeader record with
  | .unknownMessageType =>
    if outerType ≠ record.body.type ∨ !v.follows ringSequence record.header then (.needResync, v.reset)
    else
      (.ignored, { v with
        lastRingSequence := ringSequence, lastBusSequence := record.header.busSeq, haveSequence := true })
  | .invalidField => (.needResync, v.reset)
  | .ok =>
    if outerType ≠ record.body.type ∨ !v.sequenceOk ringSequence record then (.needResync, v.reset)
    else if !describes record.body ∧
        (v.selectedInstrumentId = 0 ∨ record.header.instrumentId ≠ v.selectedInstrumentId) then
      (.ignored, v.acceptSequence ringSequence record)
    else if !validBody record.header.instrumentId record.body then
      match record.body with
      | .snapshotEnd .. => (.needResync, { v with snapshotActive := false })
      | _ => (.invalid, v)
    else
      match record.body with
      | .instrumentCatalog catalog => v.consumeCatalog ringSequence record catalog
      | .instrumentUpdate instrument => v.consumeInstrument ringSequence record instrument
      | _ => v.consumeSelected ringSequence record ingressMonoNs

/-- The levels of a ladder from the best one on; the first argument counts the turns of the loop. -/
def collect (l : Ladder) (descending : Bool) : Nat → Nat → Nat → List Level
  | 0, _, _ => []
  | turns + 1, index, room =>
    if index ≥ l.capacity ∨ room = 0 then []
    else
      let here := (l.at? index).toList
      let rest :=
        if descending then if index = 0 then [] else collect l descending turns (index - 1) (room - here.length)
        else collect l descending turns (index + 1) (room - here.length)
      here ++ rest

def topLevels (l : Ladder) (descending : Bool) : List Level :=
  match l.bestIndex with
  | none => []
  | some best => collect l descending l.capacity best kLevelsPerMember

def bookInput : Option BookInput × VenueIngest :=
  if !v.bookDirty ∨ v.book.state ≠ .live then (none, v)
  else
    let bids := topLevels v.book.bids true
    let asks := topLevels v.book.asks false
    let v := { v with bookDirty := false }
    if bids ≠ [] ∧ asks ≠ [] then (some ⟨bids, asks, v.bookExchangeTsNs, v.bookIngressNs, v.bookGeneration⟩, v)
    else (none, v)

end VenueIngest

end SelfQuant.Mds
