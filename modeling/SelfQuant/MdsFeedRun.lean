import SelfQuant.MdsIngestImage

namespace SelfQuant.Mds

open WirePublisher VenueIngest BookBridge OrderBook

structure Feed where
  pipeline : BookPipeline
  ingest : VenueIngest

structure FeedOutcome where
  published : PipelineResult
  results : List IngestResult
  input : Option BookInput

def BookPipeline.records (p : BookPipeline) : List Published :=
  match p.publisher with
  | some w => w.published
  | none => []

namespace Feed

/-- Hand the records that are not among the ones before to the reader, and ask it for its book. -/
def relay (clock : Nat → Nat) (before : List Published) (published : PipelineResult) (p : BookPipeline)
    (v : VenueIngest) : FeedOutcome × Feed :=
  let (results, v) := v.deliver clock (p.records.drop before.length)
  let (input, v) := v.bookInput
  (⟨published, results, input⟩, ⟨p, v⟩)

/-- Nothing went wrong, and the reader shows the top of the book of the pipeline. -/
def Followed (outcome : FeedOutcome × Feed) : Prop :=
  Quiet outcome.1.results ∧ ∃ input, outcome.1.input = some input ∧
    input.bids = topLevels outcome.2.pipeline.bridge.book.bids true ∧
    input.asks = topLevels outcome.2.pipeline.bridge.book.asks false

end Feed

/-- What a feed is opened with: an instrument, a reader that selects it and the writer of the ring,
which may have been in use before. -/
structure FeedSetup where
  ladderCapacity : Nat
  instrument : Instrument
  selector : Selector
  publisher : WirePublisher
  generation : Nat
  clock : Nat → Nat
  named : instrument.instrumentId ≠ 0
  selects : selector.selects instrument.venue instrument.productType instrument.canonicalSymbol

namespace FeedSetup

variable (s : FeedSetup)

def header (sourceSeq exchangeTsNs : Nat) : EventHeader :=
  { instrumentId := s.instrument.instrumentId, bookGeneration := s.generation, sourceSeq := sourceSeq
    exchangeTsNs := exchangeTsNs }

def pipeline (publisher : WirePublisher) : BookPipeline :=
  BookPipeline.create s.instrument.instrumentId s.ladderCapacity s.instrument.tickSize (some publisher)
    (s.instrument.flags % 2 = 1) false

def opened (image : DepthSnapshot) (exchangeTsNs : Nat) : FeedOutcome × Feed :=
  let (announced, publisher) := s.publisher.publishInstrument (s.header 0 exchangeTsNs) s.instrument
  let (result, p) := (s.pipeline publisher).loadImage (s.header image.lastUpdateId exchangeTsNs)
    image.lastUpdateId image.bids image.asks true
  Feed.relay s.clock s.publisher.published (if announced then result else .publishFailed) p
    (create s.selector s.ladderCapacity)

def updated (f : Feed) (update : DepthUpdate) (exchangeTsNs : Nat) : FeedOutcome × Feed :=
  let (result, p) := f.pipeline.applyDelta (s.header update.finalUpdateId exchangeTsNs) update true
  Feed.relay s.clock f.pipeline.records result p f.ingest

/-- The feeds that were opened with an image for which the reader has room, and since then have had
updates with increasing numbers, all of them applied and with levels that are tolerated one by one. -/
inductive Run (s : FeedSetup) : Feed → Prop
  | opened (image : DepthSnapshot) (exchangeTsNs : Nat)
      (ha : (s.opened image exchangeTsNs).1.published = .applied) (hsmall : image.Small) :
      Run s (s.opened image exchangeTsNs).2
  | updated {f : Feed} (h : Run s f) (update : DepthUpdate) (exchangeTsNs : Nat)
      (hnew : f.pipeline.bridge.lastUpdateId < update.finalUpdateId)
      (ha : (s.updated f update exchangeTsNs).1.published = .applied)
      (hsmooth : Smooth f.pipeline.bridge.book (f.pipeline.bridge.deltas update)) :
      Run s (s.updated f update exchangeTsNs).2

end FeedSetup

namespace VenueIngest

variable {v v' : VenueIngest} {id generation bus ring source : Nat} {c : BookBridge} {dirty : Bool}
  {item : Item} {l : Ladder} {level : Level} {r : ReferenceBook}

theorem topLevels_ne_nil (descending : Bool) (h : l.Sound) (hb : l.best = some level) :
    topLevels l descending ≠ [] := by
  obtain ⟨best, hbt, -⟩ := Option.map_eq_some_iff.mp hb
  have hfst := h.best
  rw [hbt] at hfst
  have hlt := h.within best hfst.1
  have hat : l.at? best = some (l.levelAt best) := by
    unfold Ladder.at?
    rw [(h.occupied best).mpr hfst.1]
    simp [hlt]
  obtain ⟨n, hn⟩ := Nat.exists_eq_add_of_lt hlt
  unfold topLevels
  rw [hbt]
  dsimp only
  rw [show l.capacity = best + n + 1 from hn, collect, if_neg (by simp [kLevelsPerMember, hlt]), hat]
  simp

theorem Attached.bookInput (h : Attached v id generation bus ring source c dirty)
    (hc : InStep r c) (hlv : c.book.state = .live) :
    (∃ v', v.bookInput.2 = v' ∧ Attached v' id generation bus ring source c false) ∧
      (dirty = false → v.bookInput.1 = none) ∧
      (dirty = true → ∃ input, v.bookInput.1 = some input ∧ input.bids = topLevels c.book.bids true ∧
        input.asks = topLevels c.book.asks false) := by
  have hbk : v.book = c.book := by rw [book, h.bridge]
  obtain ⟨bid, ask, hbid, hask, -⟩ := hc.uncrossed
  have hbi := topLevels_ne_nil true (hc.tracking.holds .bid).sound hbid
  have has := topLevels_ne_nil false (hc.tracking.holds .ask).sound hask
  unfold VenueIngest.bookInput
  rw [hbk, hlv, h.dirty]
  cases dirty with
  | false => exact ⟨⟨v, rfl, h⟩, fun _ => rfl, fun hf => absurd hf Bool.false_ne_true⟩
  | true =>
    simp only [Bool.not_true, Bool.false_eq_true, ne_eq, not_true_eq_false, or_self, if_false]
    rw [if_pos ⟨hbi, has⟩]
    exact ⟨⟨_, rfl, ⟨h.selected, h.nonzero, h.sequence, h.generation, h.source⟩, h.bridge, rfl⟩,
      fun hf => absurd hf.symm Bool.false_ne_true, fun _ => ⟨_, rfl, rfl, rfl⟩⟩

end VenueIngest

open List

variable {s : FeedSetup} {f : Feed} {image : DepthSnapshot} {update : DepthUpdate}
  {exchangeTsNs bus ring source generation : Nat} {w w' : WirePublisher} {c : BookBridge}
  {r : ReferenceBook} {items : List Item} {b : BookBridge} {snap : DepthSnapshot}

theorem BookBridge.tick_of_loaded (ha : (b.loadSnapshot snap generation).1.action = .applied) :
    0 < b.configuredTickSize := by
  unfold loadSnapshot at ha
  dsimp only at ha
  split at ha
  next => cases ha
  next h =>
  by_contra hno
  refine h (.inl ?_)
  show b.snapshotTickSize snap.bids snap.asks ≤ 0
  unfold snapshotTickSize
  rw [if_pos (.inr (not_lt.mp hno))]
  exact not_lt.mp hno

theorem VenueIngest.attached_described {v : VenueIngest} {item : Item} {id : Nat}
    (hselected : v.selectedInstrumentId = id) (hne : id ≠ 0)
    (hgen : v.sourceGeneration = 0 ∨ v.sourceGeneration = generation) (hsrc : v.haveSourceSequence = false)
    (hbr : v.bridge = some c) (hdirty : v.bookDirty = false) (hd : describes item.body = true) :
    Attached (v.acceptSequence (ring + 1) (item.record (bus + 1))) id generation (bus + 1) (ring + 1)
      source c false := by
  have hd' : describes (item.record (bus + 1)).body = true := hd
  unfold acceptSequence
  rw [if_neg (by rw [hd']; simp)]
  exact ⟨⟨hselected, hne, fun _ => ⟨rfl, rfl⟩, hgen, fun h => absurd h (by simp [hsrc])⟩, hbr, hdirty⟩

namespace FeedSetup

def announcement (s : FeedSetup) (exchangeTsNs : Nat) : Item :=
  ⟨s.header 0 exchangeTsNs, 0, .instrumentUpdate s.instrument⟩

def freshBook (s : FeedSetup) : OrderBook :=
  let book := create (min s.ladderCapacity kMaxLadderLevels)
  if s.generation > 0 then book.reset 0 0 0 s.generation else book

theorem freshBook_reset : s.freshBook.reset 0 0 0 generation = (create s.ladderCapacity).reset 0 0 0 generation := by
  unfold freshBook
  split <;> simp [OrderBook.reset, OrderBook.create, Ladder.reset, Ladder.create]

def freshBridge (s : FeedSetup) : BookBridge :=
  create s.freshBook s.instrument.tickSize (s.instrument.flags % 2 = 1) false

theorem consume_announcement (he : (s.announcement exchangeTsNs).Encodable) (ht : 0 < s.instrument.tickSize)
    (bus ring source now : Nat) : ∃ v', (create s.selector s.ladderCapacity).consume (ring + 1)
        (s.announcement exchangeTsNs).body.type ((s.announcement exchangeTsNs).record (bus + 1)) now =
          (.instrument, v') ∧
      Attached v' s.instrument.instrumentId s.generation (bus + 1) (ring + 1) source s.freshBridge
        false := by
  have hchoose : (create s.selector s.ladderCapacity).choose s.instrument.instrumentId
      ((create s.selector s.ladderCapacity).selector.selects s.instrument.venue
        s.instrument.productType s.instrument.canonicalSymbol) =
      { create s.selector s.ladderCapacity with selectedInstrumentId := s.instrument.instrumentId } := by
    show choose _ _ (s.selector.selects _ _ _) = _
    rw [s.selects]
    rfl
  have hbd : validBody ((s.announcement exchangeTsNs).record (bus + 1)).header.instrumentId
      ((s.announcement exchangeTsNs).record (bus + 1)).body := he.2
  unfold consume
  rw [hbd]
  show ∃ v', consumeInstrument _ _ _ s.instrument = _ ∧ _
  unfold consumeInstrument
  have hid : ((s.announcement exchangeTsNs).record (bus + 1)).header.instrumentId = s.instrument.instrumentId := rfl
  have hgen : ((s.announcement exchangeTsNs).record (bus + 1)).header.bookGeneration = s.generation := rfl
  rw [hid, hchoose, hgen]
  rw [if_neg (by simp)]
  have hfst : (create s.selector s.ladderCapacity).haveInstrument = false ∧
      (create s.selector s.ladderCapacity).bridge = none ∧
      (create s.selector s.ladderCapacity).sourceGeneration = 0 := ⟨rfl, rfl, rfl⟩
  -- in both cases the reader is described outright, with a new bridge
  by_cases hg : s.generation > 0
  · simp only [hfst, hg, resetGenerationState, ht, Bool.false_eq_true, false_and, if_true, if_false,
      decide_true, true_and, Option.isNone_none]
    have hbr : s.freshBridge = create ((create
        (min s.ladderCapacity kMaxLadderLevels)).reset 0 0 0 s.generation) s.instrument.tickSize
        (s.instrument.flags % 2 = 1) false := by rw [freshBridge, freshBook, if_pos hg]
    rw [hbr]
    exact ⟨_, rfl, attached_described rfl s.named (.inr rfl) rfl rfl rfl rfl⟩
  · simp only [hfst, hg, ht, Bool.false_eq_true, false_and, if_true, if_false, decide_true, true_and,
      Option.isNone_none]
    have hbr : s.freshBridge = create (create
        (min s.ladderCapacity kMaxLadderLevels)) s.instrument.tickSize
        (s.instrument.flags % 2 = 1) false := by rw [freshBridge, freshBook, if_neg hg]
    rw [hbr]
    exact ⟨_, rfl, attached_described rfl s.named (.inl rfl) rfl rfl rfl rfl⟩

end FeedSetup

theorem BookBridge.Alike.inStep (h : Alike b c) (hbk : c.book = b.book)
    (hb : InStep r b) : InStep ⟨c.lastUpdateId, r.depth⟩ c := by
  have htrk := (hb.tracking.relabel c.lastUpdateId b.loaded).counted c.outsideUpdatesIgnored
  have heq : c = { b with lastUpdateId := c.lastUpdateId, outsideUpdatesIgnored := c.outsideUpdatesIgnored } := by
    conv_lhs => rw [h.frame, hbk]
  refine ⟨?_, by rw [hbk]; exact hb.uncrossed, ?_, rfl, ?_⟩
  · rw [heq]
    exact htrk.1
  · rw [heq]
    exact hb.loaded
  · rw [heq]
    exact hb.strict

namespace Feed

variable {clock : Nat → Nat} {p : BookPipeline} {v v1 : VenueIngest} {result : PipelineResult}
  {id : Nat} {dirty : Bool} {header : EventHeader} {bid ask : Level}

theorem relay_eq (hw : Wrote w w' items) (hp : p.publisher = some w') : relay clock w.published result p v =
      (⟨result, (v.deliver clock (numbered w.currentBusSeq w.ringSequence items)).1,
        (v.deliver clock (numbered w.currentBusSeq w.ringSequence items)).2.bookInput.1⟩,
        ⟨p, (v.deliver clock (numbered w.currentBusSeq w.ringSequence items)).2.bookInput.2⟩) := by
  have hrecs : p.records.drop w.published.length = numbered w.currentBusSeq w.ringSequence items := by
    unfold BookPipeline.records
    rw [hp]
    dsimp only
    rw [hw.published, drop_left]
  unfold relay
  rw [hrecs]

theorem relay_handled (hw : Wrote w w' (items ++ [p.bboItem header bid ask])) (hp : p.publisher = some w')
    (hh : Handled clock v w.currentBusSeq w.ringSequence items v1)
    (ha : Attached v1 p.instrumentId generation (w.currentBusSeq + items.length)
      (w.ringSequence + items.length) source c dirty)
    (hg : header.bookGeneration = generation) (hs : header.sourceSeq = source)
    (hc : InStep r c) (hbk : c.book = p.bridge.book) (hlv : c.book.state = .live) :
    (∃ v', (relay clock w.published result p v).2 = ⟨p, v'⟩ ∧
      Attached v' p.instrumentId generation w'.currentBusSeq w'.ringSequence source c false) ∧
      Quiet (relay clock w.published result p v).1.results ∧
      (Followed (relay clock w.published result p v) ↔ dirty = true) := by
  have habout : (p.bboItem header bid ask).About p.instrumentId generation source := ⟨rfl, hg, hs, rfl⟩
  have henc : (p.bboItem header bid ask).Encodable := hw.encodable _ (mem_append_right _ (mem_singleton_self _))
  obtain ⟨v2, hcn, h2⟩ := ha.bbo habout henc rfl
  have hall := hh.append (.one hcn ⟨by decide, by decide⟩)
  have hlen : w'.currentBusSeq = w.currentBusSeq + items.length + 1 ∧
      w'.ringSequence = w.ringSequence + items.length + 1 := by
    rw [hw.bus, hw.ring, length_append]
    exact ⟨rfl, rfl⟩
  obtain ⟨⟨v', hv', h'⟩, hno, hyes⟩ := h2.bookInput hc hlv
  rw [relay_eq hw hp, hall.result]
  refine ⟨⟨v', by rw [hv'], by rw [hlen.1, hlen.2]; exact h'⟩, hall.quiet, ?_⟩
  constructor
  · rintro ⟨-, input, hinput, -⟩
    by_contra hdirty
    have hnone := hno (by simpa using hdirty)
    rw [hnone] at hinput
    cases hinput
  · intro hdirty
    have hinput := hyes hdirty
    rw [hbk] at hinput
    exact ⟨hall.quiet, hinput⟩

theorem relay_upset (hw : Wrote w w' items) (hp : p.publisher = some w')
    (hu : Upset clock v w.currentBusSeq w.ringSequence items) :
    ¬Quiet (relay clock w.published result p v).1.results := by
  rw [relay_eq hw hp]
  exact hu

end Feed

namespace FeedSetup

/-- The reader has the book of the pipeline, and is about to read what comes next. -/
structure Synced (s : FeedSetup) (f : Feed) (w : WirePublisher) (c : BookBridge) (r : ReferenceBook) :
    Prop where
  id : f.pipeline.instrumentId = s.instrument.instrumentId
  strict : f.pipeline.allowEmptySides = false
  writer : f.pipeline.publisher = some w
  inStep : InStep r f.pipeline.bridge
  attached : Attached f.ingest f.pipeline.instrumentId s.generation w.currentBusSeq w.ringSequence
    f.pipeline.bridge.lastUpdateId c false
  alike : Alike f.pipeline.bridge c
  book : c.book = f.pipeline.bridge.book
  behind : c.lastUpdateId ≤ w.currentBusSeq

theorem live_of_bbo {book : OrderBook} {bid ask : Level} (h : book.bbo = some (bid, ask)) : book.state = .live := by
  unfold OrderBook.bbo at h
  split at h
  next => cases h
  next hlv => exact not_not.mp hlv

theorem opened_cases (ha : (s.opened image exchangeTsNs).1.published = .applied) :
    ∃ w p, s.publisher.publishInstrument (s.header 0 exchangeTsNs) s.instrument = (true, w) ∧
      (s.pipeline w).loadImage (s.header image.lastUpdateId exchangeTsNs) image.lastUpdateId image.bids
        image.asks true = (.applied, p) ∧
      s.opened image exchangeTsNs = Feed.relay s.clock s.publisher.published .applied p
        (create s.selector s.ladderCapacity) := by
  have hres : (if (s.publisher.publishInstrument (s.header 0 exchangeTsNs) s.instrument).1 then
      ((s.pipeline (s.publisher.publishInstrument (s.header 0 exchangeTsNs) s.instrument).2).loadImage
        (s.header image.lastUpdateId exchangeTsNs) image.lastUpdateId image.bids image.asks true).1
      else .publishFailed) = .applied := ha
  split at hres
  next hann =>
    refine ⟨_, _, Prod.ext hann rfl, Prod.ext hres rfl, ?_⟩
    unfold opened
    dsimp only
    rw [if_pos hann, hres]
  next => cases hres

theorem freshBridge_load (id' : Nat)
    (hl : ((s.pipeline w).bridge.loadSnapshot image s.generation).1.action = .applied) :
    s.freshBridge.loadSnapshot ⟨id', image.bids, image.asks⟩ s.generation =
      (((s.pipeline w).bridge.loadSnapshot image s.generation).1,
        { ((s.pipeline w).bridge.loadSnapshot image s.generation).2 with lastUpdateId := id' }) := by
  rw [← loadSnapshot_relabel id' hl]
  refine loadSnapshot_congr ?_
  unfold beginLoad
  have hbk : s.freshBridge.book.reset 0 0 0 s.generation =
    (s.pipeline w).bridge.book.reset 0 0 0 s.generation := s.freshBook_reset
  rw [hbk]
  rfl

theorem opened_followed (ha : (s.opened image exchangeTsNs).1.published = .applied) :
    (Feed.Followed (s.opened image exchangeTsNs) ↔ image.Small) ∧
      (image.Small → ∃ w c r, Synced s (s.opened image exchangeTsNs).2 w c r) := by
  obtain ⟨w, p, hannounce, hld, hopened⟩ := opened_cases ha
  obtain ⟨hl, -, w', items, hp, hcan, hwr⟩ := BookPipeline.loadImage_wrote rfl hld
  obtain ⟨bid, ask, hbbo, rfl⟩ := hcan.both (by rw [hp]; rfl)
  have hid : p.instrumentId = s.instrument.instrumentId := by
    rw [hp]
    rfl
  have hbr : p.bridge = ((s.pipeline w).bridge.loadSnapshot image s.generation).2.setLive := by
    rw [hp]
    rfl
  have hfst := (publish_wrote hannounce).1
  have hall := hfst.trans hwr
  -- the items about the image, and the reader that has got to know the instrument
  have hits : ∀ item ∈ snapshotItems { (s.pipeline w).stamped (s.header image.lastUpdateId exchangeTsNs)
      with sourceSeq := image.lastUpdateId } image.bids image.asks,
      item.About p.instrumentId s.generation image.lastUpdateId ∧ item.Encodable :=
    fun item hmem => ⟨forall_snapshotItems.mpr ⟨⟨hid.symm, rfl, rfl, rfl⟩, chunkItems_about hid.symm rfl rfl,
      chunkItems_about hid.symm rfl rfl, hid.symm, rfl, rfl, rfl⟩ item hmem,
      hwr.encodable item (mem_append_left _ hmem)⟩
  obtain ⟨v1, hcn, h1⟩ := s.consume_announcement
    (hfst.encodable _ (mem_singleton_self _)) (tick_of_loaded hl)
    s.publisher.currentBusSeq s.publisher.ringSequence image.lastUpdateId
    (s.clock (s.publisher.ringSequence + 1))
  have hann : Handled s.clock _ _ _ [s.announcement exchangeTsNs] v1 := .one hcn ⟨by decide, by decide⟩
  have hpub : p.publisher = some w' := by rw [hp]
  rw [hopened]
  rw [← hid] at h1
  by_cases hsm : image.Small
  · have hfr := s.freshBridge_load (s.publisher.currentBusSeq + 1 + 1) hl
    obtain ⟨v2, himage, h2⟩ := h1.image s.clock hits hsm (by rw [hfr]; exact hl)
    -- the two bridges differ in their numbers only
    have hsame : { ((s.pipeline w).bridge.loadSnapshot image s.generation).2 with
        lastUpdateId := s.publisher.currentBusSeq + 1 + 1 }.setLive =
        { p.bridge with lastUpdateId := s.publisher.currentBusSeq + 1 + 1 } := by
      rw [hbr]
      rfl
    have halk : Alike p.bridge { p.bridge with lastUpdateId := s.publisher.currentBusSeq + 1 + 1 } := ⟨rfl, rfl⟩
    have hst : InStep (ReferenceBook.load image) p.bridge := by
      rw [hbr]
      exact (Following.load (create_shaped s.ladderCapacity) rfl hl).setLive.inStep
    rw [hfr, hsame, Nat.add_right_comm, Nat.add_right_comm s.publisher.ringSequence] at h2
    obtain ⟨⟨v', hv', h'⟩, -, hfol⟩ := Feed.relay_handled hall hpub
      (hann.append himage) h2 rfl rfl (halk.inStep rfl hst) rfl (live_of_bbo hbbo)
    refine ⟨iff_of_true (hfol.mpr rfl) hsm, fun _ => ?_⟩
    rw [hv']
    refine ⟨w', _, _, hid, by rw [hp]; rfl, hpub, hst, ?_, halk, rfl, ?_⟩
    · rw [hst.lastUpdateId]
      exact h'
    · rw [hall.bus]
      simp only [length_append, length_cons, length_nil]
      omega
  · have hupset := h1.image_upset s.clock hits hsm
    refine ⟨iff_of_false (fun hf => ?_) hsm, fun h => absurd h hsm⟩
    refine Feed.relay_upset hall hpub ?_ hf.1
    exact hann.upset_cons (hupset.append _)

theorem updated_cases (hw : f.pipeline.publisher = some w)
    (ha : (s.updated f update exchangeTsNs).1.published = .applied) :
    ∃ p, f.pipeline.applyDelta (s.header update.finalUpdateId exchangeTsNs) update true = (.applied, p) ∧
      s.updated f update exchangeTsNs = Feed.relay s.clock w.published .applied p f.ingest := by
  have hres : (f.pipeline.applyDelta (s.header update.finalUpdateId exchangeTsNs) update true).1 = .applied := ha
  refine ⟨_, Prod.ext hres rfl, ?_⟩
  unfold updated BookPipeline.records
  rw [hw]
  dsimp only
  rw [hres]

theorem deltaItems_eq (p : BookPipeline) (header : EventHeader) :
    p.deltaItems header .bid update.bids ++ p.deltaItems header .ask update.asks =
      (p.bridge.deltas update).map (deltaItem (p.stamped header)) := by
  rw [deltas, map_append, map_map, map_map]
  rfl

theorem Synced.updated (h : Synced s f w c r) (hnew : f.pipeline.bridge.lastUpdateId < update.finalUpdateId)
    (ha : (s.updated f update exchangeTsNs).1.published = .applied) :
    (Smooth f.pipeline.bridge.book (f.pipeline.bridge.deltas update) →
      Quiet (s.updated f update exchangeTsNs).1.results ∧
      (Feed.Followed (s.updated f update exchangeTsNs) ↔ f.pipeline.bridge.deltas update ≠ []) ∧
      ∃ w' c' r', Synced s (s.updated f update exchangeTsNs).2 w' c' r') ∧
    (¬Smooth f.pipeline.bridge.book (f.pipeline.bridge.deltas update) →
      ¬Quiet (s.updated f update exchangeTsNs).1.results) := by
  obtain ⟨p, hdlt, hupd⟩ := updated_cases h.writer ha
  obtain ⟨happ, w', items, hp, hcan, hwr⟩ := BookPipeline.applyDelta_wrote h.writer hdlt
  obtain ⟨bid, ask, hbbo, rfl⟩ := hcan.both (by rw [hp]; exact h.strict)
  have hpub : p.publisher = some w' := by rw [hp]
  have hbr : p.bridge = (f.pipeline.bridge.apply update).2 := by rw [hp]
  have hpid : p.instrumentId = f.pipeline.instrumentId := by rw [hp]
  obtain ⟨halk, hbk, hin⟩ := h.inStep.apply_book hnew happ
  have hst := h.inStep.apply happ
  rw [← hbr] at halk hbk hst
  have hla : p.bridge.lastUpdateId = update.finalUpdateId := by
    rw [hst.lastUpdateId, ReferenceBook.apply, if_neg]
    rw [← h.inStep.lastUpdateId]
    omega
  rw [deltaItems_eq, halk.deltas] at hwr
  have hatt := h.attached.mono hnew.le
  have hc := h.alike.inStep h.book h.inStep
  have habout : ∀ delta ∈ f.pipeline.bridge.deltas update,
      (deltaItem (p.stamped (s.header update.finalUpdateId exchangeTsNs)) delta).About
        f.pipeline.instrumentId s.generation update.finalUpdateId :=
    fun _ _ => ⟨hpid, rfl, rfl, rfl⟩
  rw [← h.alike.inWindow] at hin
  rw [← h.book] at hbk ⊢
  rw [hupd]
  constructor
  · intro hsmo
    obtain ⟨v1, c1, hh, h1, hlast1, halike1, hbook1⟩ := hatt.deltas hc h.behind habout hin hsmo
    have hbk' : c1.book = p.bridge.book := hbook1.trans hbk.symm
    have halk' : Alike p.bridge c1 := halk.symm.trans (h.alike.trans halike1)
    rw [← hpid] at h1
    have hlen : ((f.pipeline.bridge.deltas update).map
        (deltaItem (p.stamped (s.header update.finalUpdateId exchangeTsNs)))).length =
        (f.pipeline.bridge.deltas update).length := length_map _
    obtain ⟨⟨v', hv', h'⟩, hqt, hfol⟩ := Feed.relay_handled hwr hpub hh
      (by rw [hlen]; exact h1) rfl rfl (halk'.inStep hbk' hst) hbk'
      (by rw [hbk']; exact live_of_bbo hbbo)
    refine ⟨hqt, by rw [hfol]; simp, w', c1, r.apply update, ?_⟩
    rw [hv']
    refine ⟨hpid.trans h.id, by rw [hp]; exact h.strict, hpub, hst, ?_, halk', hbk', ?_⟩
    · rw [hla]
      exact h'
    · rw [hwr.bus, length_append]
      omega
  · intro hsmo
    exact Feed.relay_upset hwr hpub ((hatt.deltas_upset hc h.behind habout hin hsmo).append _)

theorem Run.synced (h : s.Run f) : ∃ w c r, Synced s f w c r := by
  induction h with
  | opened image exchangeTsNs ha hsm => exact (opened_followed ha).2 hsm
  | updated _ update exchangeTsNs hnew ha hsmo ih =>
    obtain ⟨w, c, r, hs⟩ := ih
    exact ((hs.updated hnew ha).1 hsmo).2.2

/-- The reader follows an image if it has room for it, and after that each update whose levels the
book of the pipeline tolerates one by one and of which at least one is in the windows. -/
theorem feed_follows_iff (s : FeedSetup) :
    (∀ image exchangeTsNs, (s.opened image exchangeTsNs).1.published = .applied →
      (Feed.Followed (s.opened image exchangeTsNs) ↔ image.Small)) ∧
    ∀ f, s.Run f → ∀ update exchangeTsNs,
      f.pipeline.bridge.lastUpdateId < update.finalUpdateId →
      (s.updated f update exchangeTsNs).1.published = .applied →
      (Quiet (s.updated f update exchangeTsNs).1.results ↔
        Smooth f.pipeline.bridge.book (f.pipeline.bridge.deltas update)) ∧
      (Feed.Followed (s.updated f update exchangeTsNs) ↔
        Smooth f.pipeline.bridge.book (f.pipeline.bridge.deltas update) ∧ f.pipeline.bridge.deltas update ≠ []) := by
  refine ⟨fun image exchangeTsNs ha => (opened_followed ha).1, fun f hrun update exchangeTsNs hnew ha => ?_⟩
  obtain ⟨w, c, r, hs⟩ := hrun.synced
  obtain ⟨hyes, hno⟩ := hs.updated hnew ha
  by_cases hsmooth : Smooth f.pipeline.bridge.book (f.pipeline.bridge.deltas update)
  · obtain ⟨hquiet, hfol, -⟩ := hyes hsmooth
    exact ⟨iff_of_true hquiet hsmooth, by rw [hfol, and_iff_right hsmooth]⟩
  · exact ⟨iff_of_false (hno hsmooth) hsmooth, iff_of_false (fun hf => hno hsmooth hf.1) fun h => hsmooth h.1⟩

def sampleSetup : FeedSetup where
  ladderCapacity := 8
  instrument := { instrumentId := 7, tickSize := 1 }
  selector := {}
  publisher := {}
  generation := 1
  clock := fun ringSequence => ringSequence
  named := by decide
  selects := by decide

def sampleFeed : Feed := (sampleSetup.opened sampleSnapshot 0).2

def smoothUpdate : DepthUpdate :=
  { firstUpdateId := 11, finalUpdateId := 12, bids := [⟨100, 0⟩, ⟨98, 6⟩], asks := [⟨101, 0⟩, ⟨300, 9⟩] }

theorem feed_follows_iff_sample :
    Feed.Followed (sampleSetup.opened sampleSnapshot 0) ∧
      Feed.Followed (sampleSetup.updated sampleFeed smoothUpdate 0) := by
  have ha : (sampleSetup.opened sampleSnapshot 0).1.published = .applied := by decide +kernel
  have hrun : sampleSetup.Run sampleFeed := .opened sampleSnapshot 0 ha (by decide +kernel)
  obtain ⟨hopened, hupdated⟩ := feed_follows_iff sampleSetup
  refine ⟨(hopened _ 0 ha).mpr (by decide +kernel), ?_⟩
  refine (hupdated sampleFeed hrun smoothUpdate 0 (by decide +kernel) (by decide +kernel)).2.mpr ?_
  exact ⟨by decide +kernel, by decide +kernel⟩

def crossingUpdate : DepthUpdate :=
  { firstUpdateId := 11, finalUpdateId := 12, bids := [⟨101, 5⟩], asks := [⟨101, 0⟩, ⟨102, 3⟩] }

/-- The pipeline applies the update as a whole, but its first level alone crosses the book of the
reader. -/
theorem crossing_level_needs_resync :
    sampleSetup.Run sampleFeed ∧
      sampleFeed.pipeline.bridge.lastUpdateId < crossingUpdate.finalUpdateId ∧
      (sampleSetup.updated sampleFeed crossingUpdate 0).1.published = .applied ∧
      .needResync ∈ (sampleSetup.updated sampleFeed crossingUpdate 0).1.results ∧
      (sampleSetup.updated sampleFeed crossingUpdate 0).1.input = none :=
  ⟨.opened sampleSnapshot 0 (by decide +kernel) (by decide +kernel), by decide +kernel,
    by decide +kernel, by decide +kernel, by decide +kernel⟩

end FeedSetup

end SelfQuant.Mds
