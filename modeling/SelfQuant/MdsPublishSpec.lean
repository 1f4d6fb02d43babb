import SelfQuant.MdsBookPipeline

namespace SelfQuant.Mds

open List

/-- What is to be written into a record: the event, the flags and the body. -/
structure Item where
  header : EventHeader
  flags : Nat
  body : Body

namespace Item

def Encodable (item : Item) : Prop := validFlags item.body item.flags ∧ validBody item.header.instrumentId item.body

def record (item : Item) (bus : Nat) : WireRecord :=
  ⟨WirePublisher.headerFields item.header bus item.flags, item.body⟩

end Item

namespace WirePublisher

variable {w w' w'' : WirePublisher} {header : EventHeader} {flags : Nat} {body : Body}
  {items items' : List Item} {levels bids asks : List Level} {side : Side}

def numbered : Nat → Nat → List Item → List Published
  | _, _, [] => []
  | bus, ring, item :: items =>
    ⟨ring + 1, item.body.type, item.record (bus + 1)⟩ :: numbered (bus + 1) (ring + 1) items

structure Wrote (w w' : WirePublisher) (items : List Item) : Prop where
  published : w'.published = w.published ++ numbered w.currentBusSeq w.ringSequence items
  bus : w'.currentBusSeq = w.currentBusSeq + items.length
  ring : w'.ringSequence = w.ringSequence + items.length
  encodable : ∀ item ∈ items, item.Encodable

theorem numbered_append (bus ring : Nat) : numbered bus ring (items ++ items') =
    numbered bus ring items ++ numbered (bus + items.length) (ring + items.length) items' := by
  induction items generalizing bus ring with
  | nil => rfl
  | cons item items ih =>
    simp only [cons_append, numbered, length_cons]
    rw [ih, show bus + 1 + items.length = bus + (items.length + 1) by omega,
      show ring + 1 + items.length = ring + (items.length + 1) by omega]

theorem Wrote.refl : Wrote w w [] := by
  refine ⟨?_, rfl, rfl, fun _ h => absurd h not_mem_nil⟩
  rw [numbered, append_nil]

theorem Wrote.trans (h : Wrote w w' items) (h' : Wrote w' w'' items') : Wrote w w'' (items ++ items') := by
  refine ⟨?_, ?_, ?_, fun item hmem => ?_⟩
  · rw [h'.published, h.published, h.bus, h.ring, append_assoc, numbered_append]
  · rw [h'.bus, h.bus, length_append]
    omega
  · rw [h'.ring, h.ring, length_append]
    omega
  · obtain hmem | hmem := mem_append.mp hmem
    · exact h.encodable item hmem
    · exact h'.encodable item hmem

theorem publish_wrote (h : w.publish header flags body = (true, w')) :
    Wrote w w' [⟨header, flags, body⟩] ∧ validLevels body := by
  unfold publish at h
  split at h
  next => cases h
  split at h
  next => cases h
  dsimp only at h
  split at h
  next => cases h
  next record hrec =>
  unfold encode at hrec
  split at hrec
  next hval =>
    cases hrec
    cases h
    refine ⟨⟨rfl, rfl, rfl, fun item hmem => ?_⟩, hval.2.2⟩
    rw [mem_singleton.mp hmem]
    exact ⟨hval.1, hval.2.1⟩
  next => cases hrec

def chunkItems (header : EventHeader) (side : Side) : Nat → Nat → List Level → List Item
  | _, _, [] => []
  | 0, _, _ => []
  | turns + 1, chunkIndex, levels =>
    ⟨header, 0, .snapshotChunk chunkIndex side (levels.take kSnapshotLevelsPerChunk)⟩ ::
      chunkItems header side turns (chunkIndex + 1) (levels.drop kSnapshotLevelsPerChunk)

theorem chunkItems_step {turns chunk : Nat} (hne : levels ≠ []) :
    chunkItems header side (turns + 1) chunk levels =
      ⟨header, 0, .snapshotChunk chunk side (levels.take kSnapshotLevelsPerChunk)⟩ ::
        chunkItems header side turns (chunk + 1) (levels.drop kSnapshotLevelsPerChunk) := by
  cases levels with
  | nil => exact absurd rfl hne
  | cons level levels => rfl

theorem publishSide_wrote {turns chunk : Nat} (h : publishSide header side turns chunk levels w = (true, w')) :
    Wrote w w' (chunkItems header side turns chunk levels) := by
  induction turns generalizing chunk levels w with
  | zero =>
    cases levels with
    | nil | cons =>
      cases h
      exact .refl
  | succ turns ih =>
    cases levels with
    | nil =>
      cases h
      exact .refl
    | cons level levels =>
      rw [publishSide] at h
      · split at h
        next => cases h
        next w1 hp => exact (publish_wrote hp).1.trans (ih h)
      · exact fun he => by cases he

def snapshotItems (header : EventHeader) (bids asks : List Level) : List Item :=
  ⟨header, 0, .snapshotBegin (bids.length + asks.length) (chunkCount bids.length + chunkCount asks.length)⟩ ::
    (chunkItems header .bid bids.length 0 bids ++ chunkItems header .ask asks.length 0 asks ++
      [⟨header, 0, .snapshotEnd (bids.length + asks.length) 0⟩])

theorem publishSnapshot_wrote (h : w.publishSnapshot header bids asks = (true, w')) :
    Wrote w w' (snapshotItems header bids asks) := by
  unfold publishSnapshot at h
  dsimp only at h
  split at h
  next => cases h
  split at h
  next => cases h
  next w1 hbg =>
  split at h
  next => cases h
  next w2 hbi =>
  split at h
  next => cases h
  next w3 has =>
  have hall := (publish_wrote hbg).1.trans
    (((publishSide_wrote hbi).trans (publishSide_wrote has)).trans (publish_wrote h).1)
  exact hall

theorem publishSnapshot_size (h : w.publishSnapshot header bids asks = (true, w')) :
    bids.length + asks.length < 2 ^ 32 := by
  unfold publishSnapshot at h
  dsimp only at h
  split at h
  next => cases h
  next hsz => omega

end WirePublisher

namespace BookPipeline

open WirePublisher

variable {p p' : BookPipeline} {w w' : WirePublisher} {header : EventHeader} {levels bids asks : List Level}
  {side : Side} {update : DepthUpdate} {seq : Nat}

def stamped (p : BookPipeline) (header : EventHeader) : EventHeader :=
  { header with instrumentId := p.instrumentId, state := .live }

def deltaItems (p : BookPipeline) (header : EventHeader) (side : Side) (levels : List Level) : List Item :=
  (levels.filter fun level => p.bridge.inWindow side level.price).map fun level =>
    ⟨p.stamped header, 0, .bookDelta side level⟩

def bboItem (p : BookPipeline) (header : EventHeader) (bid ask : Level) : Item :=
  ⟨{ p.stamped header with bboOrigin := .orderBookStream }, kBboOriginOrderBookStream, .bbo bid ask⟩

theorem publishLevels_wrote (h : p.publishLevels header side levels w = (true, w')) :
    Wrote w w' (p.deltaItems header side levels) := by
  induction levels generalizing w with
  | nil =>
    cases h
    exact .refl
  | cons level levels ih =>
    unfold publishLevels at h
    split at h
    next hin =>
      dsimp only at h
      split at h
      next => cases h
      next w1 hd =>
      have hwr := (publish_wrote hd).1.trans (ih h)
      rw [deltaItems, filter_cons_of_pos (by exact hin)]
      exact hwr
    next hin =>
      rw [deltaItems, filter_cons_of_neg (by exact hin)]
      exact ih h

/-- What is written about the best levels: nothing if a side is empty and may be so. -/
def Canonical (p : BookPipeline) (header : EventHeader) (items : List Item) : Prop :=
  p.allowEmptySides = true ∧ p.bridge.book.bbo = none ∧ items = [] ∨
    ∃ bid ask, p.bridge.book.bbo = some (bid, ask) ∧ items = [p.bboItem header bid ask]

theorem Canonical.both {items : List Item} (h : p.Canonical header items) (hs : p.allowEmptySides = false) :
    ∃ bid ask, p.bridge.book.bbo = some (bid, ask) ∧ items = [p.bboItem header bid ask] := by
  rcases h with ⟨hemp, -⟩ | hboth
  · rw [hs] at hemp
    cases hemp
  · exact hboth

theorem publishCanonical_wrote (h : p.publishCanonical header = (true, p')) (hw : p.publisher = some w) :
    ∃ w' items, p' = { p with publisher := some w' } ∧ p.Canonical header items ∧ Wrote w w' items := by
  unfold publishCanonical at h
  split at h
  next hbbo =>
    obtain ⟨hs, rfl⟩ := Prod.mk.inj h
    exact ⟨w, [], by rw [← hw], .inl ⟨hs, hbbo, rfl⟩, .refl⟩
  next bid ask hbbo =>
    rw [hw] at h
    dsimp only at h
    cases hp : w.publishBbo { header with
        instrumentId := p.instrumentId, state := .live, bboOrigin := .orderBookStream } bid ask with
    | mk ok w' =>
      rw [hp] at h
      cases h
      exact ⟨w', _, rfl, .inr ⟨bid, ask, hbbo, rfl⟩, (publish_wrote hp).1⟩

theorem loadImage_wrote (hw : p.publisher = some w)
    (h : p.loadImage header seq bids asks true = (.applied, p')) :
    (p.bridge.loadSnapshot ⟨seq, bids, asks⟩ header.bookGeneration).1.action = .applied ∧
    bids.length + asks.length < 2 ^ 32 ∧
    ∃ w' items,
      p' = { p with
        bridge := (p.bridge.loadSnapshot ⟨seq, bids, asks⟩ header.bookGeneration).2.setLive
        publisher := some w' } ∧
      p'.Canonical { header with sourceSeq := seq } items ∧
      Wrote w w' (snapshotItems { p.stamped header with sourceSeq := seq } bids asks ++ items) := by
  unfold loadImage at h
  dsimp only at h
  split at h
  next => cases h
  next ha =>
  rw [not_not] at ha
  rw [hw] at h
  dsimp only at h
  split at h
  next => cases h
  next w1 hsna =>
  split at h
  next => cases h
  next p2 hcan =>
  cases h
  obtain ⟨w2, items, rfl, hcanonical, hwr⟩ := publishCanonical_wrote hcan rfl
  exact ⟨ha, publishSnapshot_size hsna, w2, items, rfl, hcanonical, (publishSnapshot_wrote hsna).trans hwr⟩

theorem applyDelta_wrote (hw : p.publisher = some w) (h : p.applyDelta header update true = (.applied, p')) :
    (p.bridge.apply update).1 = .applied ∧
    ∃ w' items,
      p' = { p with bridge := (p.bridge.apply update).2, publisher := some w' } ∧
      p'.Canonical header items ∧
      Wrote w w' (p'.deltaItems header .bid update.bids ++ p'.deltaItems header .ask update.asks ++ items) := by
  unfold applyDelta at h
  dsimp only at h
  split at h
  next => cases h
  next => cases h
  next ha =>
  rw [hw] at h
  dsimp only at h
  split at h
  next => cases h
  next w1 hbi =>
  split at h
  next => cases h
  next w2 has =>
  split at h
  next => cases h
  next p3 hcan =>
  cases h
  obtain ⟨w3, items, rfl, hcanonical, hwr⟩ := publishCanonical_wrote hcan rfl
  exact ⟨ha, w3, items, rfl, hcanonical, ((publishLevels_wrote hbi).trans (publishLevels_wrote has)).trans hwr⟩

end BookPipeline

end SelfQuant.Mds
