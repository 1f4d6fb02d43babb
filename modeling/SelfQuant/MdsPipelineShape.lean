import SelfQuant.MdsBookPipeline
import SelfQuant.MdsBridgeRun

namespace SelfQuant.Mds

open BookBridge OrderBook

variable {b b' b'' : BookBridge} {book : OrderBook} {side : Side} {levels : List Level} {snap : DepthSnapshot}

variable (l : Ladder)

structure Ladder.SameShape (l' : Ladder) : Prop where
  side : l'.side = l.side
  capacity : l'.capacity = l.capacity

theorem Ladder.SameShape.refl : l.SameShape l := ⟨rfl, rfl⟩

theorem Ladder.put_shape (index : Nat) (qty : Int) : l.SameShape (l.put index qty) := by
  unfold put
  split
  next =>
    dsimp only
    split
    next => exact ⟨rfl, rfl⟩
    next => exact ⟨rfl, rfl⟩
  next => exact ⟨rfl, rfl⟩

theorem Ladder.apply_shape (price qty : Int) : l.SameShape (l.apply price qty).2 := by
  unfold apply
  split
  next => exact .refl l
  split
  next => exact ⟨rfl, rfl⟩
  dsimp only
  split
  next => exact ⟨rfl, rfl⟩
  next => exact l.put_shape _ _

namespace BookBridge

/-- Only what the books hold has changed, and how far the bridge has come. -/
structure Kindred (b b' : BookBridge) : Prop where
  ladder : ∀ side, (b.book.ladder side).SameShape (b'.book.ladder side)
  allowEmptySides : b'.allowEmptySides = b.allowEmptySides

theorem Kindred.refl (b : BookBridge) : Kindred b b := ⟨fun _ => .refl _, rfl⟩

theorem Kindred.trans (h : Kindred b b') (h' : Kindred b' b'') : Kindred b b'' :=
  ⟨fun side => ⟨(h'.ladder side).side.trans (h.ladder side).side,
    (h'.ladder side).capacity.trans (h.ladder side).capacity⟩, h'.allowEmptySides.trans h.allowEmptySides⟩

theorem Kindred.shaped (h : Kindred b b') (hs : Shaped b.book) : Shaped b'.book := by
  refine ⟨(h.ladder .bid).side.trans hs.bids, (h.ladder .ask).side.trans hs.asks, ?_⟩
  have has : b'.book.asks.capacity = b.book.asks.capacity := (h.ladder .ask).capacity
  have hbi : b'.book.bids.capacity = b.book.bids.capacity := (h.ladder .bid).capacity
  rw [has, hbi, hs.capacity]

theorem Kindred.relabel (h : Kindred b b') (id : Nat) (loaded : Bool) (reason : BridgeResyncReason) :
    Kindred b { b' with lastUpdateId := id, loaded := loaded, lastResyncReason := reason } :=
  ⟨h.ladder, h.allowEmptySides⟩

theorem Kindred.reset (h : Kindred b b') (bidBase askBase tick : Int) (gen : Nat) :
    Kindred b { b' with book := b'.book.reset bidBase askBase tick gen } := by
  refine ⟨fun side => ?_, h.allowEmptySides⟩
  have hsi := h.ladder side
  cases side <;> exact ⟨hsi.side, hsi.capacity⟩

theorem setLive_kindred : Kindred b b.setLive := by
  refine ⟨fun side => ?_, rfl⟩
  show (b.book.ladder side).SameShape (b.book.setLive.ladder side)
  rw [ladder_setLive, Ladder.setLive_frame]
  exact ⟨rfl, rfl⟩

theorem kindred_of_apply {level : Level} {result : LadderResult}
    (h : b.book.apply side level.price level.quantity = (result, book)) : Kindred b { b with book := book } := by
  obtain rfl : (b.book.apply side level.price level.quantity).2 = book := by rw [h]
  refine ⟨fun other => ?_, rfl⟩
  show (b.book.ladder other).SameShape ((b.book.setLadder _ side).ladder other)
  rw [ladder_setLadder]
  split
  next hsi =>
    subst hsi
    exact Ladder.apply_shape _ _ _
  next => exact .refl _

theorem loadSide_kindred (inside outside : Nat) : Kindred b (b.loadSide side levels inside outside).2.1 := by
  induction levels generalizing b inside outside with
  | nil => exact .refl b
  | cons level levels ih =>
    unfold loadSide
    split
    next => exact ih _ _
    split
    next => exact ih _ _
    split
    next book hbk => exact (kindred_of_apply hbk).trans (ih _ _)
    next book hbk => exact kindred_of_apply hbk

theorem applySide_kindred (oldBest : Int) (deletedBest : Bool) :
    Kindred b (b.applySide side oldBest levels deletedBest).2.2 := by
  induction levels generalizing b deletedBest with
  | nil => exact .refl b
  | cons level levels ih =>
    unfold applySide
    split
    next =>
      have hctd : Kindred b { b with outsideUpdatesIgnored := b.outsideUpdatesIgnored + 1 } := ⟨fun _ => .refl _, rfl⟩
      exact hctd.trans (ih _)
    next =>
      split
      next book hbk => exact (kindred_of_apply hbk).trans (ih _)
      next book hbk => exact kindred_of_apply hbk

theorem loadLevels_kindred (gen : Nat) : Kindred b (b.loadLevels snap gen).2 := by
  have hbi : Kindred b (b.loadSide .bid snap.bids 0 0).2.1 := loadSide_kindred 0 0
  unfold loadLevels
  generalize b.loadSide .bid snap.bids 0 0 = bids at *
  obtain ⟨bidsOk, b1, loadedBids, outsideBids⟩ := bids
  have has : Kindred b (if bidsOk then b1.loadSide .ask snap.asks 0 0 else (false, b1, 0, 0)).2.1 := by
    split
    next => exact hbi.trans (loadSide_kindred 0 0)
    next => exact hbi
  dsimp only
  generalize (if bidsOk then b1.loadSide .ask snap.asks 0 0 else (false, b1, 0, 0)) = asks at *
  split
  next => exact has.reset _ _ _ _
  next => exact has.relabel _ _ _

theorem loadSnapshot_kindred (snap : DepthSnapshot) (gen : Nat) : Kindred b (b.loadSnapshot snap gen).2 := by
  have hbg : Kindred b (b.beginLoad snap gen) := by
    have hreset := (Kindred.refl b).reset 0 0 0 gen
    exact ⟨hreset.ladder, hreset.allowEmptySides⟩
  unfold loadSnapshot
  dsimp only
  split
  next => exact hbg
  split
  next => exact hbg
  split
  next => exact hbg
  split
  next => exact hbg
  refine Kindred.trans ?_ (loadLevels_kindred gen)
  exact ⟨(hbg.reset _ _ _ _).ladder, hbg.allowEmptySides⟩

theorem settle_kindred (deletedBestBid deletedBestAsk : Bool) (finalUpdateId : Nat) :
    Kindred b (b.settle deletedBestBid deletedBestAsk finalUpdateId).2 := by
  unfold settle resync
  split
  next => exact (Kindred.refl b).relabel _ _ _
  split
  next => exact (Kindred.refl b).relabel _ _ _
  split
  next => exact (Kindred.refl b).relabel _ _ _
  next => exact (Kindred.refl b).relabel _ _ _

theorem apply_kindred (update : DepthUpdate) : Kindred b (b.apply update).2 := by
  unfold apply
  split
  next => exact (Kindred.refl b).relabel _ _ _
  split
  next => exact (Kindred.refl b).relabel _ _ _
  split
  next => exact .refl b
  dsimp only
  split
  next => exact (Kindred.refl b).relabel _ _ _
  split
  next => exact (Kindred.refl b).relabel _ _ _
  have hbi : Kindred b (b.applySide .bid ((b.book.bids.best.map (·.price)).getD int64Min)
      update.bids false).2.2 := applySide_kindred _ _
  generalize b.applySide .bid ((b.book.bids.best.map (·.price)).getD int64Min) update.bids false = bids at *
  obtain ⟨bidsOk, deletedBestBid, b1⟩ := bids
  split
  next => exact hbi.relabel _ _ _
  have has : Kindred b (b1.applySide .ask ((b.book.asks.best.map (·.price)).getD int64Max)
      update.asks false).2.2 := hbi.trans (applySide_kindred _ _)
  split
  next => exact has.relabel _ _ _
  next => exact has.trans (settle_kindred _ _ _)

end BookBridge

namespace BookPipeline

variable {p p' : BookPipeline}

/-- The pipelines that calls can lead to, whether or not they succeed. -/
inductive Used : BookPipeline → Prop
  | create (instrumentId ladderTicksPerSide : Nat) (tickSize : Int) (publisher : Option WirePublisher)
      (refineSnapshotTick allowEmptySides : Bool) :
      Used (create instrumentId ladderTicksPerSide tickSize publisher refineSnapshotTick allowEmptySides)
  | prepareSnapshotTick {p : BookPipeline} (h : Used p) (bids asks : List Level) :
      Used { p with bridge := p.bridge.prepareSnapshotTick bids asks }
  | publishCanonical {p : BookPipeline} (h : Used p) (header : EventHeader) : Used (p.publishCanonical header).2
  | loadImage {p : BookPipeline} (h : Used p) (header : EventHeader) (imageSequence : Nat) (bids asks : List Level)
      (publishImage : Bool) : Used (p.loadImage header imageSequence bids asks publishImage).2
  | applyDelta {p : BookPipeline} (h : Used p) (header : EventHeader) (update : DepthUpdate) (publishDelta : Bool) :
      Used (p.applyDelta header update publishDelta).2

structure Fit (p : BookPipeline) : Prop where
  shaped : Shaped p.bridge.book
  capacity : 0 < p.bridge.book.bids.capacity
  allowEmptySides : p.bridge.allowEmptySides = p.allowEmptySides

theorem Fit.kindred (h : p.Fit) (hk : Kindred p.bridge p'.bridge)
    (he : p'.allowEmptySides = p.allowEmptySides) : p'.Fit := by
  refine ⟨hk.shaped h.shaped, ?_, ?_⟩
  · rw [show p'.bridge.book.bids.capacity = p.bridge.book.bids.capacity from (hk.ladder .bid).capacity]
    exact h.capacity
  · rw [hk.allowEmptySides, h.allowEmptySides, he]

theorem Fit.withPublisher (h : p.Fit) (publisher : Option WirePublisher) : Fit { p with publisher := publisher } :=
  ⟨h.shaped, h.capacity, h.allowEmptySides⟩

theorem publishCanonical_frame (header : EventHeader) : (p.publishCanonical header).2.bridge = p.bridge ∧
      (p.publishCanonical header).2.allowEmptySides = p.allowEmptySides := by
  unfold publishCanonical
  split
  next => exact ⟨rfl, rfl⟩
  split
  next => exact ⟨rfl, rfl⟩
  next => exact ⟨rfl, rfl⟩

theorem Fit.publishCanonical (h : p.Fit) (header : EventHeader) : (p.publishCanonical header).2.Fit := by
  obtain ⟨hbr, hsds⟩ := p.publishCanonical_frame header
  exact h.kindred (by rw [hbr]; exact .refl _) hsds

theorem Fit.loadImage (h : p.Fit) (header : EventHeader) (seq : Nat) (bids asks : List Level)
    (publishImage : Bool) : (p.loadImage header seq bids asks publishImage).2.Fit := by
  have hld := loadSnapshot_kindred (b := p.bridge) ⟨seq, bids, asks⟩ header.bookGeneration
  have hlv := hld.trans setLive_kindred
  unfold BookPipeline.loadImage
  dsimp only
  split
  next => exact h.kindred hld rfl
  split
  next w hw _ =>
    split
    next => exact h.kindred hlv rfl
    next w' _ =>
    have hfit : Fit { p with
        bridge := (p.bridge.loadSnapshot ⟨seq, bids, asks⟩ header.bookGeneration).2.setLive
        publisher := some w' } := h.kindred hlv rfl
    have hcan := hfit.publishCanonical
      { header with instrumentId := p.instrumentId, sourceSeq := seq, state := .live }
    split
    next p' hp => rwa [hp] at hcan
    next p' hp => rwa [hp] at hcan
  next => exact h.kindred hlv rfl

theorem Fit.applyDelta (h : p.Fit) (header : EventHeader) (update : DepthUpdate) (publishDelta : Bool) :
    (p.applyDelta header update publishDelta).2.Fit := by
  have hfit : Fit { p with bridge := (p.bridge.apply update).2 } := h.kindred (apply_kindred update) rfl
  unfold BookPipeline.applyDelta
  dsimp only
  split
  next => exact hfit
  next => exact hfit
  split
  next w hw _ =>
    split
    next => exact hfit.withPublisher _
    split
    next => exact hfit.withPublisher _
    next w' _ =>
    have hcan := (hfit.withPublisher (some w')).publishCanonical header
    split
    next p' hp => rwa [hp] at hcan
    next p' hp => rwa [hp] at hcan
  next => exact hfit

theorem Used.fit (h : Used p) : p.Fit := by
  induction h with
  | create instrumentId ladderTicksPerSide tickSize publisher refineSnapshotTick allowEmptySides =>
    exact ⟨create_shaped _, lt_of_lt_of_le zero_lt_one (le_max_left 1 _), rfl⟩
  | prepareSnapshotTick _ bids asks ih => exact ⟨ih.shaped, ih.capacity, ih.allowEmptySides⟩
  | publishCanonical _ header ih => exact ih.publishCanonical header
  | loadImage _ header imageSequence bids asks publishImage ih => exact ih.loadImage _ _ _ _ _
  | applyDelta _ header update publishDelta ih => exact ih.applyDelta _ _ _

end BookPipeline

end SelfQuant.Mds
