import SelfQuant.MdsBridgeLoad

namespace SelfQuant.Mds

open ReferenceBook Ladder OrderBook Option

/-- A bridge that has taken over a snapshot and since then applied every update, and the book
without bounds that it follows. -/
inductive BookBridge.Following : ReferenceBook → BookBridge → Prop
  | load {b : BookBridge} {snapshot : DepthSnapshot} {generation : Nat} (hs : Shaped b.book)
      (he : b.allowEmptySides = false)
      (ha : (b.loadSnapshot snapshot generation).1.action = .applied) :
      Following (load snapshot) (b.loadSnapshot snapshot generation).2
  | setLive {r b} (h : Following r b) : Following r b.setLive
  | apply {r b} (h : Following r b) (update : DepthUpdate) (ha : (b.apply update).1 = .applied) :
      Following (r.apply update) (b.apply update).2

variable {l : Ladder} {m : Depth} {b : BookBridge} {r : ReferenceBook} {depth : Side → Depth}
  {side : Side} {price : Int} {update : DepthUpdate} {gen : Nat} {oldBest : Int}

theorem Ladder.Holds.setLive (h : l.Holds m) : l.setLive.Holds m := by
  unfold Ladder.setLive
  split
  next => exact ⟨⟨h.sound.nonneg, h.sound.occupied, h.sound.within, h.sound.best⟩, h.tick, .inr rfl,
      h.nonneg, h.inside, h.outside⟩
  next => exact h

theorem Ladder.setLive_frame : l.setLive = { l with state := l.setLive.state } := by
  unfold setLive
  split <;> rfl

theorem OrderBook.ladder_setLive (book : OrderBook) : book.setLive.ladder side = (book.ladder side).setLive := by
  cases side <;> rfl

theorem OrderBook.create_shaped (cap : Nat) : BookBridge.Shaped (create cap) := ⟨rfl, rfl, rfl⟩

namespace BookBridge

theorem setLive_capacity : b.setLive.book.bids.capacity = b.book.bids.capacity := by
  show b.book.bids.setLive.capacity = _
  rw [setLive_frame]

theorem Tracking.setLive (h : Tracking b depth) : Tracking b.setLive depth := by
  refine ⟨fun side => ?_, fun side => ?_, fun side => ?_⟩
  · show (b.book.setLive.ladder side).Holds _
    rw [ladder_setLive]
    exact (h.holds side).setLive
  · show (b.book.setLive.ladder side).side = _
    rw [ladder_setLive, setLive_frame]
    exact h.sides side
  · have hw : b.setLive.window side = b.window side := by
      unfold window
      rw [setLive_capacity]
      cases side <;> rfl
    show (b.book.setLive.ladder side).window = _
    rw [ladder_setLive, setLive_frame, hw]
    exact h.windows side

theorem Uncrossed.setLive {book : OrderBook} (h : Uncrossed book) : Uncrossed book.setLive := by
  obtain ⟨bid, ask, hbid, hask, hlt⟩ := h
  refine ⟨bid, ask, ?_, ?_, hlt⟩
  · show book.bids.setLive.best = _
    rw [setLive_frame]
    exact hbid
  · show book.asks.setLive.best = _
    rw [setLive_frame]
    exact hask

structure InStep (r : ReferenceBook) (b : BookBridge) : Prop where
  tracking : Tracking b r.depth
  uncrossed : Uncrossed b.book
  loaded : b.loaded
  lastUpdateId : b.lastUpdateId = r.lastUpdateId
  strict : b.allowEmptySides = false

theorem apply_stale (hl : b.loaded) (hrg : update.firstUpdateId ≤ update.finalUpdateId)
    (hold : update.finalUpdateId ≤ b.lastUpdateId) : b.apply update = (.applied, b) := by
  unfold apply
  rw [if_neg (by simp [hl]), if_neg (by omega), if_pos hold]

theorem range_of_applied (h : (b.apply update).1 = .applied) : update.firstUpdateId ≤ update.finalUpdateId := by
  unfold apply at h
  split at h
  next => cases h
  split at h
  next => cases h
  next hr => exact not_lt.mp hr

theorem InStep.apply (h : InStep r b) (ha : (b.apply update).1 = .applied) :
    InStep (r.apply update) (b.apply update).2 := by
  unfold ReferenceBook.apply
  by_cases hold : update.finalUpdateId ≤ r.lastUpdateId
  · rw [if_pos hold, apply_stale h.loaded (range_of_applied ha) (by rw [h.lastUpdateId]; exact hold)]
    exact h
  · rw [if_neg hold]
    obtain ⟨bid, ask, hp⟩ := passes_of_applied h.strict (by rw [h.lastUpdateId]; omega) ha
    obtain ⟨deletedBid, b1, deletedAsk, b2, _, _, heq, hm, htrk⟩ := h.tracking.apply_eq hp
    have hstr : b2.allowEmptySides = false := by
      rw [hm.frame]
      exact h.strict
    rw [heq] at ha ⊢
    rw [settle_of_applied ha]
    refine ⟨htrk.relabel _ b2.loaded, ((settle_eq hstr).mp ha).2.2, ?_, rfl, hstr⟩
    rw [hm.frame]
    exact h.loaded

theorem Following.inStep (h : Following r b) : InStep r b := by
  induction h with
  | load hs he ha =>
    obtain ⟨htrk, hl, hid, hstr, -, hu⟩ :=
      loadSnapshot_tracking hs (fun hemp => absurd (he.symm.trans hemp) Bool.false_ne_true) ha
    exact ⟨htrk, hu he, hl, hid, hstr.trans he⟩
  | setLive _ ih => exact ⟨ih.tracking.setLive, ih.uncrossed.setLive, ih.loaded, ih.lastUpdateId, ih.strict⟩
  | apply _ update ha ih => exact ih.apply ha

def quantityAt (b : BookBridge) (side : Side) (price : Int) : Int :=
  match (b.book.ladder side).at? (price / b.tickSize - b.baseTicks side).toNat with
  | some level => level.quantity
  | none => 0

theorem Tracking.quantityAt (h : Tracking b depth) (hin : b.inWindow side price) :
    b.quantityAt side price = depth side price := by
  obtain ⟨hp, i, hi, hpx⟩ := (inWindow_iff h.tick).mp hin
  have hix : (price / b.tickSize - b.baseTicks side).toNat = i := by
    rw [hpx]
    show (((b.baseTicks side + i) * b.tickSize) / b.tickSize - b.baseTicks side).toNat = i
    rw [Int.mul_ediv_cancel _ (Int.ne_of_gt h.tick)]
    omega
  have hl := h.holds side
  rw [← h.windows side] at hi hpx
  have hins := hl.inside i hi
  rw [← hpx] at hins
  unfold BookBridge.quantityAt Ladder.at?
  rw [hix]
  split
  next level hlvl =>
    split at hlvl
    next => cases hlvl
    rw [← some.inj hlvl]
    exact hins
  next hnone =>
    split at hnone
    next hout =>
      have hze : ¬0 < (b.book.ladder side).quantities i := by
        rw [← hl.sound.occupied]
        obtain hge | hno := hout
        · exact absurd hi (by simp only [Ladder.window]; omega)
        · simpa using hno
      have := hl.sound.nonneg i
      omega
    next => cases hnone

/-- As long as everything is applied, the ladders show the book without bounds within their windows,
and its best levels are in there. -/
theorem bridge_follows_reference (h : Following r b) :
    (∀ side price, b.inWindow side price → b.quantityAt side price = r.depth side price) ∧
      ∃ bid ask, b.book.bids.best = some bid ∧ b.book.asks.best = some ask ∧
        IsBest .bid (r.depth .bid) bid ∧ IsBest .ask (r.depth .ask) ask ∧ bid.price < ask.price := by
  have hs := h.inStep
  refine ⟨fun side price hin => hs.tracking.quantityAt hin, ?_⟩
  obtain ⟨bid, ask, hbid, hask, hlt⟩ := hs.uncrossed
  refine ⟨bid, ask, hbid, hask, ?_, ?_, hlt⟩
  · have hbest := (hs.tracking.holds .bid).isBest hbid
    rwa [hs.tracking.sides .bid] at hbest
  · have hbest := (hs.tracking.holds .ask).isBest hask
    rwa [hs.tracking.sides .ask] at hbest

def sampleBridge : BookBridge := BookBridge.create (OrderBook.create 8) 1 false false

def sampleSnapshot : DepthSnapshot :=
  { lastUpdateId := 10, bids := [⟨100, 5⟩, ⟨99, 3⟩, ⟨10, 7⟩], asks := [⟨101, 4⟩, ⟨102, 2⟩, ⟨200, 1⟩] }

def sampleUpdate : DepthUpdate :=
  { firstUpdateId := 11, finalUpdateId := 12, bids := [⟨100, 0⟩, ⟨101, 6⟩], asks := [⟨101, 0⟩, ⟨300, 9⟩] }

def sampleLoaded : BookBridge := (sampleBridge.loadSnapshot sampleSnapshot 1).2.setLive

theorem bridge_follows_reference_sample :
    (∀ side price, (sampleLoaded.apply sampleUpdate).2.inWindow side price →
      (sampleLoaded.apply sampleUpdate).2.quantityAt side price =
        ((load sampleSnapshot).apply sampleUpdate).depth side price) ∧
      ∃ bid ask, (sampleLoaded.apply sampleUpdate).2.book.bids.best = some bid ∧
        (sampleLoaded.apply sampleUpdate).2.book.asks.best = some ask ∧
        IsBest .bid (((load sampleSnapshot).apply sampleUpdate).depth .bid) bid ∧
        IsBest .ask (((load sampleSnapshot).apply sampleUpdate).depth .ask) ask ∧
        bid.price < ask.price := by
  have hload : Following (load sampleSnapshot) sampleLoaded :=
    .setLive (.load (OrderBook.create_shaped 8) rfl (by decide +kernel))
  exact bridge_follows_reference (hload.apply sampleUpdate (by decide +kernel))

end BookBridge

variable {b' : BookBridge} {book : OrderBook} {level : Level} {levels : List Level} {id : Nat}

namespace OrderBook

def after (book : OrderBook) (delta : Side × Level) : OrderBook :=
  (book.apply delta.1 delta.2.price delta.2.quantity).2

def afterAll (book : OrderBook) (deltas : List (Side × Level)) : OrderBook := deltas.foldl after book

def lastPlace (book : OrderBook) : Side → Nat
  | .bid => 0
  | .ask => book.asks.capacity - 1

end OrderBook

open OrderBook

namespace BookBridge

/-- The level does no harm on its own: it leaves a book with two sides that do not cross, and if it
deletes the best price of its side then the next one is not at the end of the window. -/
def Tolerated (book : OrderBook) (delta : Side × Level) : Prop :=
  Uncrossed (book.after delta) ∧
    (delta.2.quantity = 0 → (book.ladder delta.1).best.map (·.price) = some delta.2.price →
      ((book.after delta).ladder delta.1).bestIndex ≠ some ((book.after delta).lastPlace delta.1))

/-- Each level is tolerated by the book that the ones before it have led to. -/
def Smooth : OrderBook → List (Side × Level) → Prop
  | _, [] => True
  | book, delta :: deltas => Tolerated book delta ∧ Smooth (book.after delta) deltas

instance (book : OrderBook) : Decidable (Uncrossed book) := decidable_of_iff _ uncrossed_iff.symm

instance (book : OrderBook) (delta : Side × Level) : Decidable (Tolerated book delta) :=
  inferInstanceAs (Decidable (_ ∧ _))

instance decidableSmooth : (book : OrderBook) → (deltas : List (Side × Level)) → Decidable (Smooth book deltas)
  | _, [] => isTrue trivial
  | book, delta :: deltas =>
    have := decidableSmooth (book.after delta) deltas
    inferInstanceAs (Decidable (_ ∧ _))

def maintained (b : BookBridge) (side : Side) (levels : List Level) : List Level :=
  levels.filter fun level => b.inWindow side level.price

def deltas (b : BookBridge) (update : DepthUpdate) : List (Side × Level) :=
  (b.maintained .bid update.bids).map (Side.bid, ·) ++ (b.maintained .ask update.asks).map (Side.ask, ·)

def oneLevel (id : Nat) (side : Side) (level : Level) : DepthUpdate :=
  ⟨id, id, if side = .bid then [level] else [], if side = .ask then [level] else []⟩

/-- The two bridges differ only in the quantities of their books and in how far they have come. -/
structure Alike (b b' : BookBridge) : Prop where
  frame : b' = { b with
    book := b'.book, lastUpdateId := b'.lastUpdateId, outsideUpdatesIgnored := b'.outsideUpdatesIgnored }
  capacity : b'.book.bids.capacity = b.book.bids.capacity

theorem Moved.alike (h : Moved b b') : Alike b b' := ⟨by rw [h.frame], h.capacity⟩

section

variable (h : Alike b b')

include h

theorem Alike.symm : Alike b' b := ⟨by rw [h.frame], h.capacity.symm⟩

theorem Alike.trans {b'' : BookBridge} (h' : Alike b' b'') : Alike b b'' :=
  ⟨by rw [h'.frame, h.frame], h'.capacity.trans h.capacity⟩

theorem Alike.inWindow : b'.inWindow = b.inWindow := by
  funext side price
  unfold BookBridge.inWindow
  rw [h.capacity, h.frame]
  cases side <;> rfl

theorem Alike.maintained : b'.maintained side levels = b.maintained side levels := by
  unfold BookBridge.maintained
  rw [h.inWindow]

theorem Alike.deltas : b'.deltas update = b.deltas update := by
  unfold BookBridge.deltas
  rw [h.maintained, h.maintained]

end

theorem refusal_of_inWindow {best : Int} (hin : b.inWindow side level.price) (hq : 0 ≤ level.quantity) :
    b.refusal side best level = none := by
  have hval : validLevel level b.tickSize := by
    unfold inWindow at hin
    split at hin
    next => cases hin
    next h =>
    rw [validLevel_iff]
    omega
  unfold refusal
  rw [hval, hin]
  rfl

theorem Tracking.applySide_book (h : Tracking b depth) (oldBest : Int) (deleted : Bool)
    (ha : ∀ level ∈ levels, Admitted (b.window side) side level) :
    (b.applySide side oldBest levels deleted).2.2.book =
      b.book.afterAll ((b.maintained side levels).map (side, ·)) := by
  induction levels generalizing b depth deleted with
  | nil => rfl
  | cons level levels ih =>
    obtain ⟨hl, ha⟩ := List.forall_mem_cons.mp ha
    obtain ⟨deleted1, b1, heq, h1, hm, hbook⟩ := h.applySide_cons levels oldBest deleted hl
    rw [heq, ih h1 deleted1 (by rwa [hm.window]), hm.alike.maintained, hbook]
    unfold maintained
    by_cases hin : b.inWindow side level.price
    · rw [if_pos hin, List.filter_cons_of_pos (by exact hin)]
      rfl
    · rw [if_neg hin, List.filter_cons_of_neg (by exact hin)]

variable {r : ReferenceBook} {gen : Nat} {bids asks : List Level} {deleted : Bool}

theorem InStep.apply_book (h : InStep r b) (hnew : b.lastUpdateId < update.finalUpdateId)
    (ha : (b.apply update).1 = .applied) : Alike b (b.apply update).2 ∧
      (b.apply update).2.book = b.book.afterAll (b.deltas update) ∧
      (∀ delta ∈ b.deltas update, b.inWindow delta.1 delta.2.price ∧ 0 ≤ delta.2.quantity) := by
  obtain ⟨bid, ask, hp⟩ := passes_of_applied h.strict hnew ha
  have hbi : ∀ level ∈ update.bids, Admitted (b.window .bid) .bid level := h.tracking.validate hp.bestBid hp.bids
  have has : ∀ level ∈ update.asks, Admitted (b.window .ask) .ask level := h.tracking.validate hp.bestAsk hp.asks
  obtain ⟨deletedBid, b1, deletedAsk, b2, hbid, hask, heq, hm, -⟩ := h.tracking.apply_eq hp
  obtain ⟨deletedBid', b1', hbid', htrk, hm1⟩ := h.tracking.applySide bid.price false hbi
  rw [hbid] at hbid'
  cases hbid'
  have hb1 := h.tracking.applySide_book bid.price false hbi
  have hb2 := htrk.applySide_book ask.price false (by rw [hm1.window]; exact has)
  rw [hbid] at hb1
  rw [hask, hm1.alike.maintained] at hb2
  rw [heq] at ha ⊢
  rw [settle_of_applied ha]
  refine ⟨⟨?_, hm.capacity⟩, ?_, fun delta hmem => ?_⟩
  · rw [hm.frame]
  · rw [deltas, afterAll, List.foldl_append]
    exact hb2.trans (by rw [show b1.book = _ from hb1]; rfl)
  · rw [deltas, List.mem_append, List.mem_map, List.mem_map] at hmem
    obtain ⟨level, hlvl, rfl⟩ | ⟨level, hlvl, rfl⟩ := hmem
    · obtain ⟨hmem, hin⟩ := List.mem_filter.mp hlvl
      exact ⟨hin, (hbi level hmem).quantity⟩
    · obtain ⟨hmem, hin⟩ := List.mem_filter.mp hlvl
      exact ⟨hin, (has level hmem).quantity⟩

theorem bidExhausted_iff (hu : Uncrossed book) : bidExhausted book deleted ↔
    deleted ∧ book.bids.bestIndex = some (book.lastPlace .bid) := by
  obtain ⟨bid, _, hbid, -, -⟩ := hu
  simp [bidExhausted, hbid, lastPlace]

theorem askExhausted_iff (hu : Uncrossed book) : askExhausted book deleted ↔
    deleted ∧ book.asks.bestIndex = some (book.lastPlace .ask) := by
  obtain ⟨_, ask, -, hask, -⟩ := hu
  simp [askExhausted, hask, lastPlace]

theorem settle_oneLevel (side : Side) (deleted : Bool) (he : b.allowEmptySides = false) :
    (b.settle (decide (side = .bid) && deleted) (decide (side = .ask) && deleted) id).1 = .applied ↔
      Uncrossed b.book ∧ (deleted → (b.book.ladder side).bestIndex ≠ some (b.book.lastPlace side)) := by
  rw [settle_eq he, ← and_assoc, and_comm]
  refine and_congr_right fun hu => ?_
  rw [bidExhausted_iff hu, askExhausted_iff hu]
  cases side with
  | bid | ask => simp [ladder]

theorem applySide_one {book' : OrderBook} (hin : b.inWindow side level.price)
    (hok : b.book.apply side level.price level.quantity = (.ok, book')) :
    b.applySide side oldBest [level] false =
      (true, decide (level.quantity = 0 ∧ level.price = oldBest), { b with book := book' }) := by
  unfold applySide
  rw [hin, hok]
  rfl

theorem InStep.oneLevel (h : InStep r b) (hnew : b.lastUpdateId < id)
    (hin : b.inWindow side level.price) (hq : 0 ≤ level.quantity) :
    (b.apply (oneLevel id side level)).1 = .applied ↔ Tolerated b.book (side, level) := by
  obtain ⟨bid, ask, hbid, hask, hlt⟩ := h.uncrossed
  obtain ⟨book, hok, -, hm⟩ := h.tracking.put hin hq
  have haft : b.book.after (side, level) = book := by rw [after, hok]
  have hstr : ({ b with book := book } : BookBridge).allowEmptySides = false := h.strict
  have hrefusal : ∀ best, b.refusal side best level = none := fun best => refusal_of_inWindow hin hq
  have hpass : Passes b (BookBridge.oneLevel id side level) bid ask := by
    refine ⟨h.loaded, le_rfl, hnew, hbid, hask, ?_, ?_⟩
    · cases side with
      | bid => simp [validate, BookBridge.oneLevel, hrefusal]
      | ask => simp [validate, BookBridge.oneLevel]
    · cases side with
      | bid => simp [validate, BookBridge.oneLevel]
      | ask => simp [validate, BookBridge.oneLevel, hrefusal]
  obtain ⟨deletedBid, b1, deletedAsk, b2, heq1, heq2, heq, -, -⟩ := h.tracking.apply_eq hpass
  rw [heq, Tolerated, haft]
  cases side with
  | bid =>
    cases (applySide_one hin hok).symm.trans heq1
    cases heq2
    refine (settle_oneLevel .bid (decide (level.quantity = 0 ∧ level.price = bid.price)) hstr).trans ?_
    show _ ↔ _ ∧ (_ → b.book.bids.best.map (·.price) = _ → _)
    rw [hbid, decide_eq_true_iff, and_imp, eq_comm (a := level.price), map_some, some.injEq]
  | ask =>
    cases heq1
    cases (applySide_one hin hok).symm.trans heq2
    refine (settle_oneLevel .ask (decide (level.quantity = 0 ∧ level.price = ask.price)) hstr).trans ?_
    show _ ↔ _ ∧ (_ → b.book.asks.best.map (·.price) = _ → _)
    rw [hask, decide_eq_true_iff, and_imp, eq_comm (a := level.price), map_some, some.injEq]

theorem deltas_oneLevel (hin : b.inWindow side level.price) :
    b.deltas (oneLevel id side level) = [(side, level)] := by
  cases side with
  | bid | ask => simp [deltas, oneLevel, maintained, hin]

theorem InStep.afterLevel (h : InStep r b) (hnew : b.lastUpdateId < id)
    (hin : b.inWindow side level.price) (hq : 0 ≤ level.quantity) (ht : Tolerated b.book (side, level)) :
    ∃ r' b', b.apply (BookBridge.oneLevel id side level) = (.applied, b') ∧ InStep r' b' ∧
      Alike b b' ∧ b'.book = b.book.after (side, level) ∧
      b'.lastUpdateId = id := by
  have ha := (h.oneLevel hnew hin hq).mpr ht
  obtain ⟨hm, hbk, -⟩ := h.apply_book hnew ha
  rw [deltas_oneLevel hin] at hbk
  refine ⟨_, _, Prod.ext ha rfl, h.apply ha, hm, hbk, ?_⟩
  rw [(h.apply ha).lastUpdateId, ReferenceBook.apply, if_neg]
  · rfl
  · show ¬id ≤ _
    rw [← h.lastUpdateId]
    omega

theorem loadSnapshot_congr {snap : DepthSnapshot} (h : b'.beginLoad snap gen = b.beginLoad snap gen) :
    b'.loadSnapshot snap gen = b.loadSnapshot snap gen := by
  unfold loadSnapshot
  rw [h]

theorem loadLevels_relabel (id' : Nat) (ha : (b.loadLevels ⟨id, bids, asks⟩ gen).1.action = .applied) :
    b.loadLevels ⟨id', bids, asks⟩ gen =
      ((b.loadLevels ⟨id, bids, asks⟩ gen).1,
        { (b.loadLevels ⟨id, bids, asks⟩ gen).2 with lastUpdateId := id' }) := by
  unfold loadLevels at ha ⊢
  dsimp only at ha ⊢
  -- what the second side leads to, whether or not the first one was taken
  generalize (if (b.loadSide .bid bids 0 0).1 then (b.loadSide .bid bids 0 0).2.1.loadSide .ask asks 0 0
    else (false, (b.loadSide .bid bids 0 0).2.1, 0, 0)) = both at ha ⊢
  split at ha
  next => cases ha
  next h => rw [if_neg h, if_neg h]

theorem loadSnapshot_relabel (id' : Nat) (ha : (b.loadSnapshot ⟨id, bids, asks⟩ gen).1.action = .applied) :
    b.loadSnapshot ⟨id', bids, asks⟩ gen =
      ((b.loadSnapshot ⟨id, bids, asks⟩ gen).1,
        { (b.loadSnapshot ⟨id, bids, asks⟩ gen).2 with lastUpdateId := id' }) := by
  unfold loadSnapshot at ha ⊢
  have hbg : b.beginLoad ⟨id', bids, asks⟩ gen = b.beginLoad ⟨id, bids, asks⟩ gen := rfl
  rw [hbg]
  dsimp only at ha ⊢
  split at ha
  next => cases ha
  next h1 =>
  rw [if_neg h1, if_neg h1]
  split at ha
  next => cases ha
  next h2 =>
  rw [if_neg h2, if_neg h2]
  split at ha
  next => cases ha
  next h3 =>
  rw [if_neg h3, if_neg h3]
  split at ha
  next => cases ha
  next h4 =>
  rw [if_neg h4, if_neg h4]
  exact loadLevels_relabel id' ha

end BookBridge

end SelfQuant.Mds
