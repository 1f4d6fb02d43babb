import SelfQuant.MdsReconstructSpec
import SelfQuant.MdsEmptySides
import SelfQuant.MdsPipelineShape

namespace SelfQuant.Mds

open List Function ReferenceBook WirePublisher SortedMap Option PriceWindow

variable {side : Side} {price qty : Int} {level : Level} {levels : List Level} {depth : Side → Depth}
  {header : EventHeader}

def entryOf (quantity : Int) : Option Int := if quantity = 0 then none else some quantity

theorem entryOf_ne_none (h : entryOf qty ≠ none) : qty ≠ 0 := by
  intro hze
  rw [entryOf, if_pos hze] at h
  exact h rfl

namespace OrderBookReconstructor

variable {r : OrderBookReconstructor} {m : SideMap side}

theorem find?_setEntry :
    (setEntry m level).find? price = if price = level.price then entryOf level.quantity else m.find? price := by
  unfold setEntry entryOf
  split_ifs with hze hpx hpx
  · rw [find?_erase, if_pos hpx]
  · rw [find?_erase, if_neg hpx]
  · rw [find?_insert, if_pos hpx]
  · rw [find?_insert, if_neg hpx]

def setAll (m : SideMap side) (levels : List Level) : SideMap side := levels.foldl setEntry m

theorem find?_insertAll_eq (hq : ∀ level ∈ levels, 0 < level.quantity)
    (hm : ∀ price, m.find? price = entryOf (depth side price)) :
    (insertAll m levels).find? price = entryOf (setLevels depth side levels side price) := by
  induction levels generalizing m depth with
  | nil => exact hm price
  | cons level levels ih =>
    have hlvl := hq level mem_cons_self
    rw [setLevels_cons]
    refine ih (forall_mem_cons.mp hq).2 fun price => ?_
    rw [find?_insert, setLevel_self]
    split_ifs with hpx
    · rw [entryOf, if_neg (by omega)]
    · exact hm price

structure Ready (header : EventHeader) (r : OrderBookReconstructor) : Prop where
  state : r.state = .live
  generation : r.generation = header.bookGeneration
  instrumentId : r.instrumentId = header.instrumentId

theorem consume_delta (h : Ready header r) (hlv : header.state = .live)
    (hit : Item.Encodable ⟨header, 0, .bookDelta side level⟩) :
    r.consume (Item.record ⟨header, 0, .bookDelta side level⟩ 0) =
      some { r with book := update r.book side (setEntry (r.book side) level) } := by
  refine consume_item hit ?_
  show r.applyDelta (headerFields header 0 0) side level = _
  have hgen : (headerFields header 0 0).bookGeneration = r.generation := h.generation.symm
  unfold applyDelta
  rw [if_neg (by rw [hgen]; exact lt_irrefl _), if_neg]
  rintro (hoth | hst | hoth | hst)
  · exact hoth hgen
  · exact hst h.state
  · exact hoth h.instrumentId.symm
  · exact hst hlv

theorem feed_deltas (h : Ready header r) (hlv : header.state = .live)
    (hits : ∀ level ∈ levels, Item.Encodable ⟨header, 0, .bookDelta side level⟩) :
    r.feedItems (levels.map fun level => ⟨header, 0, .bookDelta side level⟩) =
      some { r with book := update r.book side (setAll (r.book side) levels) } := by
  induction levels generalizing r with
  | nil =>
    show some r = _
    rw [setAll, foldl_nil, update_eq_self]
  | cons level levels ih =>
    let r1 := { r with book := update r.book side (setEntry (r.book side) level) }
    have h1 : Ready header r1 := ⟨h.state, h.generation, h.instrumentId⟩
    have hbk : r1.book side = setEntry (r.book side) level := update_self ..
    have hrs := ih h1 (forall_mem_cons.mp hits).2
    rw [map_cons, feedItems_cons, consume_delta h hlv (hits level mem_cons_self), bind_some, hrs, hbk]
    rw [update_idem]
    rfl

end OrderBookReconstructor

open OrderBookReconstructor

namespace BookBridge

variable {b b' : BookBridge} {d : Depth} {m : SideMap side} {snap : DepthSnapshot}

/-- The map has the quantities of the side that are in the window of the bridge; whatever else it has is
behind the window, and there is nothing of the kind if the side may be empty. -/
structure Mirrors (b : BookBridge) (side : Side) (d : Depth) (m : SideMap side) : Prop where
  inside : ∀ price, b.inWindow side price = true → m.find? price = entryOf (d price)
  outside : ∀ price, b.inWindow side price = false → m.find? price ≠ none →
    (b.window side).Behind side price ∧ b.allowEmptySides = false

theorem inWindow_congr (h : b'.window side = b.window side) : b'.inWindow side price = b.inWindow side price := by
  have htick : b'.tickSize = b.tickSize := congrArg tick h
  have hba : b'.baseTicks side = b.baseTicks side := congrArg base h
  have hcap : b'.book.bids.capacity = b.book.bids.capacity := congrArg capacity h
  unfold inWindow
  rw [htick, hba, hcap]

theorem Mirrors.congr (h : Mirrors b side d m) (hw : b'.window side = b.window side)
    (he : b'.allowEmptySides = b.allowEmptySides) : Mirrors b' side d m := by
  refine ⟨fun price hin => ?_, fun price hout hfd => ?_⟩
  · rw [inWindow_congr hw] at hin
    exact h.inside price hin
  · rw [inWindow_congr hw] at hout
    rw [hw, he]
    exact h.outside price hout hfd

section

variable (h : Mirrors b side (depth side) m)

include h

theorem Mirrors.setLevels (levels : List Level) :
    Mirrors b side (ReferenceBook.setLevels depth side levels side)
      (setAll m (levels.filter fun level => b.inWindow side level.price)) := by
  induction levels generalizing depth m with
  | nil => exact h
  | cons level levels ih =>
    rw [setLevels_cons]
    cases hin : b.inWindow side level.price with
    | true =>
      rw [filter_cons_of_pos (by exact hin)]
      refine ih (m := setEntry m level) ⟨fun price hpx => ?_, fun price hpx hfd => ?_⟩
      · rw [find?_setEntry, setLevel_self]
        split_ifs
        · rfl
        · exact h.inside price hpx
      · rw [find?_setEntry, if_neg (by rintro rfl; rw [hin] at hpx; cases hpx)] at hfd
        exact h.outside price hpx hfd
    | false =>
      rw [filter_cons_of_neg (by rw [hin]; exact Bool.false_ne_true)]
      refine ih ⟨fun price hpx => ?_, h.outside⟩
      rw [setLevel_self, if_neg (by rintro rfl; rw [hin] at hpx; cases hpx)]
      exact h.inside price hpx

theorem Mirrors.best (ht : Tracking b depth)
    (hp : ∀ price, 0 < depth side price → 0 ≤ price) (hb : (b.book.ladder side).best = some level) :
    m.first? = some (level.price, level.quantity) := by
  have hbt := (ht.holds side).isBest hb
  rw [ht.sides side] at hbt
  have hcont := Ladder.best_contains (ht.holds side).sound hb
  rw [ht.windows side] at hcont
  have hpos : 0 < depth side level.price := by
    rw [← hbt.quantity]
    exact hbt.positive
  have hin : b.inWindow side level.price = true := (inWindow_iff ht.tick).mpr ⟨hp _ hpos, hcont⟩
  refine first?_eq_some_iff.mpr ⟨?_, fun price hfd => ?_⟩
  · rw [h.inside _ hin, ← hbt.quantity, entryOf, if_neg (by have := hbt.positive; omega)]
  · cases hpx : b.inWindow side price with
    | true =>
      rw [h.inside price hpx] at hfd
      have hze := entryOf_ne_none hfd
      have hnn := (ht.holds side).nonneg price
      exact hbt.first price (by omega)
    | false => exact (h.outside price hpx hfd).1.not_ahead ht.tick hcont

theorem Mirrors.empty (ht : Tracking b depth)
    (he : b.allowEmptySides = true) (hb : (b.book.ladder side).best = none) : m.first? = none := by
  refine first?_eq_none_iff.mpr fun price => ?_
  by_contra hfd
  cases hpx : b.inWindow side price with
  | true =>
    rw [h.inside price hpx] at hfd
    have hze := entryOf_ne_none hfd
    have hnn := (ht.holds side).nonneg price
    have hcont := ((inWindow_iff ht.tick).mp hpx).2
    rw [← ht.windows side] at hcont
    obtain ⟨level, hlvl⟩ := (ht.holds side).exists_best hcont (by omega)
    rw [hb] at hlvl
    cases hlvl
  | false =>
    have hstr := (h.outside price hpx hfd).2
    rw [he] at hstr
    cases hstr

end

theorem load_depth_eq (hq : ∀ level ∈ snap.levels side, 0 < level.quantity) :
    (load snap).depth side = setLevels (fun _ _ => 0) side (snap.levels side) side := by
  have hfilt : (snap.levels side).filter (·.quantity > 0) = snap.levels side :=
    filter_eq_self.mpr fun level hlvl => decide_eq_true (hq level hlvl)
  cases side with
  | bid =>
    rw [load_depth_bid]
    exact congrArg (setLevels (fun _ _ => 0) .bid · .bid) hfilt
  | ask =>
    funext price
    show setLevels (setLevels _ .bid _) .ask (snap.asks.filter (·.quantity > 0)) .ask price = _
    rw [show snap.asks.filter (·.quantity > 0) = snap.asks from hfilt]
    exact setLevels_congr (setLevels_other (by decide)) price

theorem Tracking.mirrors_load (h : Tracking b (load snap).depth)
    (hq : ∀ level ∈ snap.levels side, 0 < level.quantity) (hp : ∀ level ∈ snap.levels side, 0 ≤ level.price)
    (hin : b.allowEmptySides = true → ∀ level ∈ snap.levels side, b.inWindow side level.price = true) :
    Mirrors b side ((load snap).depth side) (insertAll {} (snap.levels side)) := by
  have hfd : ∀ price, (insertAll ({} : SideMap side) (snap.levels side)).find? price =
      entryOf ((load snap).depth side price) := by
    intro price
    rw [load_depth_eq hq]
    exact find?_insertAll_eq hq (fun _ => rfl)
  refine ⟨fun price _ => hfd price, fun price hout hne => ?_⟩
  rw [hfd] at hne
  have hpos : 0 < (load snap).depth side price := by
    have hnn := (h.holds side).nonneg price
    have hze := entryOf_ne_none hne
    omega
  obtain ⟨level, hmem, rfl, -⟩ := load_pos hpos
  have hnot : ¬(b.window side).Contains level.price := by
    intro hc
    rw [(inWindow_iff h.tick).mpr ⟨hp level hmem, hc⟩] at hout
    cases hout
  have hbeh := (h.holds side).outside level.price hpos (by rw [h.windows side]; exact hnot)
  rw [h.windows side, h.sides side] at hbeh
  refine ⟨hbeh, ?_⟩
  cases he : b.allowEmptySides with
  | false => rfl
  | true =>
    rw [hin he level hmem] at hout
    cases hout

end BookBridge

variable {r : OrderBookReconstructor}

namespace BookBridge

variable {b : BookBridge} {snap : DepthSnapshot} {update : DepthUpdate} {ref : ReferenceBook}

theorem load_price_nonneg {generation : Nat} (ha : (b.loadSnapshot snap generation).1.action = .applied) :
    ∀ level ∈ snap.levels side, 0 ≤ level.price := by
  intro level hlvl
  obtain ⟨bestBid, bestAsk, hp, -⟩ := loadSnapshot_placed ha
  cases side with
  | bid => exact (validLevel_iff.mp (hp.bids level hlvl).1).2.1
  | ask => exact (validLevel_iff.mp (hp.asks level hlvl)).2.1

theorem Shows.setLive (h : Shows ref b) : Shows ref b.setLive :=
  ⟨h.tracking.setLive, by rw [setLive_capacity]; exact h.capacity, h.loaded, h.lastUpdateId⟩

def Priced (reference : ReferenceBook) : Prop := ∀ side price, 0 < reference.depth side price → 0 ≤ price

theorem Priced.apply (h : Priced ref) (hs : Shows ref b) (ha : (b.apply update).1 = .applied) :
    Priced (ref.apply update) := by
  unfold ReferenceBook.apply
  split
  next => exact h
  next hnew =>
  have hid := hs.lastUpdateId
  obtain ⟨hadmitted, -⟩ := hs.tracking.applied hs.capacity (by omega) ha
  intro side price hpos
  obtain ⟨level, hmem, rfl, -⟩ | hold := setUpdate_pos hpos
  · exact (hadmitted side level hmem).price
  · exact h side price hold

def ladderEntry (b : BookBridge) (side : Side) (price : Int) : Option Int :=
  ((b.book.ladder side).at? (price / b.tickSize - b.baseTicks side).toNat).map (·.quantity)

theorem Tracking.ladderEntry {depth : Side → Depth} (h : Tracking b depth) (hin : b.inWindow side price = true) :
    b.ladderEntry side price = entryOf (depth side price) := by
  have hqty := h.quantityAt hin
  unfold BookBridge.quantityAt at hqty
  unfold BookBridge.ladderEntry
  cases hat : (b.book.ladder side).at? (price / b.tickSize - b.baseTicks side).toNat with
  | none =>
    rw [hat] at hqty
    rw [← hqty]
    rfl
  | some level =>
    rw [hat] at hqty
    have hpos : 0 < level.quantity := by
      unfold Ladder.at? at hat
      split at hat
      next => cases hat
      next hset =>
      rw [← some.inj hat]
      exact ((h.holds side).sound.occupied _).mp (by simpa using fun hclr => hset (.inr hclr))
    rw [← hqty, entryOf, if_neg (show ¬level.quantity = 0 by omega)]
    rfl

theorem setUpdate_eq :
    setLevels (setLevels depth .bid update.bids) .ask update.asks side = setLevels depth side (update.levels side) side := by
  cases side with
  | bid => exact setLevels_other (by decide)
  | ask => exact funext (setLevels_congr (setLevels_other (by decide)))

/-- Each update is newer than those before it, or has no level in the windows. -/
def Fresh (b : BookBridge) : Nat → List DepthUpdate → Prop
  | _, [] => True
  | last, update :: updates =>
    (last < update.finalUpdateId ∨ ∀ side, ∀ level ∈ update.levels side, b.inWindow side level.price = false) ∧
      Fresh b (max last update.finalUpdateId) updates

end BookBridge

namespace BookPipeline

open BookBridge

variable {p p' : BookPipeline} {w : WirePublisher} {header : EventHeader} {update : DepthUpdate}
  {ref : ReferenceBook} {generation : Nat} {items : List Item}

def applyAll (p : BookPipeline) : List (EventHeader × DepthUpdate) → Option BookPipeline
  | [] => some p
  | (header, update) :: updates =>
    match p.applyDelta header update true with
    | (.applied, p) => p.applyAll updates
    | _ => none

structure InSync (p : BookPipeline) (reference : ReferenceBook) (generation : Nat) (r : OrderBookReconstructor) :
    Prop where
  shows : Shows reference p.bridge
  priced : Priced reference
  mirrors : ∀ side, Mirrors p.bridge side (reference.depth side) (r.book side)
  state : r.state = .live
  generation : r.generation = generation
  instrumentId : r.instrumentId = p.instrumentId
  allowEmptySides : p.bridge.allowEmptySides = p.allowEmptySides
  both : p.allowEmptySides = false → ∀ side, (p.bridge.book.ladder side).best ≠ none

theorem bbo_best {book : OrderBook} {bid ask : Level} (h : book.bbo = some (bid, ask)) :
    (book.ladder side).best ≠ none := by
  unfold OrderBook.bbo at h
  split at h
  next => cases h
  split at h
  next bid' ask' hbid hask =>
    cases side with
    | bid => exact fun hno => some_ne_none _ (hbid.symm.trans hno)
    | ask => exact fun hno => some_ne_none _ (hask.symm.trans hno)
  next => cases h

theorem Canonical.best (h : p.Canonical header items) (hs : p.allowEmptySides = false)
    (side : Side) : (p.bridge.book.ladder side).best ≠ none := by
  obtain ⟨bid, ask, hbbo, -⟩ := h.both hs
  exact bbo_best hbbo

theorem Canonical.feed (h : p.Canonical header items)
    (hits : ∀ item ∈ items, item.Encodable) : r.feedItems items = some r := by
  rcases h with ⟨-, -, rfl⟩ | ⟨bid, ask, -, rfl⟩
  · rfl
  · rw [feedItems_cons, consume_item (hits _ mem_cons_self) rfl]
    rfl

def maintained (p : BookPipeline) (update : DepthUpdate) (side : Side) : List Level :=
  (update.levels side).filter fun level => p.bridge.inWindow side level.price

theorem feed_update (h : Ready (p.stamped header) r)
    (hits : ∀ item ∈ p.deltaItems header .bid update.bids ++ p.deltaItems header .ask update.asks, item.Encodable) :
    r.feedItems (p.deltaItems header .bid update.bids ++ p.deltaItems header .ask update.asks) =
      some { r with book := fun side => setAll (r.book side) (p.maintained update side) } := by
  let r1 := { r with book := Function.update r.book .bid (setAll (r.book .bid) (p.maintained update .bid)) }
  have h1 : Ready (p.stamped header) r1 := ⟨h.state, h.generation, h.instrumentId⟩
  have hbi : r.feedItems (p.deltaItems header .bid update.bids) = some r1 :=
    feed_deltas h rfl fun level hlvl => hits _ (mem_append_left _ (mem_map.mpr ⟨level, hlvl, rfl⟩))
  have has : r1.feedItems (p.deltaItems header .ask update.asks) =
      some { r1 with book := Function.update r1.book .ask (setAll (r1.book .ask) (p.maintained update .ask)) } :=
    feed_deltas h1 rfl fun level hlvl => hits _ (mem_append_right _ (mem_map.mpr ⟨level, hlvl, rfl⟩))
  have hbk : Function.update r1.book .ask (setAll (r1.book .ask) (p.maintained update .ask)) =
      fun side => setAll (r.book side) (p.maintained update side) := by
    funext side
    cases side <;> rfl
  rw [feedItems_append, hbi, bind_some, has, hbk]

theorem InSync.load {seq : Nat} {bids asks : List Level} (hused : p.Used) (hw : p.publisher = some w)
    (ha : p.loadImage header seq bids asks true = (.applied, p'))
    (hft : ∀ level ∈ asks, level.price ≤ int64Max)
    (hpositive : ∀ side, ∀ level ∈ sideLevels bids asks side, 0 < level.quantity)
    (hins : p.allowEmptySides = true → ∀ side, ∀ level ∈ sideLevels bids asks side,
      p'.bridge.inWindow side level.price = true)
    (hgen : r.generation ≤ header.bookGeneration) :
    ∃ w' items r', p'.publisher = some w' ∧ Wrote w w' items ∧ r.feedItems items = some r' ∧
      InSync p' (ReferenceBook.load ⟨seq, bids, asks⟩) header.bookGeneration r' := by
  obtain ⟨hld, hsz, w', items, hp, hcan, hwr⟩ := loadImage_wrote hw ha
  have hfit := hused.fit
  obtain ⟨htrk, hl, hla, he, hcap, -⟩ := loadSnapshot_tracking hfit.shaped (fun _ => hft) hld
  have hloaded : Shows (ReferenceBook.load ⟨seq, bids, asks⟩)
      (p.bridge.loadSnapshot ⟨seq, bids, asks⟩ header.bookGeneration).2 :=
    ⟨htrk, by rw [hcap]; exact hfit.capacity, hl, hla⟩
  have hshs := hloaded.setLive
  have hbr : p'.bridge = (p.bridge.loadSnapshot ⟨seq, bids, asks⟩ header.bookGeneration).2.setLive := by
    rw [hp]
  rw [← hbr] at hshs
  have hid : p'.instrumentId = p.instrumentId := by rw [hp]
  have hsds : p'.allowEmptySides = p.allowEmptySides := by rw [hp]
  have hemp : p'.bridge.allowEmptySides = p.allowEmptySides := by
    rw [hbr]
    exact he.trans hfit.allowEmptySides
  have hlv : EventHeader.state { p.stamped header with sourceSeq := seq } = .live := rfl
  obtain ⟨r', hfe, hst, hgen', hid', hbk⟩ := feed_image hlv hgen hsz
  have hta := hcan.feed (r := r') (forall_mem_append.mp hwr.encodable).2
  have hmirrors : ∀ side, Mirrors p'.bridge side ((ReferenceBook.load ⟨seq, bids, asks⟩).depth side)
      (r'.book side) := by
    intro side
    rw [hbk]
    refine hshs.tracking.mirrors_load ?_ (load_price_nonneg hld) fun hop => ?_
    · exact hpositive side
    · exact hins (hemp.symm.trans hop) side
  refine ⟨w', _, r', by rw [hp], hwr, ?_, hshs, fun side price hpos => ?_, hmirrors, hst, hgen',
    hid'.trans hid.symm, hemp.trans hsds.symm, fun hs => hcan.best hs⟩
  · rw [feedItems_append, hfe, bind_some, hta]
  · obtain ⟨level, hmem, rfl, -⟩ := load_pos hpos
    exact load_price_nonneg hld level hmem

def exampleHeader : EventHeader := { bookGeneration := 1 }

def examplePipeline : BookPipeline := create 1 8 1 (some {}) false false

def exampleLoaded : BookPipeline := (examplePipeline.loadImage exampleHeader 10 [⟨100, 5⟩, ⟨99, 3⟩] [⟨101, 4⟩] true).2

def newerUpdate : DepthUpdate := { firstUpdateId := 11, finalUpdateId := 12, bids := [⟨100, 0⟩], asks := [⟨102, 2⟩] }

def olderUpdate : DepthUpdate := { firstUpdateId := 5, finalUpdateId := 9, bids := [⟨100, 1⟩] }

def reader (p : BookPipeline) : Option OrderBookReconstructor :=
  ({} : OrderBookReconstructor).feed ((p.publisher.map (·.published.map (·.record))).getD [])

section

variable (h : InSync p ref generation r)

include h

theorem InSync.agrees :
    (∀ side price, p.bridge.inWindow side price = true →
      (r.book side).find? price = p.bridge.ladderEntry side price) ∧
      ∀ side, r.best side = (p.bridge.book.ladder side).best := by
  refine ⟨fun side price hin => ?_, fun side => ?_⟩
  · rw [(h.mirrors side).inside price hin, h.shows.tracking.ladderEntry hin]
  · unfold best
    cases hb : (p.bridge.book.ladder side).best with
    | some level =>
      rw [(h.mirrors side).best h.shows.tracking (h.priced side) hb]
      rfl
    | none =>
      have hemp : p.allowEmptySides = true := Bool.eq_true_of_not_eq_false fun he => h.both he side hb
      rw [(h.mirrors side).empty h.shows.tracking (h.allowEmptySides.trans hemp) hb]
      rfl

theorem InSync.apply (hw : p.publisher = some w)
    (hg : header.bookGeneration = generation) (ha : p.applyDelta header update true = (.applied, p'))
    (hfr : ref.lastUpdateId < update.finalUpdateId ∨
      ∀ side, ∀ level ∈ update.levels side, p.bridge.inWindow side level.price = false) :
    ∃ w' items r', p'.publisher = some w' ∧ Wrote w w' items ∧ r.feedItems items = some r' ∧
      InSync p' (ref.apply update) generation r' ∧ p'.bridge.window = p.bridge.window := by
  obtain ⟨happ, w', items, hp, hcan, hwr⟩ := applyDelta_wrote hw ha
  obtain ⟨hshs, hwin⟩ := h.shows.apply happ
  have hbr : p'.bridge = (p.bridge.apply update).2 := by rw [hp]
  have hid : p'.instrumentId = p.instrumentId := by rw [hp]
  have hsds : p'.allowEmptySides = p.allowEmptySides := by rw [hp]
  have hemp : p'.bridge.allowEmptySides = p.bridge.allowEmptySides := by
    rw [hbr]
    exact (apply_kindred update).allowEmptySides
  rw [← hbr] at hshs hwin
  have hrdy : Ready (p'.stamped header) r := ⟨h.state, h.generation.trans hg.symm, h.instrumentId.trans hid.symm⟩
  have hfe := feed_update hrdy (forall_mem_append.mp hwr.encodable).1
  have hla := hcan.feed (r := { r with book := fun side => setAll (r.book side) (p'.maintained update side) })
    (forall_mem_append.mp hwr.encodable).2
  refine ⟨w', _, _, by rw [hp], hwr, by rw [feedItems_append, hfe, bind_some, hla], ?_, hwin⟩
  have hmirrors : ∀ side, Mirrors p'.bridge side ((ref.apply update).depth side)
      (setAll (r.book side) (p'.maintained update side)) := by
    intro side
    have hcongr := (h.mirrors side).congr (congrFun hwin side) hemp
    by_cases hnew : ref.lastUpdateId < update.finalUpdateId
    · rw [ReferenceBook.apply, if_neg (by omega)]
      show Mirrors _ _ (setLevels (setLevels ref.depth .bid update.bids) .ask update.asks side) _
      rw [setUpdate_eq]
      exact hcongr.setLevels (update.levels side)
    · have hno : p'.maintained update side = [] := by
        refine filter_eq_nil_iff.mpr fun level hlvl => ?_
        rw [inWindow_congr (congrFun hwin side), hfr.resolve_left hnew side level hlvl]
        exact Bool.false_ne_true
      rw [ReferenceBook.apply, if_pos (by omega), hno]
      exact hcongr
  exact ⟨hshs, h.priced.apply h.shows happ, hmirrors, h.state, h.generation, h.instrumentId.trans hid.symm,
    hemp.trans (h.allowEmptySides.trans hsds.symm), fun hs => hcan.best hs⟩

theorem InSync.applyAll {updates : List (EventHeader × DepthUpdate)} {b : BookBridge} (hw : p.publisher = some w)
    (hwin : p.bridge.window = b.window)
    (hg : ∀ call ∈ updates, call.1.bookGeneration = generation) (ha : p.applyAll updates = some p')
    (hfr : Fresh b ref.lastUpdateId (updates.map (·.2))) :
    ∃ w' items r', p'.publisher = some w' ∧ Wrote w w' items ∧ r.feedItems items = some r' ∧
      InSync p' ((updates.map (·.2)).foldl ReferenceBook.apply ref) generation r' := by
  induction updates generalizing p w ref r with
  | nil =>
    cases ha
    exact ⟨w, [], r, hw, .refl, rfl, h⟩
  | cons call updates ih =>
    obtain ⟨header, update⟩ := call
    unfold applyAll at ha
    split at ha
    next p1 hone =>
      obtain ⟨hnew, hrs⟩ := hfr
      have hla : (ref.apply update).lastUpdateId = max ref.lastUpdateId update.finalUpdateId := by
        unfold ReferenceBook.apply
        split
        next hold => exact (max_eq_left hold).symm
        next hold => exact (max_eq_right (Nat.le_of_not_le hold)).symm
      obtain ⟨w1, items, r1, hw1, hwr, hfe, h1, hwindow1⟩ :=
        h.apply hw (hg _ mem_cons_self) hone (hnew.imp_right fun hout side level hlvl => by
          rw [inWindow_congr (congrFun hwin side)]
          exact hout side level hlvl)
      obtain ⟨w2, items', r2, hw2, hwr', hfe', h2⟩ := ih h1 hw1 (hwindow1.trans hwin)
        (forall_mem_cons.mp hg).2 ha (by rw [hla]; exact hrs)
      exact ⟨w2, items ++ items', r2, hw2, hwr.trans hwr', by rw [feedItems_append, hfe]; exact hfe', h2⟩
    next => cases ha

end

/-- An image and updates that were all applied and published. A reconstructor that takes the records has the quantities of
the ladders in their windows and the same best levels, if the levels of the image have quantities, no old update has
levels in the windows, and a side that may be empty had no levels behind its window. -/
theorem reconstructed_book_matches {p1 p2 : BookPipeline} (hused : p.Used) (hw : p.publisher = some w)
    (header : EventHeader) (imageSequence : Nat) (bids asks : List Level)
    (hload : p.loadImage header imageSequence bids asks true = (.applied, p1))
    (updates : List (EventHeader × DepthUpdate)) (happlied : p1.applyAll updates = some p2)
    (hfits : ∀ level ∈ asks, level.price ≤ int64Max)
    (hgenerations : ∀ call ∈ updates, call.1.bookGeneration = header.bookGeneration)
    (hpositive : ∀ side, ∀ level ∈ sideLevels bids asks side, 0 < level.quantity)
    (hfresh : Fresh p1.bridge imageSequence (updates.map (·.2)))
    (hinside : p.allowEmptySides = true → ∀ side, ∀ level ∈ sideLevels bids asks side,
      p1.bridge.inWindow side level.price = true)
    (r : OrderBookReconstructor) (hgeneration : r.generation ≤ header.bookGeneration) :
    ∃ w' records r', p2.publisher = some w' ∧ w'.published = w.published ++ records ∧
      r.feed (records.map (·.record)) = some r' ∧ r'.state = .live ∧
      (∀ side price, p2.bridge.inWindow side price = true →
        (r'.book side).find? price = p2.bridge.ladderEntry side price) ∧
      ∀ side, r'.best side = (p2.bridge.book.ladder side).best := by
  obtain ⟨w1, items, r1, hw1, hwrote, hfeed, h1⟩ := InSync.load hused hw hload hfits hpositive hinside hgeneration
  obtain ⟨w2, items', r2, hw2, hwrote', hfeed', h2⟩ := h1.applyAll hw1 rfl hgenerations happlied hfresh
  obtain ⟨hmaps, hbest⟩ := h2.agrees
  refine ⟨w2, _, r2, hw2, (hwrote.trans hwrote').published, ?_, h2.state, hmaps, hbest⟩
  rw [feed_numbered, feedItems_append, hfeed]
  exact hfeed'

theorem reconstructed_book_matches_newer :
    ∃ w' records r', (exampleLoaded.applyDelta exampleHeader newerUpdate true).2.publisher = some w' ∧
      w'.published = [] ++ records ∧ ({} : OrderBookReconstructor).feed (records.map (·.record)) = some r' ∧
      r'.state = .live ∧
      (∀ side price, (exampleLoaded.applyDelta exampleHeader newerUpdate true).2.bridge.inWindow side price = true →
        (r'.book side).find? price =
          (exampleLoaded.applyDelta exampleHeader newerUpdate true).2.bridge.ladderEntry side price) ∧
      ∀ side, r'.best side =
        ((exampleLoaded.applyDelta exampleHeader newerUpdate true).2.bridge.book.ladder side).best := by
  have happ : exampleLoaded.applyAll [(exampleHeader, newerUpdate)] =
      some (exampleLoaded.applyDelta exampleHeader newerUpdate true).2 := by
    rfl
  refine reconstructed_book_matches (.create 1 8 1 (some {}) false false) rfl exampleHeader 10 _ _ (Prod.ext (by decide +kernel) rfl)
    [(exampleHeader, newerUpdate)] happ (by decide) (by decide) (fun side => ?_) ⟨.inl (by decide), trivial⟩
    (fun h => absurd h (by decide)) {} (by decide)
  cases side <;> decide

-- a level of the image without a quantity is not in the ladder, but the reader has an entry for it
example : ((examplePipeline.loadImage exampleHeader 10 [⟨100, 5⟩, ⟨99, 0⟩] [⟨101, 4⟩] true).2.reader.map
    fun r => (r.book .bid).find? 99) = some (some 0) := by decide +kernel

-- the only bid of the window goes, and the reader still has the one behind it
example : (((create 1 8 1 (some {}) false true).loadImage exampleHeader 10 [⟨100, 5⟩, ⟨10, 7⟩] [⟨101, 4⟩] true).2.applyDelta
    exampleHeader newerUpdate true).2.reader.map (·.best .bid) = some (some ⟨10, 7⟩) := by decide +kernel

/-- An old update is applied without any effect on the ladders, but its levels are published all the same,
and the reader takes them. -/
theorem stale_update_published :
    (examplePipeline.loadImage exampleHeader 10 [⟨100, 5⟩, ⟨99, 3⟩] [⟨101, 4⟩] true).1 = .applied ∧
    (exampleLoaded.applyDelta exampleHeader olderUpdate true).1 = .applied ∧
    (exampleLoaded.applyDelta exampleHeader olderUpdate true).2.bridge.book.bids.best = some ⟨100, 5⟩ ∧
    (exampleLoaded.applyDelta exampleHeader olderUpdate true).2.reader.map (fun r => (r.state, r.best .bid)) =
      some (.live, some ⟨100, 1⟩) := by
  refine ⟨by decide +kernel, by decide +kernel, by decide +kernel, by decide +kernel⟩

end BookPipeline

end SelfQuant.Mds
