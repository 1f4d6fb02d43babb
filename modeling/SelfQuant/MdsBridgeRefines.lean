import SelfQuant.MdsBridgeSpec

namespace SelfQuant.Mds

open ReferenceBook Function Option OrderBook BookBridge PriceWindow

variable {b b' b'' : BookBridge} {book : OrderBook} {depth : Side → Depth} {side other : Side}
  {price quantity : Int} {level : Level} {levels : List Level} {l : Ladder} {i : Nat}

theorem OrderBook.ladder_setLadder : (book.setLadder l side).ladder other =
    if other = side then l else book.ladder other := by
  cases side <;> cases other <;> rfl

theorem Ahead.asymm {a c : Int} (h : Ahead side a c) : ¬Ahead side c a := by
  cases side <;> simp only [Ahead] at * <;> omega

namespace BookBridge

def window (b : BookBridge) (side : Side) : PriceWindow := ⟨b.baseTicks side, b.tickSize, b.book.bids.capacity⟩

theorem inWindow_iff (ht : 0 < b.tickSize) : b.inWindow side price ↔ 0 ≤ price ∧ (b.window side).Contains price := by
  unfold inWindow
  split
  next h =>
    refine ⟨fun hf => absurd hf Bool.false_ne_true, fun ⟨hp, i, _, hc⟩ => ?_⟩
    have hmod : price % b.tickSize = 0 := by
      rw [hc]
      exact Int.mul_emod_left _ _
    omega
  next h =>
    rw [not_or, not_or, not_not] at h
    obtain ⟨hp, _, hmod⟩ := h
    obtain ⟨ticks, rfl⟩ := Int.dvd_of_emod_eq_zero hmod
    rw [Int.mul_ediv_cancel_left _ (ne_of_gt ht), decide_eq_true_iff]
    constructor
    · rintro ⟨hlow, hhg⟩
      refine ⟨by omega, (ticks - b.baseTicks side).toNat, ?_, ?_⟩
      · show _ < b.book.bids.capacity
        omega
      · show b.tickSize * ticks = (b.baseTicks side + _) * b.tickSize
        rw [show b.baseTicks side + ((ticks - b.baseTicks side).toNat : Int) = ticks by omega, mul_comm]
    · rintro ⟨_, i, hi, hc⟩
      have hi' : i < b.book.bids.capacity := hi
      have heq : ticks = b.baseTicks side + i := by
        have : ticks * b.tickSize = (b.baseTicks side + i) * b.tickSize := by
          rw [mul_comm]
          exact hc
        exact Int.eq_of_mul_eq_mul_right (ne_of_gt ht) this
      omega

/-- The ladders show the book, each in the window that the bridge has given it. -/
structure Tracking (b : BookBridge) (depth : Side → Depth) : Prop where
  holds : ∀ side, (b.book.ladder side).Holds (depth side)
  sides : ∀ side, (b.book.ladder side).side = side
  windows : ∀ side, (b.book.ladder side).window = b.window side

/-- Only the quantities of the book changed, and the count of updates outside of the windows. -/
structure Moved (b b' : BookBridge) : Prop where
  frame : b' = { b with book := b'.book, outsideUpdatesIgnored := b'.outsideUpdatesIgnored }
  capacity : b'.book.bids.capacity = b.book.bids.capacity

theorem Moved.refl : Moved b b := ⟨rfl, rfl⟩

theorem Moved.trans (h : Moved b b') (h' : Moved b' b'') : Moved b b'' :=
  ⟨by rw [h'.frame, h.frame], h'.capacity.trans h.capacity⟩

theorem Moved.window (h : Moved b b') : b'.window side = b.window side := by
  unfold BookBridge.window
  rw [h.capacity, h.frame]
  cases side <;> rfl

/-- A level outside of the window is behind it, or a deletion. -/
structure Admitted (w : PriceWindow) (side : Side) (level : Level) : Prop where
  price : 0 ≤ level.price
  quantity : 0 ≤ level.quantity
  outside : ¬w.Contains level.price → 0 < level.quantity → w.Behind side level.price

section

variable (h : Tracking b depth)

include h

theorem Tracking.tick : 0 < b.tickSize := by
  have := (h.holds .bid).tick
  rwa [show (b.book.ladder .bid).tickSize = b.tickSize from congrArg PriceWindow.tick (h.windows .bid)] at this

theorem Tracking.replace {m : Depth} (hl : l.Holds m)
    (hw : l.window = (b.book.ladder side).window) (hs : l.side = side) :
    Tracking { b with book := b.book.setLadder l side } (update depth side m) ∧
      Moved b { b with book := b.book.setLadder l side } := by
  have hcap : (b.book.setLadder l side).bids.capacity = b.book.bids.capacity := by
    cases side with
    | bid => exact congrArg capacity hw
    | ask => rfl
  have hmvd : Moved b { b with book := b.book.setLadder l side } := ⟨rfl, hcap⟩
  refine ⟨⟨fun s => ?_, fun s => ?_, fun s => ?_⟩, hmvd⟩
  · rw [ladder_setLadder]
    by_cases hss : s = side
    · rw [if_pos hss, hss, update_self]
      exact hl
    · rw [if_neg hss, update_of_ne hss]
      exact h.holds s
  · rw [ladder_setLadder]
    by_cases hss : s = side
    · rw [if_pos hss, hss, hs]
    · rw [if_neg hss, h.sides s]
  · rw [hmvd.window]
    rw [ladder_setLadder]
    by_cases hss : s = side
    · rw [if_pos hss, hw, h.windows, hss]
    · rw [if_neg hss, h.windows s]

theorem Tracking.put (hin : b.inWindow side level.price) (hq : 0 ≤ level.quantity) :
    ∃ book, b.book.apply side level.price level.quantity = (.ok, book) ∧
      Tracking { b with book := book } (setLevel depth side level) ∧ Moved b { b with book := book } := by
  obtain ⟨hp, i, hi, hpx⟩ := (inWindow_iff h.tick).mp hin
  rw [← h.windows side] at hi hpx
  have hl := h.holds side
  have hok := Ladder.apply_ok hl.tick hl.state (by rw [← hpx]; exact hp) hi hq
  obtain ⟨hput, hwin, hsi⟩ := hl.put hi hq
  rw [← hpx] at hput
  exact ⟨b.book.setLadder ((b.book.ladder side).put i level.quantity) side,
    by rw [OrderBook.apply, hpx, hok], h.replace hput hwin (hsi.trans (h.sides side))⟩

theorem Tracking.skip (ha : Admitted (b.window side) side level)
    (hin : ¬b.inWindow side level.price) : Tracking b (setLevel depth side level) := by
  have hout : ¬(b.window side).Contains level.price := by
    intro hc
    exact hin ((inWindow_iff h.tick).mpr ⟨ha.price, hc⟩)
  refine ⟨fun s => ?_, h.sides, h.windows⟩
  unfold setLevel
  by_cases hss : s = side
  · subst hss
    rw [update_self]
    have hw := h.windows s
    refine (h.holds s).skip ha.quantity (by rw [hw]; exact hout) fun hpos => ?_
    rw [hw, h.sides s]
    exact ha.outside hout hpos
  · rw [update_of_ne hss]
    exact h.holds s

theorem Tracking.relabel (id : Nat) (loaded : Bool) :
    Tracking { b with lastUpdateId := id, loaded := loaded } depth := by
  refine ⟨h.holds, h.sides, fun side => ?_⟩
  rw [h.windows side]
  cases side <;> rfl

theorem Tracking.counted (n : Nat) :
    Tracking { b with outsideUpdatesIgnored := n } depth ∧ Moved b { b with outsideUpdatesIgnored := n } := by
  refine ⟨⟨h.holds, h.sides, fun side => ?_⟩, rfl, rfl⟩
  rw [h.windows side]
  cases side <;> rfl

theorem Tracking.applySide_cons (levels : List Level) (oldBest : Int) (deleted : Bool)
    (hl : Admitted (b.window side) side level) :
    ∃ deleted' b', b.applySide side oldBest (level :: levels) deleted = b'.applySide side oldBest levels deleted' ∧
      Tracking b' (setLevel depth side level) ∧ Moved b b' ∧ b'.book = if b.inWindow side level.price then
        (b.book.apply side level.price level.quantity).2 else b.book := by
  rw [BookBridge.applySide]
  by_cases hin : b.inWindow side level.price
  · obtain ⟨book, hok, hb, hm⟩ := h.put hin hl.quantity
    rw [hin]
    simp only [hok]
    exact ⟨_, _, rfl, hb, hm, rfl⟩
  · obtain ⟨hb, hm⟩ := (h.skip hl hin).counted (b.outsideUpdatesIgnored + 1)
    rw [if_pos (by simpa using hin), if_neg hin]
    exact ⟨_, _, rfl, hb, hm, rfl⟩

theorem Tracking.applySide (oldBest : Int) (deleted : Bool)
    (ha : ∀ level ∈ levels, Admitted (b.window side) side level) :
    ∃ deleted' b', b.applySide side oldBest levels deleted = (true, deleted', b') ∧
      Tracking b' (setLevels depth side levels) ∧ Moved b b' := by
  induction levels generalizing b depth deleted with
  | nil => exact ⟨deleted, b, rfl, h, .refl⟩
  | cons level levels ih =>
    obtain ⟨hl, ha⟩ := List.forall_mem_cons.mp ha
    obtain ⟨deleted1, b1, heq1, h1, hm1, -⟩ := h.applySide_cons levels oldBest deleted hl
    obtain ⟨deleted', b', heq, hb', hm'⟩ := ih h1 deleted1 (by rwa [hm1.window])
    exact ⟨deleted', b', heq1.trans heq, hb', hm1.trans hm'⟩

end

theorem validLevel_iff {tick : Int} : validLevel level tick ↔
    0 < tick ∧ 0 ≤ level.price ∧ 0 ≤ level.quantity ∧ level.price % tick = 0 := by
  simp [validLevel]

variable {update : DepthUpdate} {deletedBid deletedAsk : Bool} {best : Int} {id : Nat}

theorem strictlyWorse_iff : strictlyWorse side price best ↔ Ahead side best price := by
  cases side <;> simp [strictlyWorse, Ahead]

theorem admitted_of_refusal (hbt : (b.window side).Contains best)
    (h : b.refusal side best level = none) : Admitted (b.window side) side level := by
  unfold refusal at h
  split at h
  next hinvalid =>
    split at h
    next hdel => exact ⟨hdel.2.1, hdel.2.2.1.ge, fun _ hpos => absurd hdel.2.2.1 (by omega)⟩
    next => cases h
  next hval =>
    rw [Bool.not_eq_true', Bool.not_eq_false] at hval
    obtain ⟨ht, hp, hq, hgr⟩ := validLevel_iff.mp hval
    refine ⟨hp, hq, fun hout hpos => ?_⟩
    split at h
    next hin => exact absurd ((inWindow_iff ht).mp hin).2 hout
    next hin =>
    split at h
    next => cases h
    next hworse =>
    have hahead : Ahead side best level.price := by
      by_contra hno
      rw [← strictlyWorse_iff] at hno
      exact hworse ⟨by omega, by simpa using hno⟩
    exact behind_of_not_contains ht hgr hout hbt hahead.asymm

theorem Tracking.validate {best : Level} (h : Tracking b depth) (hb : (b.book.ladder side).best = some best)
    (hv : b.validate side (some best) levels = none) :
    ∀ level ∈ levels, Admitted (b.window side) side level := by
  intro level hmem
  refine admitted_of_refusal ?_ (List.findSome?_eq_none_iff.mp hv level hmem)
  rw [← h.windows side]
  exact Ladder.best_contains (h.holds side).sound hb

def Uncrossed (book : OrderBook) : Prop :=
  ∃ bid ask, book.bids.best = some bid ∧ book.asks.best = some ask ∧ bid.price < ask.price

theorem uncrossed_iff : Uncrossed book ↔ book.bids.best ≠ none ∧ book.asks.best ≠ none ∧ crossed book = false := by
  unfold Uncrossed crossed
  cases book.bids.best with
  | none => simp
  | some bid =>
    cases book.asks.best with
    | none | some => simp

theorem settle_eq (he : b.allowEmptySides = false) :
    (b.settle deletedBid deletedAsk id).1 = .applied ↔ ¬bidExhausted b.book deletedBid ∧
      ¬askExhausted b.book deletedAsk ∧ Uncrossed b.book := by
  rw [uncrossed_iff]
  unfold settle resync
  rw [he]
  by_cases h1 : bidExhausted b.book deletedBid
  · simp [h1]
  by_cases h2 : askExhausted b.book deletedAsk
  · simp [h2]
  by_cases h3 : b.book.bids.best = none
  · simp [h1, h2, h3]
  by_cases h4 : b.book.asks.best = none
  · simp [h1, h2, h4]
  by_cases h5 : crossed b.book
  · simp [h1, h2, h3, h4, h5]
  · simp [h1, h2, h3, h4, h5]

theorem settle_of_applied (h : (b.settle deletedBid deletedAsk id).1 = .applied) :
    b.settle deletedBid deletedAsk id = (.applied, { b with lastUpdateId := id }) := by
  unfold settle resync at h ⊢
  split at h
  next => cases h
  next h1 =>
  rw [if_neg h1]
  split at h
  next => cases h
  next h2 =>
  rw [if_neg h2]
  split at h
  next => cases h
  next h3 => rw [if_neg h3]

/-- An update that gets as far as the book: it is newer than the last one, both sides have a best
level and none of its levels is refused. -/
structure Passes (b : BookBridge) (update : DepthUpdate) (bid ask : Level) : Prop where
  loaded : b.loaded
  range : update.firstUpdateId ≤ update.finalUpdateId
  newer : b.lastUpdateId < update.finalUpdateId
  bestBid : b.book.bids.best = some bid
  bestAsk : b.book.asks.best = some ask
  bids : b.validate .bid (some bid) update.bids = none
  asks : b.validate .ask (some ask) update.asks = none

theorem passes_of_applied (he : b.allowEmptySides = false) (hnew : b.lastUpdateId < update.finalUpdateId)
    (h : (b.apply update).1 = .applied) : ∃ bid ask, Passes b update bid ask := by
  unfold apply at h
  split at h
  next => cases h
  next hld =>
  split at h
  next => cases h
  next hrg =>
  rw [if_neg (by omega)] at h
  dsimp only at h
  split at h
  next => cases h
  next hsds =>
  rw [he] at hsds
  simp only [Bool.not_false, true_and, not_or, ← ne_eq, ne_none_iff_exists'] at hsds
  obtain ⟨⟨bid, hbid⟩, ask, hask⟩ := hsds
  rw [hbid, hask] at h
  split at h
  next => cases h
  next hv =>
  obtain ⟨hvbid, hvask⟩ := or_eq_none_iff.mp hv
  exact ⟨bid, ask, by simpa using hld, by omega, hnew, hbid, hask, hvbid, hvask⟩

theorem Tracking.apply_eq {bid ask : Level} (h : Tracking b depth) (hp : Passes b update bid ask) :
    ∃ deletedBid b1 deletedAsk b2,
      b.applySide .bid bid.price update.bids false = (true, deletedBid, b1) ∧
      b1.applySide .ask ask.price update.asks false = (true, deletedAsk, b2) ∧
      b.apply update = b2.settle deletedBid deletedAsk update.finalUpdateId ∧ Moved b b2 ∧
      Tracking b2 (setLevels (setLevels depth .bid update.bids) .ask update.asks) := by
  have hbi : ∀ level ∈ update.bids, Admitted (b.window .bid) .bid level := h.validate hp.bestBid hp.bids
  obtain ⟨deletedBid, b1, heq1, hb1, hm1⟩ := h.applySide bid.price false hbi
  have has : ∀ level ∈ update.asks, Admitted (b1.window .ask) .ask level := by
    rw [hm1.window]
    exact h.validate hp.bestAsk hp.asks
  obtain ⟨deletedAsk, b2, heq2, hb2, hm2⟩ := hb1.applySide ask.price false has
  refine ⟨deletedBid, b1, deletedAsk, b2, heq1, heq2, ?_, hm1.trans hm2, hb2⟩
  have hrg := hp.range
  have hnwr := hp.newer
  unfold apply
  rw [if_neg (by simp [hp.loaded]), if_neg (by omega), if_neg (by omega)]
  rw [hp.bestBid, hp.bestAsk, if_neg (by simp), hp.bids, hp.asks]
  simp only [or_none, map_some, getD_some, heq1, heq2, Bool.not_true, Bool.false_eq_true, if_false]

end BookBridge

end SelfQuant.Mds
