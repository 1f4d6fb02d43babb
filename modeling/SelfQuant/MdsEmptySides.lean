import SelfQuant.MdsBridgeRun

namespace SelfQuant.Mds

open ReferenceBook List

def DepthSnapshot.levels (snapshot : DepthSnapshot) : Side → List Level
  | .bid => snapshot.bids
  | .ask => snapshot.asks

def DepthUpdate.levels (update : DepthUpdate) : Side → List Level
  | .bid => update.bids
  | .ask => update.asks

theorem ReferenceBook.load_pos {snap : DepthSnapshot} {side : Side} {price : Int}
    (h : 0 < (load snap).depth side price) : ∃ level ∈ snap.levels side, level.price = price ∧ 0 < level.quantity := by
  cases side with
  | bid =>
    rw [BookBridge.load_depth_bid] at h
    obtain ⟨level, hmem, hlvl⟩ | habs := setLevels_pos h
    · exact ⟨level, mem_of_mem_filter hmem, hlvl⟩
    · cases habs
  | ask =>
    obtain ⟨level, hmem, hlvl⟩ | habs := setLevels_pos h
    · exact ⟨level, mem_of_mem_filter hmem, hlvl⟩
    · rw [setLevels_other (by decide)] at habs
      cases habs

theorem ReferenceBook.setUpdate_pos {depth : Side → Depth} {update : DepthUpdate} {side : Side} {price : Int}
    (h : 0 < setLevels (setLevels depth .bid update.bids) .ask update.asks side price) :
    (∃ level ∈ update.levels side, level.price = price ∧ 0 < level.quantity) ∨ 0 < depth side price := by
  cases side with
  | bid =>
    rw [setLevels_other (by decide)] at h
    exact setLevels_pos h
  | ask =>
    obtain hlvl | hpos := setLevels_pos h
    · exact .inl hlvl
    · rw [setLevels_other (by decide)] at hpos
      exact .inr hpos

namespace BookBridge

variable {b b' : BookBridge} {depth : Side → Depth} {side : Side} {levels : List Level} {level : Level}
  {update : DepthUpdate} {r : ReferenceBook} {price : Int} {updates : List DepthUpdate}

theorem Tracking.admitted {oldBest : Option Level} (h : Tracking b depth) (hcap : 0 < b.book.bids.capacity)
    (hb : (b.book.ladder side).best = oldBest) (hv : b.validate side oldBest levels = none) :
    ∀ level ∈ levels, Admitted (b.window side) side level := by
  cases oldBest with
  | some best => exact h.validate hb hv
  | none =>
    intro level hmem
    refine admitted_of_refusal ?_ (findSome?_eq_none_iff.mp hv level hmem)
    exact ⟨0, hcap, by simp [PriceWindow.priceAt, window]⟩

theorem Tracking.applied (h : Tracking b depth) (hcap : 0 < b.book.bids.capacity)
    (hnew : b.lastUpdateId < update.finalUpdateId) (ha : (b.apply update).1 = .applied) :
    (∀ side, ∀ level ∈ update.levels side, Admitted (b.window side) side level) ∧
    ∃ b', (b.apply update).2 = { b' with lastUpdateId := update.finalUpdateId } ∧ Moved b b' ∧
      Tracking b' (setLevels (setLevels depth .bid update.bids) .ask update.asks) := by
  unfold apply at ha ⊢
  split at ha
  next => cases ha
  next hld =>
  rw [if_neg hld]
  split at ha
  next => cases ha
  next hrg =>
  rw [if_neg hrg]
  rw [if_neg (by omega)] at ha ⊢
  dsimp only at ha ⊢
  split at ha
  next => cases ha
  next hsds =>
  rw [if_neg hsds]
  split at ha
  next => cases ha
  next hv =>
  obtain ⟨hvbid, hvask⟩ := Option.or_eq_none_iff.mp hv
  have hbi : ∀ level ∈ update.bids, Admitted (b.window .bid) .bid level := h.admitted hcap rfl hvbid
  have has : ∀ level ∈ update.asks, Admitted (b.window .ask) .ask level := h.admitted hcap rfl hvask
  obtain ⟨deletedBid, b1, heq1, hb1, hm1⟩ := h.applySide ((b.book.bids.best.map (·.price)).getD int64Min) false hbi
  obtain ⟨deletedAsk, b2, heq2, hb2, hm2⟩ :=
    hb1.applySide ((b.book.asks.best.map (·.price)).getD int64Max) false (by rw [hm1.window]; exact has)
  simp only [heq1, heq2] at ha ⊢
  rw [settle_of_applied ha]
  refine ⟨fun side => ?_, b2, rfl, hm1.trans hm2, hb2⟩
  cases side with
  | bid => exact hbi
  | ask => exact has

def applyAll (b : BookBridge) : List DepthUpdate → Option BookBridge
  | [] => some b
  | update :: updates => if (b.apply update).1 = .applied then (b.apply update).2.applyAll updates else none

/-- A bridge in step with a book without bounds, with sides that may be empty. -/
structure Shows (r : ReferenceBook) (b : BookBridge) : Prop where
  tracking : Tracking b r.depth
  capacity : 0 < b.book.bids.capacity
  loaded : b.loaded
  lastUpdateId : b.lastUpdateId = r.lastUpdateId

theorem Shows.apply (h : Shows r b) (ha : (b.apply update).1 = .applied) :
    Shows (r.apply update) (b.apply update).2 ∧ (b.apply update).2.window = b.window := by
  unfold ReferenceBook.apply
  by_cases hold : update.finalUpdateId ≤ r.lastUpdateId
  · rw [if_pos hold, apply_stale h.loaded (range_of_applied ha) (by rw [h.lastUpdateId]; exact hold)]
    exact ⟨h, rfl⟩
  · have hid := h.lastUpdateId
    rw [if_neg hold]
    obtain ⟨-, b', heq, hm, htrk⟩ := h.tracking.applied h.capacity (by omega) ha
    rw [heq]
    refine ⟨⟨htrk.relabel _ b'.loaded, ?_, ?_, rfl⟩, ?_⟩
    · rw [hm.capacity]
      exact h.capacity
    · rw [hm.frame]
      exact h.loaded
    · funext side
      rw [← hm.window]
      cases side <;> rfl

theorem Shows.best (h : Shows r b) (hb : (b.book.ladder side).best = some level) :
    IsBest side (r.depth side) level := by
  have hbt := (h.tracking.holds side).isBest hb
  rwa [h.tracking.sides side] at hbt

theorem Shows.empty (h : Shows r b) (hb : (b.book.ladder side).best = none)
    (hin : 0 < r.depth side price → (b.window side).Contains price) : ¬0 < r.depth side price := by
  intro hpos
  have hc := hin hpos
  rw [← h.tracking.windows side] at hc
  obtain ⟨level, hlvl⟩ := (h.tracking.holds side).exists_best hc hpos
  rw [hb] at hlvl
  cases hlvl

theorem Shows.applyAll (h : Shows r b) (ha : b.applyAll updates = some b') :
    Shows (updates.foldl ReferenceBook.apply r) b' ∧ b'.window = b.window := by
  induction updates generalizing r b with
  | nil =>
    cases ha
    exact ⟨h, rfl⟩
  | cons update updates ih =>
    unfold applyAll at ha
    split at ha
    next happ =>
      obtain ⟨hnx, hwin⟩ := h.apply happ
      obtain ⟨hla, hwin'⟩ := ih hnx ha
      exact ⟨hla, hwin'.trans hwin⟩
    next => cases ha

theorem foldl_apply_pos (h : 0 < (updates.foldl ReferenceBook.apply r).depth side price) :
    (∃ level ∈ updates.flatMap (·.levels side), level.price = price ∧ 0 < level.quantity) ∨
      0 < r.depth side price := by
  induction updates generalizing r with
  | nil => exact .inr h
  | cons update updates ih =>
    rcases ih h with ⟨level, hmem, hlvl⟩ | hpos
    · exact .inl ⟨level, mem_append_right _ hmem, hlvl⟩
    · unfold ReferenceBook.apply at hpos
      split at hpos
      next => exact .inr hpos
      rcases setUpdate_pos hpos with ⟨level, hmem, hlvl⟩ | hpos
      · exact .inl ⟨level, mem_append_left _ hmem, hlvl⟩
      · exact .inr hpos

def createOpen (capacity : Nat) (tickSize : Int) (refineSnapshotTick : Bool) : BookBridge :=
  create (OrderBook.create capacity) tickSize refineSnapshotTick true

/-- The best level of a side is that of the book without bounds. A side without a level is empty there too, as
long as no level with a quantity was left out of its window. -/
theorem empty_side_is_empty (capacity : Nat) (tickSize : Int) (refineSnapshotTick : Bool) (snapshot : DepthSnapshot)
    (generation : Nat) (updates : List DepthUpdate) (loaded b : BookBridge)
    (hfits : ∀ level ∈ snapshot.asks, level.price ≤ int64Max)
    (hload : ((createOpen capacity tickSize refineSnapshotTick).loadSnapshot snapshot generation).1.action = .applied)
    (hloaded : ((createOpen capacity tickSize refineSnapshotTick).loadSnapshot snapshot generation).2 = loaded)
    (happlied : loaded.applyAll updates = some b) (side : Side) :
    let r := updates.foldl ReferenceBook.apply (load snapshot)
    (∀ level, (b.book.ladder side).best = some level → IsBest side (r.depth side) level) ∧
    ((∀ level ∈ snapshot.levels side ++ updates.flatMap (·.levels side), 0 < level.quantity →
        loaded.inWindow side level.price = true) →
      (b.book.ladder side).best = none → ∀ price, ¬0 < r.depth side price) := by
  obtain ⟨htrack, hl, hid, -, hcap, -⟩ := loadSnapshot_tracking (OrderBook.create_shaped capacity) (fun _ => hfits) hload
  rw [hloaded] at htrack hl hid hcap
  have hpositive : 0 < loaded.book.bids.capacity := by
    rw [hcap]
    exact Nat.lt_of_lt_of_le Nat.zero_lt_one (Nat.le_max_left 1 _)
  have hstart : Shows (load snapshot) loaded := ⟨htrack, hpositive, hl, hid⟩
  obtain ⟨hshows, hwin⟩ := hstart.applyAll happlied
  refine ⟨fun level hb => hshows.best hb, fun hinside hb price => hshows.empty hb fun hpos => ?_⟩
  have hlevel : ∃ level ∈ snapshot.levels side ++ updates.flatMap (·.levels side),
      level.price = price ∧ 0 < level.quantity := by
    rcases foldl_apply_pos hpos with ⟨level, hmem, hlevel⟩ | hpos
    · exact ⟨level, mem_append_right _ hmem, hlevel⟩
    · obtain ⟨level, hmem, hlevel⟩ := load_pos hpos
      exact ⟨level, mem_append_left _ hmem, hlevel⟩
  obtain ⟨level, hmem, rfl, hquantity⟩ := hlevel
  rw [hwin]
  exact ((inWindow_iff htrack.tick).mp (hinside level hmem hquantity)).2

def deepSnapshot : DepthSnapshot := { lastUpdateId := 10, bids := [⟨100, 5⟩, ⟨10, 7⟩], asks := [⟨101, 4⟩] }

def bestDeleted : DepthUpdate := { firstUpdateId := 11, finalUpdateId := 12, bids := [⟨100, 0⟩] }

def deepLoaded : BookBridge := ((createOpen 8 1 false).loadSnapshot deepSnapshot 1).2

/-- The side is shown as empty while the bid below its window is still there. -/
theorem exhausted_side_shown_empty :
    ((createOpen 8 1 false).loadSnapshot deepSnapshot 1).1.action = .applied ∧
    (deepLoaded.apply bestDeleted).1 = .applied ∧
    (deepLoaded.apply bestDeleted).2.book.bids.best = none ∧
    ((load deepSnapshot).apply bestDeleted).depth .bid 10 = 7 := by
  decide +kernel

def shallowSnapshot : DepthSnapshot := { lastUpdateId := 10, bids := [⟨100, 5⟩], asks := [⟨101, 4⟩] }

def shallowLoaded : BookBridge := ((createOpen 8 1 false).loadSnapshot shallowSnapshot 1).2

theorem empty_side_is_empty_shallow :
    (shallowLoaded.apply bestDeleted).2.book.bids.best = none ∧
      ∀ price, ¬0 < ((load shallowSnapshot).apply bestDeleted).depth .bid price := by
  have hload : ((createOpen 8 1 false).loadSnapshot shallowSnapshot 1).1.action = .applied := by decide +kernel
  have happ : shallowLoaded.applyAll [bestDeleted] = some (shallowLoaded.apply bestDeleted).2 := by
    rfl
  have hbest : (shallowLoaded.apply bestDeleted).2.book.bids.best = none := by decide +kernel
  have hinside : ∀ level ∈ shallowSnapshot.levels .bid ++ [bestDeleted].flatMap (·.levels .bid),
      0 < level.quantity → shallowLoaded.inWindow .bid level.price = true := by decide +kernel
  have h := empty_side_is_empty 8 1 false shallowSnapshot 1 [bestDeleted] shallowLoaded _ (by decide) hload rfl
    happ .bid
  exact ⟨hbest, h.2 hinside hbest⟩

end BookBridge

end SelfQuant.Mds
