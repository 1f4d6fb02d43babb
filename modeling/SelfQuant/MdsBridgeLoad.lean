import SelfQuant.MdsBridgeRefines

namespace SelfQuant.Mds.BookBridge

open List ReferenceBook Int PriceWindow

variable {b b' : BookBridge} {book : OrderBook} {depth : Side → Depth} {side : Side} {level : Level}
  {levels : List Level} {gen : Nat} {snap : DepthSnapshot}

structure Shaped (book : OrderBook) : Prop where
  bids : book.bids.side = .bid
  asks : book.asks.side = .ask
  capacity : book.asks.capacity = book.bids.capacity

theorem Tracking.loadSide (h : Tracking b depth) (hq : ∀ level ∈ levels, 0 ≤ level.quantity)
    (ha : ∀ level ∈ levels, 0 < level.quantity → Admitted (b.window side) side level) (inside outside : Nat) :
    ∃ b' inside' outside', b.loadSide side levels inside outside = (true, b', inside', outside') ∧
      Tracking b' (setLevels depth side (levels.filter (·.quantity > 0))) ∧ Moved b b' ∧
      (inside' ≠ inside → ∃ level ∈ levels, 0 < level.quantity ∧ (b.window side).Contains level.price) := by
  induction levels generalizing b depth inside outside with
  | nil => exact ⟨b, inside, outside, rfl, h, .refl, fun hne => absurd rfl hne⟩
  | cons level levels ih =>
    have hq' : ∀ level ∈ levels, 0 ≤ level.quantity := (forall_mem_cons.mp hq).2
    have ha' : ∀ level ∈ levels, 0 < level.quantity → Admitted (b.window side) side level :=
      (forall_mem_cons.mp ha).2
    unfold loadSide
    by_cases hz : level.quantity = 0
    · rw [if_pos hz, filter_cons_of_neg (by simp [hz])]
      obtain ⟨b', inside', outside', heq, hb', hm, hin⟩ := ih h hq' ha' inside outside
      refine ⟨b', inside', outside', heq, hb', hm, fun hne => ?_⟩
      obtain ⟨l, hl, hpos, hc⟩ := hin hne
      exact ⟨l, mem_cons_of_mem _ hl, hpos, hc⟩
    · have hpos : 0 < level.quantity := by
        have := hq level (mem_cons_self ..)
        omega
      have hlvl := ha level (mem_cons_self ..) hpos
      rw [if_neg hz, filter_cons_of_pos (by simpa using hpos)]
      by_cases hin : b.inWindow side level.price
      · obtain ⟨book, hok, hb1, hm1⟩ := h.put hin hlvl.quantity
        obtain ⟨b', inside', outside', heq, hb', hm, _⟩ := ih hb1 hq' (by
          rw [hm1.window]
          exact ha') (inside + 1) outside
        simp only [hin, hok]
        exact ⟨b', inside', outside', heq, hb', hm1.trans hm, fun _ =>
          ⟨level, mem_cons_self .., hpos, ((inWindow_iff h.tick).mp hin).2⟩⟩
      · rw [if_pos (by simpa using hin)]
        obtain ⟨b', inside', outside', heq, hb', hm, hins⟩ := ih (h.skip hlvl hin) hq' ha' inside (outside + 1)
        refine ⟨b', inside', outside', heq, hb', hm, fun hne => ?_⟩
        obtain ⟨l, hl, hlpos, hc⟩ := hins hne
        exact ⟨l, mem_cons_of_mem _ hl, hlpos, hc⟩

variable {better : Int → Int → Int} {base : Side → Depth} {bestBid bestAsk : Int}

theorem bestPrice_bound {R : Int → Int → Prop} (hrf : ∀ a, R a a)
    (htrans : ∀ {a c d}, R a c → R c d → R a d) (hlf : ∀ a c, R a (better a c))
    (hrgt : ∀ a c, R c (better a c)) (start : Int) : R start (bestPrice better start levels) ∧
      ∀ level ∈ levels, 0 < level.quantity → R level.price (bestPrice better start levels) := by
  induction levels generalizing start with
  | nil => exact ⟨hrf start, fun _ h => absurd h not_mem_nil⟩
  | cons first levels ih =>
    obtain ⟨hsta, hlvs⟩ := ih (if first.quantity > 0 then better start first.price else start)
    refine ⟨htrans ?_ hsta, fun level hmem hpos => ?_⟩
    · split
      next => exact hlf ..
      next => exact hrf _
    · obtain rfl | hmem := mem_cons.mp hmem
      · refine htrans ?_ hsta
        rw [if_pos hpos]
        exact hrgt ..
      · exact hlvs level hmem hpos

theorem le_bestBid (hmem : level ∈ levels) (hpos : 0 < level.quantity) :
    level.price ≤ bestPrice max int64Min levels :=
  (bestPrice_bound (R := (· ≤ ·)) le_refl le_trans le_max_left le_max_right _).2 level hmem hpos

theorem bestAsk_le (hmem : level ∈ levels) (hpos : 0 < level.quantity) :
    bestPrice min int64Max levels ≤ level.price :=
  (bestPrice_bound (R := (· ≥ ·)) le_refl (fun h h' => le_trans h' h) min_le_left min_le_right _).2 level hmem hpos

theorem placeWindows_tracking (hs : Shaped b.book) (ht : 0 < b.tickSize) (bestBid bestAsk : Int)
    (gen : Nat) : Tracking (b.placeWindows bestBid bestAsk gen) (fun _ _ => 0) := by
  refine ⟨fun side => ?_, fun side => ?_, fun side => ?_⟩
  · cases side with
    | bid | ask => exact Ladder.reset_holds _ _ ht
  · cases side with
    | bid => exact hs.bids
    | ask => exact hs.asks
  · cases side with
    | bid => rfl
    | ask =>
      show PriceWindow.mk _ _ b.book.asks.capacity = _
      rw [hs.capacity]
      rfl

theorem placeWindows_admitted (hv : validLevel level b.tickSize)
    (hle : match side with | .bid => level.price ≤ bestBid | .ask => bestAsk ≤ level.price) :
    Admitted ((b.placeWindows bestBid bestAsk gen).window side) side level := by
  obtain ⟨ht, hp, hq, hgr⟩ := validLevel_iff.mp hv
  refine ⟨hp, hq, fun hout _ => ?_⟩
  obtain ⟨ticks, hticks⟩ := dvd_of_emod_eq_zero hgr
  have hquo : level.price / b.tickSize = ticks := by
    rw [hticks, mul_ediv_cancel_left _ (ne_of_gt ht)]
  rw [hticks, mul_comm] at hout ⊢
  have hrange := ticks_outside hout
  cases side with
  | bid =>
    have hdiv := hquo ▸ Int.ediv_le_ediv ht hle
    refine mul_lt_mul_of_pos_right ?_ ht
    simp only [window, baseTicks, placeWindows, OrderBook.reset, Ladder.reset] at hrange ⊢
    omega
  | ask =>
    have hdiv := hquo ▸ Int.ediv_le_ediv ht hle
    refine mul_le_mul_of_nonneg_right ?_ ht.le
    simp only [window, baseTicks, placeWindows, OrderBook.reset, Ladder.reset] at hrange ⊢
    omega

section

variable (h : Tracking b depth) (hd : depth side = setLevels base side (levels.filter (·.quantity > 0)) side)

include h hd

theorem Tracking.best_mem {best : Level}
    (hz : ∀ price, base side price = 0) (hb : (b.book.ladder side).best = some best) :
    ∃ level ∈ levels, 0 < level.quantity ∧ level.price = best.price := by
  have hbt := (h.holds side).isBest hb
  have hpos := hbt.positive
  rw [hbt.quantity, hd] at hpos
  obtain ⟨level, hmem, hpx, -⟩ | habs := setLevels_pos hpos
  · obtain ⟨hin, hq⟩ := mem_filter.mp hmem
    exact ⟨level, hin, of_decide_eq_true hq, hpx⟩
  · rw [hz] at habs
    cases habs

theorem Tracking.exists_best (hin : level ∈ levels) (hpos : 0 < level.quantity)
    (hc : (b.window side).Contains level.price) : ∃ best, (b.book.ladder side).best = some best := by
  rw [← h.windows side] at hc
  refine (h.holds side).exists_best hc ?_
  rw [hd]
  exact setLevels_mem_pos (fun l hl => of_decide_eq_true (mem_filter.mp hl).2)
    (mem_filter.mpr ⟨hin, by simpa using hpos⟩)

end

/-- The levels of the snapshot that the windows take in, and what is known of the rest. The asks may all be at
one price, wherever it is. -/
structure Loadable (b : BookBridge) (snapshot : DepthSnapshot) : Prop where
  bids : ∀ level ∈ snapshot.bids, 0 ≤ level.quantity ∧ (0 < level.quantity → Admitted (b.window .bid) .bid level)
  asks : ∀ level ∈ snapshot.asks, 0 ≤ level.price ∧ 0 ≤ level.quantity
  askWindow : (∀ level ∈ snapshot.asks, 0 < level.quantity → Admitted (b.window .ask) .ask level) ∨
    ∃ price, ∀ level ∈ snapshot.asks, 0 < level.quantity → level.price = price

theorem loadSide_outside (hq : ∀ level ∈ levels, 0 ≤ level.quantity)
    (hout : ∀ level ∈ levels, 0 < level.quantity → b.inWindow side level.price = false) (inside outside : Nat) :
    ∃ outside', b.loadSide side levels inside outside = (true, b, inside, outside') := by
  induction levels generalizing outside with
  | nil => exact ⟨outside, rfl⟩
  | cons level levels ih =>
    have hrs := ih (forall_mem_cons.mp hq).2 (forall_mem_cons.mp hout).2
    unfold loadSide
    by_cases hz : level.quantity = 0
    · rw [if_pos hz]
      exact hrs outside
    · have hnn := hq level mem_cons_self
      have hin := hout level mem_cons_self (by omega)
      rw [if_neg hz, hin]
      exact hrs (outside + 1)

theorem load_depth_bid : (load snap).depth .bid =
    setLevels (fun _ _ => 0) .bid (snap.bids.filter (·.quantity > 0)) .bid :=
  setLevels_other (by decide)

theorem Tracking.loadLevels (h : Tracking b (fun _ _ => 0)) (hl : Loadable b snap)
    (ha : (b.loadLevels snap gen).1.action = .applied) :
    ∃ b', Moved b b' ∧ (b.loadLevels snap gen).2 = { b' with lastUpdateId := snap.lastUpdateId, loaded := true } ∧
      Tracking b' (load snap).depth ∧
      (snap.bids ≠ [] → ∃ bid, b'.book.bids.best = some bid) ∧
      (snap.asks ≠ [] → ∃ ask, b'.book.asks.best = some ask) := by
  have hq1 : ∀ level ∈ snap.bids, 0 ≤ level.quantity := fun level hmem => (hl.bids level hmem).1
  have ha1 : ∀ level ∈ snap.bids, 0 < level.quantity → Admitted (b.window .bid) .bid level :=
    fun level hmem => (hl.bids level hmem).2
  obtain ⟨b1, loadedBids, outsideBids, heq1, hb1, hm1, hin1⟩ := h.loadSide hq1 ha1 0 0
  have hq2 : ∀ level ∈ snap.asks, 0 ≤ level.quantity := fun level hmem => (hl.asks level hmem).2
  have ha2 : ∀ level ∈ snap.asks, 0 < level.quantity → Admitted (b1.window .ask) .ask level := by
    rcases hl.askWindow with hall | ⟨price, hpx⟩
    · rw [hm1.window]
      exact hall
    · by_cases hin : (b1.window .ask).Contains price
      · intro level hmem hpos
        obtain ⟨hp, hq⟩ := hl.asks level hmem
        exact ⟨hp, hq, fun hout => absurd (hpx level hmem hpos ▸ hin) hout⟩
      · -- an ask that is not in the window would be the only price, and the snap refused
        have hout : ∀ level ∈ snap.asks, 0 < level.quantity → b1.inWindow .ask level.price = false := by
          intro level hmem hpos
          rw [Bool.eq_false_iff, ne_eq, inWindow_iff hb1.tick, hpx level hmem hpos]
          exact fun h => hin h.2
        obtain ⟨outsideAsks, heq2⟩ := loadSide_outside hq2 hout 0 0
        unfold BookBridge.loadLevels at ha
        simp only [heq1, heq2, if_true] at ha
        split at ha
        next => cases ha
        next hok =>
        simp only [Bool.not_true, Bool.false_eq_true, false_or, not_or, not_and] at hok
        have hnil : snap.asks = [] := by
          by_contra hne
          exact hok.2 hne trivial
        rw [hnil]
        exact fun level hmem => (not_mem_nil hmem).elim
  obtain ⟨b2, loadedAsks, outsideAsks, heq2, hb2, hm2, hin2⟩ := hb1.loadSide hq2 ha2 0 0
  have hm := hm1.trans hm2
  unfold BookBridge.loadLevels at ha ⊢
  simp only [heq1, heq2, if_true] at ha ⊢
  split at ha
  next => cases ha
  next hok =>
  rw [if_neg hok]
  simp only [Bool.not_true, Bool.false_eq_true, false_or, not_or, not_and] at hok
  refine ⟨b2, hm, rfl, hb2, fun hbi => ?_, fun has => ?_⟩
  · obtain ⟨level, hmem, hpos, hc⟩ := hin1 (hok.1 hbi)
    rw [← hm.window] at hc
    exact hb2.exists_best load_depth_bid hmem hpos hc
  · obtain ⟨level, hmem, hpos, hc⟩ := hin2 (hok.2 has)
    rw [← hm2.window] at hc
    exact hb2.exists_best rfl hmem hpos hc

theorem Tracking.uncrossed {bid ask : Level} (h : Tracking b (load snap).depth)
    (hord : ∀ bid ∈ snap.bids, 0 < bid.quantity → ∀ ask ∈ snap.asks, 0 < ask.quantity → bid.price < ask.price)
    (hbid : b.book.bids.best = some bid) (hask : b.book.asks.best = some ask) : Uncrossed b.book := by
  have hze : ∀ price, setLevels (fun _ _ => 0) .bid (snap.bids.filter (·.quantity > 0)) .ask price = 0 := by
    intro price
    rw [setLevels_other (by decide)]
  obtain ⟨bidLevel, hbmem, hbpos, hbprice⟩ := h.best_mem load_depth_bid (fun _ => rfl) hbid
  obtain ⟨askLevel, hamem, hapos, haprice⟩ := h.best_mem rfl hze hask
  refine ⟨bid, ask, hbid, hask, ?_⟩
  rw [← hbprice, ← haprice]
  exact hord bidLevel hbmem hbpos askLevel hamem hapos

/-- A snapshot with valid levels, and prices for the two windows that none of them goes beyond. An ask at the
last price of all counts as none. -/
structure Placeable (b : BookBridge) (snapshot : DepthSnapshot) (bestBid bestAsk : Int) : Prop where
  tick : 0 < b.tickSize
  bids : ∀ level ∈ snapshot.bids, validLevel level b.tickSize ∧ (0 < level.quantity → level.price ≤ bestBid)
  asks : ∀ level ∈ snapshot.asks, validLevel level b.tickSize
  bestAsk : (∀ level ∈ snapshot.asks, 0 < level.quantity → bestAsk ≤ level.price) ∨
    (b.allowEmptySides = true ∧ ∀ level ∈ snapshot.asks, 0 < level.quantity → int64Max ≤ level.price)
  strict : b.allowEmptySides = false → snapshot.bids ≠ [] ∧ snapshot.asks ≠ [] ∧
    ∀ bid ∈ snapshot.bids, 0 < bid.quantity → ∀ ask ∈ snapshot.asks, 0 < ask.quantity → bid.price < ask.price

theorem Placeable.loadable (h : Placeable b snap bestBid bestAsk)
    (hft : b.allowEmptySides = true → ∀ level ∈ snap.asks, level.price ≤ int64Max) :
    Loadable (b.placeWindows bestBid bestAsk gen) snap := by
  refine ⟨fun level hmem => ?_, fun level hmem => ?_, ?_⟩
  · obtain ⟨hval, hbt⟩ := h.bids level hmem
    exact ⟨(validLevel_iff.mp hval).2.2.1, fun hpos => placeWindows_admitted hval (hbt hpos)⟩
  · obtain ⟨-, hp, hq, -⟩ := validLevel_iff.mp (h.asks level hmem)
    exact ⟨hp, hq⟩
  · rcases h.bestAsk with hbt | ⟨he, hla⟩
    · exact .inl fun level hmem hpos => placeWindows_admitted (h.asks level hmem) (hbt level hmem hpos)
    · exact .inr ⟨int64Max, fun level hmem hpos => le_antisymm (hft he level hmem) (hla level hmem hpos)⟩

theorem loadSnapshot_placed (ha : (b.loadSnapshot snap gen).1.action = .applied) :
    ∃ bestBid bestAsk, Placeable (b.beginLoad snap gen) snap bestBid bestAsk ∧
      b.loadSnapshot snap gen = ((b.beginLoad snap gen).placeWindows bestBid bestAsk gen).loadLevels snap gen := by
  unfold BookBridge.loadSnapshot at ha ⊢
  dsimp only at ha ⊢
  split at ha
  next => cases ha
  next hsds =>
  rw [if_neg hsds]
  split at ha
  next => cases ha
  next hvbids =>
  rw [if_neg hvbids]
  split at ha
  next => cases ha
  next hvasks =>
  rw [if_neg hvasks]
  split at ha
  next => cases ha
  next hbt =>
  rw [if_neg hbt]
  rw [Bool.not_eq_true', Bool.not_eq_false, all_eq_true] at hvbids hvasks
  refine ⟨_, _, ⟨?_, fun level hmem => ⟨hvbids level hmem, fun hpos => ?_⟩, hvasks, ?_, fun he => ?_⟩, rfl⟩
  · omega
  · have hle := le_bestBid hmem hpos
    have hpx := (validLevel_iff.mp (hvbids level hmem)).2.1
    rw [if_neg (by unfold int64Min at *; omega)]
    exact hle
  · by_cases hask : bestPrice min int64Max snap.asks = int64Max
    · refine .inr ⟨?_, fun level hmem hpos => hask ▸ bestAsk_le hmem hpos⟩
      by_contra he
      exact hbt (.inr (.inl ⟨by simpa using he, .inr (not_not.mpr hask)⟩))
    · rw [if_neg (not_not.mpr hask)]
      exact .inl fun level hmem hpos => bestAsk_le hmem hpos
  · rw [he] at hsds hbt
    simp only [Bool.not_false, true_and, not_or] at hsds hbt
    obtain ⟨-, -, hbi, has⟩ := hsds
    refine ⟨hbi, has, fun bid hb hbpos ask ha hapos => ?_⟩
    have hle := le_bestBid hb hbpos
    have hle' := bestAsk_le ha hapos
    omega

theorem loadSnapshot_tracking (hs : Shaped b.book)
    (hft : b.allowEmptySides = true → ∀ level ∈ snap.asks, level.price ≤ int64Max)
    (ha : (b.loadSnapshot snap gen).1.action = .applied) :
    Tracking (b.loadSnapshot snap gen).2 (load snap).depth ∧
      (b.loadSnapshot snap gen).2.loaded ∧
      (b.loadSnapshot snap gen).2.lastUpdateId = snap.lastUpdateId ∧
      (b.loadSnapshot snap gen).2.allowEmptySides = b.allowEmptySides ∧
      (b.loadSnapshot snap gen).2.book.bids.capacity = b.book.bids.capacity ∧
      (b.allowEmptySides = false → Uncrossed (b.loadSnapshot snap gen).2.book) := by
  obtain ⟨bestBid, bestAsk, hpl, heq⟩ := loadSnapshot_placed ha
  have hs' : Shaped (b.beginLoad snap gen).book := ⟨hs.bids, hs.asks, hs.capacity⟩
  have htrk := placeWindows_tracking hs' hpl.tick bestBid bestAsk gen
  rw [heq] at ha ⊢
  obtain ⟨b', hm, hld, htrk', hbi, has⟩ := htrk.loadLevels (hpl.loadable hft) ha
  rw [hld]
  refine ⟨htrk'.relabel _ _, rfl, rfl, ?_, ?_, fun he => ?_⟩
  · rw [hm.frame]
    rfl
  · exact hm.capacity
  · obtain ⟨hbid, hask, hord⟩ := hpl.strict he
    obtain ⟨bid, hbid⟩ := hbi hbid
    obtain ⟨ask, hask⟩ := has hask
    exact htrk'.uncrossed hord hbid hask

end SelfQuant.Mds.BookBridge
