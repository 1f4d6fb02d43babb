import SelfQuant.TraderOrderUpdate

namespace SelfQuant.Trader

open List FillAverageState Bool

variable (fills : List OrderFill)

def fillsQuantity : Decimal := (fills.map (·.quantity.value)).sum

def fillsNotional : Decimal := (fills.map fun fill => fill.quantity.value * fill.price.value).sum

theorem fillsQuantity_append (more : List OrderFill) :
    fillsQuantity (fills ++ more) = fillsQuantity fills + fillsQuantity more := by
  rw [fillsQuantity, map_append, sum_append]
  rfl

theorem fillsNotional_append (more : List OrderFill) :
    fillsNotional (fills ++ more) = fillsNotional fills + fillsNotional more := by
  rw [fillsNotional, map_append, sum_append]
  rfl

structure OrderFill.PricedIn (delivered : List OrderFill) (trade : OrderFill) : Prop where
  mem : trade ∈ delivered
  quantity : 0 < trade.quantity.value
  price : 0 < trade.price.value

/-- The average price is that of trades with different ids that make up the filled quantity. -/
def Covers (div : Decimal → Decimal → Decimal) (delivered : List OrderFill) (filled average : Decimal) : Prop :=
  ∃ trades : List OrderFill, (∀ trade ∈ trades, trade.PricedIn delivered) ∧ (trades.map (·.tradeID)).Nodup ∧
    fillsQuantity trades = filled ∧ average = div (fillsNotional trades) (fillsQuantity trades)

namespace FillAverageState

variable (delivered : List OrderFill)

variable (state : FillAverageState)

structure Counted (trades : List OrderFill) : Prop where
  priced : ∀ trade ∈ trades, trade.PricedIn delivered
  ids : trades.map (·.tradeID) = state.seenTradeIDs
  nodup : state.seenTradeIDs.Nodup
  quantity : state.fillQty = fillsQuantity trades
  notional : state.fillNotional = fillsNotional trades

/-- An entry that has not been started has seen nothing, and one whose average is still open counts only
trades that were delivered. -/
structure Tracks : Prop where
  fresh : state.ensured = false → state.seenTradeIDs = []
  counted : state.ensured → state.averageFinalized = false →
    state.seededPriced = false ∧ ∃ trades, state.Counted delivered trades

structure Observed (pending : FillAveragePending)
    (trades : List OrderFill) : Prop where
  priced : ∀ trade ∈ trades, trade.PricedIn delivered
  ids : trades.map (·.tradeID) = pending.newTradeIDs
  nodup : (pending.newTradeIDs ++ state.seenTradeIDs).Nodup
  quantity : pending.deltaFillQty = fillsQuantity trades
  notional : pending.deltaFillNotional = fillsNotional trades

section Entry

variable {div : Decimal → Decimal → Decimal} {state : FillAverageState} {pending : FillAveragePending}
  {delivered trades fills incoming inserted : List OrderFill} {fill : OrderFill} {order : Order}
  {status : OrderStatus} {authoritativeQty average : Decimal}

theorem Observed.observeFill (h : Observed delivered state pending trades) (hfi : fill ∈ delivered) :
    ∃ trades, Observed delivered state (state.observeFill pending fill) trades := by
  unfold FillAverageState.observeFill
  split_ifs with hblk hsn hnew
  · exact ⟨trades, h⟩
  · exact ⟨trades, h⟩
  · exact ⟨trades, h⟩
  split
  next quantity price hqty hpx =>
    split_ifs with hze hfe
    · exact ⟨trades, h⟩
    · exact ⟨trades, h⟩
    · have hpxd : fill.PricedIn delivered := by
        refine ⟨hfi, ?_, ?_⟩
        · rw [hqty]
          exact not_le.mp hze
        · rw [hpx]
          exact not_le.mp hfe
      refine ⟨fill :: trades, forall_mem_cons.mpr ⟨hpxd, h.priced⟩, ?_, ?_, ?_, ?_⟩
      · rw [map_cons, h.ids]
      · exact nodup_cons.mpr ⟨fun hmem => (mem_append.mp hmem).elim hnew hsn, h.nodup⟩
      · rw [h.quantity, fillsQuantity, fillsQuantity, map_cons, hqty]
        exact add_comm _ _
      · rw [h.notional, fillsNotional, fillsNotional, map_cons, hqty, hpx]
        exact add_comm _ _
  next => exact ⟨trades, h⟩

theorem Observed.foldl (h : Observed delivered state pending trades) (hfls : ∀ fill ∈ fills, fill ∈ delivered) :
    ∃ trades, Observed delivered state (fills.foldl state.observeFill pending) trades := by
  induction fills generalizing pending trades with
  | nil => exact ⟨trades, h⟩
  | cons fill fills ih =>
    have hfls := forall_mem_cons.mp hfls
    obtain ⟨trades, h⟩ := h.observeFill hfls.1
    exact ih h hfls.2

theorem prepare_observed (hsed : state.seededPriced = false) (hnd : state.seenTradeIDs.Nodup)
    (hinc : ∀ fill ∈ incoming, fill ∈ delivered) :
    ∃ trades, Observed delivered state (state.prepare div status authoritativeQty incoming inserted).1 trades ∧
      ∀ average, (state.prepare div status authoritativeQty incoming inserted).2 = some average →
        state.fillQty + fillsQuantity trades = authoritativeQty ∧
        average = div (state.fillNotional + fillsNotional trades) (state.fillQty + fillsQuantity trades) := by
  have hsta : Observed delivered state
      { candidateAuthoritativeQty := authoritativeQty, candidateLastPricedQty := state.lastPricedQty } [] :=
    ⟨fun trade hmem => absurd hmem not_mem_nil, rfl, hnd, rfl, rfl⟩
  obtain ⟨trades, h⟩ := hsta.foldl hinc
  refine ⟨trades, ?_⟩
  unfold prepare
  simp only [hsed, false_eq_true, if_false]
  split_ifs with hwrite
  · refine ⟨⟨h.priced, h.ids, h.nodup, h.quantity, h.notional⟩, fun average havg => ?_⟩
    rw [← h.quantity, ← h.notional]
    exact ⟨hwrite.2.2.2.1, (Option.some.inj havg).symm⟩
  · exact ⟨h, fun average havg => havg.elim⟩

theorem prepare_open (h : (state.prepare div status authoritativeQty incoming inserted).2 = some average) :
    state.averageFinalized = false := by
  by_contra hop
  have hfinal : state.averageFinalized = true := eq_true_of_not_eq_false hop
  simp [prepare, hfinal] at h

theorem Counted.commit (h : Counted delivered state trades) {new : List OrderFill}
    (hnew : Observed delivered state pending new) : Counted delivered (state.commit pending) (new ++ trades) where
  priced := forall_mem_append.mpr ⟨hnew.priced, h.priced⟩
  ids := by
    rw [map_append, hnew.ids, h.ids]
    rfl
  nodup := hnew.nodup
  quantity := by
    rw [fillsQuantity_append, add_comm, ← h.quantity, ← hnew.quantity]
    rfl
  notional := by
    rw [fillsNotional_append, add_comm, ← h.notional, ← hnew.notional]
    rfl

namespace Tracks

theorem mono (h : Tracks delivered state) {more : List OrderFill} (hmo : ∀ fill ∈ delivered, fill ∈ more) :
    Tracks more state where
  fresh := h.fresh
  counted := by
    intro hens hop
    obtain ⟨hsed, trades, hctd⟩ := h.counted hens hop
    refine ⟨hsed, trades, fun trade hmem => ?_, hctd.ids, hctd.nodup, hctd.quantity, hctd.notional⟩
    have hpxd := hctd.priced trade hmem
    exact ⟨hmo trade hpxd.mem, hpxd.quantity, hpxd.price⟩

theorem ensure (h : Tracks delivered state) : Tracks delivered (state.ensure order) := by
  unfold FillAverageState.ensure
  split_ifs with hens hpxd
  · exact h
  · exact ⟨fun hfalse => Bool.noConfusion hfalse, fun _ hop => Bool.noConfusion hop⟩
  · have hsn := h.fresh (eq_false_iff.mpr hens)
    refine ⟨fun hfalse => Bool.noConfusion hfalse, fun _ _ => ⟨rfl, [], ?_⟩⟩
    exact ⟨fun trade hmem => absurd hmem not_mem_nil, hsn.symm, hsn ▸ nodup_nil, rfl, rfl⟩

theorem commit (h : Tracks delivered state) (hens : state.ensured)
    (hinc : ∀ fill ∈ incoming, fill ∈ delivered) :
    Tracks delivered (state.commit (state.prepare div status authoritativeQty incoming inserted).1) where
  fresh := fun hfalse => absurd (hfalse.symm.trans hens) false_ne_true
  counted := by
    intro _ hop
    have hop : state.averageFinalized = false := (or_eq_false_iff.mp hop).2
    obtain ⟨hsed, trades, hctd⟩ := h.counted hens hop
    obtain ⟨new, hnew, -⟩ := prepare_observed hsed hctd.nodup hinc
    exact ⟨hsed, new ++ trades, hctd.commit hnew⟩

variable {markTerminal : Bool} {now : Int} {refs : Nat}

theorem marked (h : Tracks delivered state) : Tracks delivered (state.marked now markTerminal) := by
  unfold FillAverageState.marked
  split_ifs
  · refine ⟨h.fresh, fun hens hop => ?_⟩
    obtain ⟨hsed, trades, hctd⟩ := h.counted hens hop
    exact ⟨hsed, trades, hctd.priced, hctd.ids, hctd.nodup, hctd.quantity, hctd.notional⟩
  · exact h

theorem release (h : Tracks delivered state) :
    ∀ released ∈ state.release refs now markTerminal, Tracks delivered released := by
  intro released hrel
  unfold FillAverageState.release at hrel
  split_ifs at hrel
  · cases hrel
  · cases hrel
    exact h.marked

theorem acquire {entry : Option FillAverageState} (h : ∀ state ∈ entry, Tracks delivered state)
    : Tracks delivered (acquire entry refs now) := by
  have hemp : Tracks delivered {} := ⟨fun _ => rfl, fun hens => Bool.noConfusion hens⟩
  unfold FillAverageState.acquire
  split
  · exact hemp
  · split_ifs
    · exact hemp
    · exact h _ rfl

end Tracks

theorem ensure_ensured : (state.ensure order).ensured = true := by
  unfold ensure
  split_ifs with hens
  · exact hens
  · rfl
  · rfl

end Entry

end FillAverageState

namespace OrderStore

def TracksDelivered (store : OrderStore) (delivered : List OrderFill) : Prop :=
  ∀ state ∈ store.tracker, FillAverageState.Tracks delivered state

def writtenAverage (div : Decimal → Decimal → Decimal) (store : OrderStore) (update : OrderUpdate) : Option Decimal :=
  match mergeUpdate div store update with
  | .error _ => none
  | .ok (merged, inserted, _) =>
    if store.tracked ∧ update.commits then (store.prepared div update merged inserted).2 else none

/-- The tracker is told the filled quantity that the update stores. -/
def ToldStored (div : Decimal → Decimal → Decimal) (store : OrderStore) (update : OrderUpdate) : Prop :=
  (update.stream ∧ update.skipVenueWatermark = false) ∨
    ∀ merged inserted stored, mergeUpdate div store update = .ok (merged, inserted, stored) →
      merged.filledQuantity = store.row.filledQuantity

def deliveredFills (updates : List OrderUpdate) : List OrderFill := updates.flatMap (·.fills)

section Runs

variable {div : Decimal → Decimal → Decimal} {store : OrderStore} {update : OrderUpdate} {delivered : List OrderFill}
  {average : Decimal}

section

variable (h : store.TracksDelivered delivered)

include h

theorem TracksDelivered.entry :
    FillAverageState.Tracks delivered (store.entry update) := FillAverageState.Tracks.acquire h

theorem TracksDelivered.ensured : FillAverageState.Tracks delivered (store.ensured update) := h.entry.ensure

theorem TracksDelivered.rolledBack {entry : FillAverageState}
    (hent : FillAverageState.Tracks delivered entry) :
    (store.rolledBack update entry).TracksDelivered delivered := by
  intro state hst
  unfold OrderStore.rolledBack at hst
  split_ifs at hst
  · exact hent.release state hst
  · exact h state hst

theorem TracksDelivered.applyOrderUpdate (hfls : ∀ fill ∈ update.fills, fill ∈ delivered) :
    (applyOrderUpdate div store update).TracksDelivered delivered := by
  unfold OrderStore.applyOrderUpdate
  split
  · exact h.rolledBack h.entry
  · split_ifs
    · intro state hst
      unfold committed at hst
      split_ifs at hst
      · exact (h.ensured.commit ensure_ensured hfls).release state hst
      · exact h state hst
    · exact h.rolledBack h.ensured

theorem TracksDelivered.mono {more : List OrderFill}
    (hmo : ∀ fill ∈ delivered, fill ∈ more) : store.TracksDelivered more :=
  fun state hst => (h state hst).mono hmo

theorem TracksDelivered.run (updates : List OrderUpdate) :
    (run div store updates).TracksDelivered (delivered ++ deliveredFills updates) := by
  induction updates generalizing store delivered with
  | nil => exact h.mono fun fill hmem => mem_append_left _ hmem
  | cons update updates ih =>
    have hst : (OrderStore.applyOrderUpdate div store update).TracksDelivered (delivered ++ update.fills) :=
      (h.mono fun fill hmem => mem_append_left _ hmem).applyOrderUpdate fun fill hmem => mem_append_right _ hmem
    have hrun := ih hst
    rw [append_assoc] at hrun
    exact hrun

end

theorem writtenAverage_eq_some (h : writtenAverage div store update = some average) :
    ∃ merged inserted stored, mergeUpdate div store update = .ok (merged, inserted, stored) ∧
      (store.prepared div update merged inserted).2 = some average ∧
      (applyOrderUpdate div store update).row.filledQuantity = merged.filledQuantity ∧
      (applyOrderUpdate div store update).row.averagePrice = average := by
  unfold writtenAverage at h
  split at h
  next => cases h
  next merged inserted stored hmrg =>
  split_ifs at h with hwrs
  have happ : applyOrderUpdate div store update = store.committed div update merged inserted stored := by
    simp only [applyOrderUpdate, hmrg, hwrs.2, if_true]
  refine ⟨merged, inserted, stored, hmrg, h, ?_, ?_⟩
  · rw [happ]
    rfl
  · rw [happ]
    simp only [committed, written, hwrs.1, if_true, h, Option.getD_some]

theorem ToldStored.authoritativeQty_eq (h : ToldStored div store update) {merged : Order}
    {inserted : List OrderFill} {stored : List (String × String)}
    (hmrg : mergeUpdate div store update = .ok (merged, inserted, stored)) :
    store.authoritativeQty update merged = merged.filledQuantity := by
  unfold authoritativeQty
  rcases h with ⟨hstrm, hskip⟩ | hsm
  · rw [hstrm, hskip]
    rfl
  · rw [hsm merged inserted stored hmrg, ite_self]

theorem TracksDelivered.covers (h : store.TracksDelivered delivered)
    (hfls : ∀ fill ∈ update.fills, fill ∈ delivered)
    (hwrs : writtenAverage div store update = some average) (hto : ToldStored div store update) :
    Covers div delivered (OrderStore.applyOrderUpdate div store update).row.filledQuantity
      (OrderStore.applyOrderUpdate div store update).row.averagePrice := by
  obtain ⟨merged, inserted, stored, hmrg, havg, hfil, hpx⟩ := writtenAverage_eq_some hwrs
  obtain ⟨hsed, trades, hctd⟩ := h.ensured.counted ensure_ensured (prepare_open havg)
  obtain ⟨new, hnew, hwritten⟩ := prepare_observed hsed hctd.nodup hfls
  obtain ⟨hqty, hntl⟩ := hwritten average havg
  have hall := hctd.commit hnew
  rw [hfil, hpx]
  refine ⟨new ++ trades, hall.priced, ?_, ?_, ?_⟩
  · rw [hall.ids]
    exact hall.nodup
  · rw [fillsQuantity_append, add_comm, ← hctd.quantity, hqty, hto.authoritativeQty_eq hmrg]
  · rw [hntl, fillsNotional_append, fillsQuantity_append, hctd.quantity, hctd.notional,
      add_comm (fillsNotional trades), add_comm (fillsQuantity trades)]

/-- Whenever the tracker makes an update of a run write its average price, and was told the filled quantity
that the update stores, the average is that of different trades of the order that make up this quantity. -/
theorem written_average_covers (div : Decimal → Decimal → Decimal) (start : OrderStore)
    (hstart : start.tracker = none) (before : List OrderUpdate) (update : OrderUpdate) (average : Decimal)
    (hwrites : writtenAverage div (run div start before) update = some average)
    (htold : ToldStored div (run div start before) update) :
    Covers div (deliveredFills (before ++ [update]))
      (applyOrderUpdate div (run div start before) update).row.filledQuantity
      (applyOrderUpdate div (run div start before) update).row.averagePrice := by
  have hnone : start.TracksDelivered [] := by
    intro state hstate
    rw [hstart] at hstate
    cases hstate
  have hfills : deliveredFills (before ++ [update]) = deliveredFills before ++ update.fills := by
    rw [deliveredFills, flatMap_append, flatMap_singleton]
    rfl
  rw [hfills]
  refine TracksDelivered.covers ?_ (fun fill hmem => mem_append_right _ hmem) hwrites htold
  exact (hnone.run before).mono fun fill hmem => mem_append_left _ hmem

def hyperliquidOrder : OrderStore where
  row := { quantity := 20, venueOrderID := "42" }
  hyperliquid := true
  arbitrage := true

def trade (id : String) (quantity price : Decimal) : OrderFill :=
  { tradeID := id, quantity := .number quantity, price := .number price }

def streamFilled (filled : Decimal) : OrderUpdate where
  result := { status := .status .partiallyFilled, filledQuantity := .number filled }
  eventAt := some 1
  stream := true

def auditTrade (fill : OrderFill) : OrderUpdate where
  result := {}
  eventAt := some 2
  stream := true
  fills := [fill]
  skipVenueWatermark := true

def canceledAt (filled : Decimal) (stream : Bool) : OrderUpdate where
  result := { status := .status .canceled, filledQuantity := .number filled }
  eventAt := some 3
  stream

def fiveTraded : List OrderUpdate := [streamFilled 5, auditTrade (trade "t1" 5 100)]

/-- A query that finds the order canceled at ten makes the tracker write the price of the one trade of five
that it knows. -/
theorem stale_quantity_writes_average : hyperliquidOrder.tracker = none ∧
    writtenAverage Decimal.div (run Decimal.div hyperliquidOrder fiveTraded) (canceledAt 10 false) = some 100 ∧
    (applyOrderUpdate Decimal.div (run Decimal.div hyperliquidOrder fiveTraded)
      (canceledAt 10 false)).row.filledQuantity = 10 ∧
    ∀ average, ¬ Covers Decimal.div (deliveredFills (fiveTraded ++ [canceledAt 10 false])) 10 average := by
  refine ⟨rfl, by decide +kernel, by decide +kernel, ?_⟩
  rintro average ⟨trades, hpriced, hnodup, hquantity, -⟩
  have honly : ∀ other ∈ trades, other = trade "t1" 5 100 :=
    fun other hmem => mem_singleton.mp (hpriced other hmem).mem
  match trades with
  | [] => exact absurd hquantity (by decide +kernel)
  | [first] =>
    rw [honly first mem_cons_self] at hquantity
    exact absurd hquantity (by decide +kernel)
  | first :: second :: rest =>
    rw [honly first mem_cons_self, honly second (mem_cons_of_mem _ mem_cons_self)] at hnodup
    exact (nodup_cons.mp hnodup).1 mem_cons_self

theorem written_average_covers_canceled : hyperliquidOrder.tracker = none ∧
    Covers Decimal.div (deliveredFills (fiveTraded ++ [canceledAt 5 true]))
      (applyOrderUpdate Decimal.div (run Decimal.div hyperliquidOrder fiveTraded)
        (canceledAt 5 true)).row.filledQuantity
      (applyOrderUpdate Decimal.div (run Decimal.div hyperliquidOrder fiveTraded)
        (canceledAt 5 true)).row.averagePrice :=
  ⟨rfl, written_average_covers Decimal.div hyperliquidOrder rfl fiveTraded (canceledAt 5 true) 100
    (by decide +kernel) (.inl ⟨rfl, rfl⟩)⟩

end Runs

end OrderStore

end SelfQuant.Trader
