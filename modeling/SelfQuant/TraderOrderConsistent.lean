import SelfQuant.StepAlong
import SelfQuant.TraderOrderUpdate

namespace SelfQuant.Trader

/-- The filled quantity is within the quantity, and an order that is filled up is `filled`. -/
structure Order.Consistent (order : Order) : Prop where
  positive : 0 < order.quantity
  nonneg : 0 ≤ order.filledQuantity
  bounded : order.filledQuantity ≤ order.quantity
  full : order.filledQuantity = order.quantity → order.status = .filled

structure Order.Advances (order after : Order) : Prop where
  quantity : after.quantity = order.quantity
  grows : order.filledQuantity ≤ after.filledQuantity
  nonneg : 0 ≤ after.filledQuantity
  bounded : after.filledQuantity ≤ after.quantity
  full : after.filledQuantity = after.quantity → after.status = .filled
  terminal : order.status.terminal → after.status = order.status ∨ after.status = .filled

section Merge

variable {div : Decimal → Decimal → Decimal} {order merged : Order} {result : VenueResult} {fresh : Bool}
  {insertedFills : List OrderFill} {filled quantity : Decimal}

theorem Order.Consistent.advances_named (h : order.Consistent) : order.Advances (order.named result) where
  quantity := rfl
  grows := le_rfl
  nonneg := h.nonneg
  bounded := h.bounded
  full := h.full
  terminal := fun _ => .inl rfl

theorem Order.Advances.consistent (h : order.Advances merged) (hpos : 0 < order.quantity) : merged.Consistent where
  positive := by
    rw [h.quantity]
    exact hpos
  nonneg := h.nonneg
  bounded := h.bounded
  full := h.full

theorem capFilled_le (hpos : 0 < quantity) : capFilled filled quantity ≤ quantity := by
  unfold capFilled
  split_ifs with hfu
  · exact le_rfl
  · exact (not_le.mp fun hle => hfu ⟨hpos, hle⟩).le

theorem le_capFilled {old : Decimal} (hold : old ≤ quantity) (hfil : old ≤ filled) :
    old ≤ capFilled filled quantity := by
  unfold capFilled
  split_ifs
  · exact hold
  · exact hfil

theorem Order.Consistent.advances_report (h : order.Consistent)
    (hfls : ∀ fill ∈ insertedFills, 0 ≤ fill.quantity.value)
    (hmrg : mergeReport div (order.named result) result fresh insertedFills = .ok merged) :
    order.Advances merged := by
  obtain ⟨filled, average, status, hfil, hstt, rfl⟩ := mergeReport_ok hmrg
  have hgrows : order.filledQuantity ≤ capFilled filled order.quantity :=
    le_capFilled h.bounded (mergeFills_mono hfls hfil)
  have hbdd : capFilled filled order.quantity ≤ order.quantity := capFilled_le h.positive
  refine ⟨rfl, hgrows, h.nonneg.trans hgrows, hbdd, fun hfu => ?_, fun htm => ?_⟩
  · -- the status is merged with the quantity that was capped
    have hpos : 0 < (order.named result).quantity := h.positive
    have hle : (order.named result).quantity ≤ capFilled filled (order.named result).quantity := ge_of_eq hfu
    unfold mergeOrderStatus at hstt
    rw [if_pos ⟨hpos, hle⟩] at hstt
    exact (Except.ok.inj hstt).symm
  · exact mergeOrderStatus_of_terminal htm hstt

/-- A late answer to an own command is neither capped nor does the status follow. -/
theorem Order.Consistent.advances_ack (h : order.Consistent) {cand average : Decimal}
    (hmo : order.filledQuantity < cand) :
    order.Advances ((order.named result).filledTo cand average) ↔
      ¬ (order.quantity < cand ∨ cand = order.quantity ∧ order.status ≠ .filled) := by
  constructor
  · rintro hadv (hov | ⟨hfu, hstt⟩)
    · exact absurd hadv.bounded (not_le.mpr hov)
    · exact hstt (hadv.full hfu)
  · intro hwin
    rw [not_or, not_lt, not_and, not_not] at hwin
    exact ⟨rfl, hmo.le, h.nonneg.trans hmo.le, hwin.1, hwin.2, fun _ => .inl rfl⟩

end Merge

namespace OrderStore

def Keeps (div : Decimal → Decimal → Decimal) (store : OrderStore) (update : OrderUpdate) : Prop :=
  store.row.Advances (applyOrderUpdate div store update).row

/-- The answer to an own command fills up or overfills an order of which the venue has told already. -/
def Overtakes (store : OrderStore) (update : OrderUpdate) : Prop :=
  update.commits ∧ update.result.localCommandAck ∧ hasVenueEventWatermark store.row.lastVenueEventAt ∧
  (∀ fill ∈ update.fills, ∃ checked, checkFill (store.venueOrderID update) fill = .ok checked) ∧
  ∃ candidate average, update.result.filledQuantity = .number candidate ∧
    update.result.averagePrice = .number average ∧ 0 ≤ average ∧ store.row.filledQuantity < candidate ∧
    (store.row.quantity < candidate ∨ candidate = store.row.quantity ∧ store.row.status ≠ .filled)

section Runs

variable {div : Decimal → Decimal → Decimal} {store : OrderStore} {update : OrderUpdate}

theorem hasVenueEventWatermark_current :
    hasVenueEventWatermark store.current.lastVenueEventAt = hasVenueEventWatermark store.row.lastVenueEventAt := by
  unfold current
  cases store.row.lastVenueEventAt with
  | none | some => rfl

variable {stored : List (String × String)} {inserted : List OrderFill}

theorem committed_advances {merged : Order} :
    store.row.Advances (store.committed div update merged inserted stored).row ↔ store.row.Advances merged :=
  ⟨fun h => ⟨h.quantity, h.grows, h.nonneg, h.bounded, h.full, h.terminal⟩,
    fun h => ⟨h.quantity, h.grows, h.nonneg, h.bounded, h.full, h.terminal⟩⟩

theorem Overtakes.eval (div : Decimal → Decimal → Decimal) (h : Overtakes store update)
    (hfil : 0 ≤ store.row.filledQuantity)
    (inserted : List OrderFill) : ∃ candidate average, store.row.filledQuantity < candidate ∧
      (store.row.quantity < candidate ∨ candidate = store.row.quantity ∧ store.row.status ≠ .filled) ∧
      mergeOrderUpdate div store.current update.result update.eventAt inserted update.skipVenueWatermark =
        .ok ((store.current.named update.result).filledTo candidate average) := by
  obtain ⟨-, hack, hmr, -, candidate, average, hcand, havg, hnn, hmo, hov⟩ := h
  have hmrg : mergeAck (store.current.named update.result) update.result =
      .ok ((store.current.named update.result).filledTo candidate average) :=
    mergeAck_of_number hcand havg hnn hfil hmo
  refine ⟨candidate, average, hmo, hov, ?_⟩
  rw [← hmrg]
  exact if_pos ⟨hack, hasVenueEventWatermark_current.trans hmr⟩

theorem merged_advances (h : store.row.Consistent) (hcms : update.commits = true) {merged : Order}
    (hmrg : mergeUpdate div store update = .ok (merged, inserted, stored)) :
    store.row.Advances merged ↔ ¬ Overtakes store update := by
  obtain ⟨hins, hmrg⟩ := mergeUpdate_ok hmrg
  have hcur : store.current.Consistent := ⟨h.positive, h.nonneg, h.bounded, h.full⟩
  have hiff : store.row.Advances merged ↔ store.current.Advances merged :=
    ⟨fun h => ⟨h.quantity, h.grows, h.nonneg, h.bounded, h.full, h.terminal⟩,
      fun h => ⟨h.quantity, h.grows, h.nonneg, h.bounded, h.full, h.terminal⟩⟩
  rw [hiff]
  constructor
  · intro hadv hovertakes
    obtain ⟨candidate, average, hmo, hov, heval⟩ := hovertakes.eval div h.nonneg inserted
    rw [heval] at hmrg
    cases hmrg
    exact (hcur.advances_ack hmo).mp hadv hov
  · intro hnot
    rcases mergeOrderUpdate_cases hmrg with ⟨hack, hmr, hmrg⟩ | ⟨-, rfl | hmrg⟩
    · rw [hasVenueEventWatermark_current] at hmr
      rcases mergeAck_ok hmrg with rfl | ⟨candidate, average, hcand, hblk, havg, hmo, rfl⟩
      · exact hcur.advances_named
      · obtain ⟨havg, hnn⟩ := readAverage_ok hblk havg
        refine (hcur.advances_ack hmo).mpr fun hov => hnot ?_
        exact ⟨hcms, hack, hmr, checkFill_of_insertFills hins, candidate, average, hcand, havg, hnn, hmo, hov⟩
    · exact hcur.advances_named
    · exact hcur.advances_report (fun fill hmem => (insertFills_pos hins fill hmem).le) hmrg

theorem Overtakes.merged (div : Decimal → Decimal → Decimal) (h : Overtakes store update)
    (hfil : 0 ≤ store.row.filledQuantity) :
    ∃ merged inserted stored, mergeUpdate div store update = .ok (merged, inserted, stored) := by
  obtain ⟨inserted, stored, hins⟩ : ∃ inserted stored, insertFills store.hyperliquid
    (store.venueOrderID update) store.storedTrades update.fills = .ok (inserted, stored) :=
    insertFills_ok h.2.2.2.1
  obtain ⟨candidate, average, -, -, heval⟩ := h.eval div hfil inserted
  refine ⟨(store.current.named update.result).filledTo candidate average, inserted, stored, ?_⟩
  simp only [mergeUpdate, hins, heval]

/-- An update of a consistent order keeps it so exactly when it is not such an answer. -/
theorem keeps_iff (h : store.row.Consistent) : Keeps div store update ↔ ¬ Overtakes store update := by
  unfold Keeps
  rcases applyOrderUpdate_cases with ⟨hrow, hfails⟩ | ⟨merged, inserted, stored, hmrg, hcms, happ⟩
  · rw [hrow]
    refine iff_of_true ⟨rfl, le_rfl, h.nonneg, h.bounded, h.full, fun _ => .inl rfl⟩ fun hov => ?_
    obtain ⟨merged, inserted, stored, hmrg⟩ := hov.merged div h.nonneg
    have hcms := hfails merged inserted stored hmrg
    rw [hov.1] at hcms
    cases hcms
  · rw [happ, committed_advances]
    exact merged_advances h hcms hmrg

/-- Along a run the stored order stays consistent, its filled quantity does not shrink and its end is final
but for `filled`, exactly when no answer to an own command fills it up behind the venue's back. -/
theorem order_consistent_along (div : Decimal → Decimal → Decimal) (store : OrderStore)
    (updates : List OrderUpdate) (h : store.row.Consistent) :
    Along (applyOrderUpdate div) (Keeps div) store updates ↔
      Along (applyOrderUpdate div) (fun store update => ¬ Overtakes store update) store updates :=
  Along.congr (fun store => store.row.Consistent) h (fun _ _ hcons => keeps_iff hcons)
    fun _ _ hcons hkeeps => hkeeps.consistent hcons.positive

def halfFilled : OrderStore where
  row := {
    quantity := 10, filledQuantity := 5, averagePrice := 100, status := .partiallyFilled
    lastVenueEventAt := some year2000 }

def answer (filled : Decimal) : OrderUpdate where
  result := { filledQuantity := .number filled, averagePrice := .number 100, localCommandAck := true }

theorem halfFilled_consistent : halfFilled.row.Consistent := by
  refine ⟨?_, ?_, ?_, fun h => absurd h ?_⟩ <;> decide +kernel

/-- An order filled up by the answer stays open, and one filled further is stored as overfilled. -/
theorem answer_leaves_order_inconsistent : halfFilled.row.Consistent ∧
    ((applyOrderUpdate Decimal.div halfFilled (answer 10)).row.filledQuantity = 10 ∧
      (applyOrderUpdate Decimal.div halfFilled (answer 10)).row.status = .partiallyFilled) ∧
    (applyOrderUpdate Decimal.div halfFilled (answer 12)).row.filledQuantity = 12 ∧
    ¬ Along (applyOrderUpdate Decimal.div) (Keeps Decimal.div) halfFilled [answer 10] := by
  have hfull : (applyOrderUpdate Decimal.div halfFilled (answer 10)).row.filledQuantity =
      (applyOrderUpdate Decimal.div halfFilled (answer 10)).row.quantity := by decide +kernel
  refine ⟨halfFilled_consistent, by decide +kernel, by decide +kernel, fun h => ?_⟩
  exact absurd (h.1.full hfull) (by decide +kernel)

theorem order_consistent_along_halfFilled : halfFilled.row.Consistent ∧
    Along (applyOrderUpdate Decimal.div) (Keeps Decimal.div) halfFilled
      [answer 7, { result := { filledQuantity := .number 12, status := .status .canceled } }] :=
  ⟨halfFilled_consistent, (order_consistent_along Decimal.div halfFilled _ halfFilled_consistent).mpr
    (by
      refine ⟨?_, ?_, trivial⟩
      · rintro ⟨-, -, -, -, candidate, average, hcand, -, -, -, hover⟩
        cases hcand
        revert hover
        decide +kernel
      · rintro ⟨-, hack, -⟩
        cases hack)⟩

end Runs

end OrderStore

end SelfQuant.Trader
