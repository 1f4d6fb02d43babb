import SelfQuant.MdsAggBook

namespace SelfQuant.Mds.Agg

open List SlotMask

section Totals

variable {mask : BitVec 32} {q : Fin kAggVenueSlots → Int} {total sum : Int}

theorem venueTotal_foldlM (slots : List (Fin kAggVenueSlots)) (hsum : sum ≤ int64Max) :
    (slots.foldlM (fun total slot =>
      if q slot < 0 ∨ (mask.getLsbD slot = false ∧ q slot ≠ 0) ∨ int64Max - q slot < total then none
      else some (total + q slot)) sum) = some total ↔
    (∀ slot ∈ slots, 0 ≤ q slot ∧ (mask.getLsbD slot = false → q slot = 0)) ∧
      sum + (slots.map q).sum ≤ int64Max ∧ total = sum + (slots.map q).sum := by
  induction slots generalizing sum with
  | nil =>
    rw [map_nil, sum_nil, add_zero]
    exact ⟨fun h => ⟨fun _ h => (not_mem_nil h).elim, hsum, (Option.some.inj h).symm⟩,
      fun h => congrArg some h.2.2.symm⟩
  | cons slot slots ih =>
    rw [foldlM_cons, map_cons, sum_cons, forall_mem_cons]
    by_cases hbad : q slot < 0 ∨ (mask.getLsbD slot = false ∧ q slot ≠ 0) ∨ int64Max - q slot < sum
    · rw [if_pos hbad]
      refine ⟨(fun h => by cases h), ?_⟩
      rintro ⟨⟨⟨hpos, hclr⟩, hrs⟩, hle, -⟩
      have hnn : 0 ≤ (slots.map q).sum := sum_nonneg (forall_mem_map.mpr fun slot hsl => (hrs slot hsl).1)
      rcases hbad with hneg | ⟨hbit, hne⟩ | hov
      · omega
      · exact absurd (hclr hbit) hne
      · omega
    · rw [if_neg hbad]
      simp only [not_or, not_and, not_lt, ne_eq, not_not] at hbad
      obtain ⟨hpos, hclr, hle⟩ := hbad
      rw [Option.bind_eq_bind, Option.bind_some, ih (by omega), add_assoc]
      exact ⟨fun h => ⟨⟨⟨hpos, hclr⟩, h.1⟩, h.2⟩, fun h => ⟨h.1.2, h.2⟩⟩

theorem venueTotal_eq_some_iff : venueTotal mask q = some total ↔
    (∀ slot, 0 ≤ q slot ∧ (mask.getLsbD slot = false → q slot = 0)) ∧
      ∑ slot, q slot ≤ int64Max ∧ total = ∑ slot, q slot := by
  unfold venueTotal
  rw [venueTotal_foldlM _ (by decide), Fin.sum_univ_def, zero_add]
  simp only [mem_finRange, true_implies]

end Totals

namespace AggregationEngine

variable {s : AggregationEngine} {now slot : Nat} {side : Side} {mask : BitVec 32} {m : MemberState}
  {p : MemberState → Bool} {q : Quote} {price : Int} {qs : List Quote}

theorem lt_of_getLsbD_ofSlots {slots : List Nat} (h : ∀ slot ∈ slots, slot < kAggVenueSlots) :
    (ofSlots 32 slots).toNat < 2 ^ kAggVenueSlots :=
  toNat_lt_two_pow_iff.mpr fun _ hsl => h _ (getLsbD_ofSlots_iff.mp hsl).2

theorem slots_bestQuotes_lt : ∀ slot ∈ (s.bestQuotes side mask).map (·.slot), slot < kAggVenueSlots :=
  fun slot hsl => lt_of_lt_of_le (slots_bestQuotes.2 slot hsl) s.bounded

theorem bestQuotes_mask : ∀ slot ∈ (s.bestQuotes side mask).map (·.slot), mask.getLsbD slot = true :=
  forall_mem_map.mpr fun _ hq => (mem_quotes (bestQuotes_sublist.subset hq)).2.1

theorem total_filter_eq_zero (h : slot ∉ qs.map (·.slot)) : total (qs.filter fun q => q.slot = slot) = 0 := by
  have hno : (qs.filter fun q => q.slot = slot) = [] :=
    filter_eq_nil_iff.mpr fun q hq hsl => h (of_decide_eq_true hsl ▸ mem_map_of_mem hq)
  rw [hno]
  rfl

theorem sum_total_filter (hlt : ∀ slot ∈ qs.map (·.slot), slot < kAggVenueSlots) :
    ∑ slot : Fin kAggVenueSlots, total (qs.filter fun q => q.slot = slot.val) = total qs := by
  induction qs with
  | nil => simp [total]
  | cons q qs ih =>
    have hq : q.slot < kAggVenueSlots := hlt q.slot mem_cons_self
    have hspl : ∀ slot : Fin kAggVenueSlots, total ((q :: qs).filter fun q => q.slot = slot.val) =
        (if slot = ⟨q.slot, hq⟩ then q.level.quantity else 0) + total (qs.filter fun q => q.slot = slot.val) := by
      intro slot
      rw [filter_cons]
      by_cases hsl : q.slot = slot.val
      · rw [if_pos (decide_eq_true hsl), if_pos (Fin.ext hsl.symm)]
        simp [total]
      · rw [if_neg (by simpa using hsl), if_neg (fun h => hsl (congrArg Fin.val h).symm), zero_add]
    rw [Finset.sum_congr rfl fun slot _ => hspl slot, Finset.sum_add_distrib, ih (forall_mem_cons.mp hlt).2]
    simp [total]

theorem validSide_empty : validSide {} mask = true := by
  apply decide_eq_true
  refine ⟨le_refl 0, Nat.zero_le _, by decide, BitVec.zero_and, by decide, fun _ => rfl, ?_, ?_⟩
  · exact venueTotal_eq_some_iff.mpr ⟨fun _ => ⟨le_refl 0, fun _ => rfl⟩, by decide, by decide⟩
  · exact ⟨rfl, rfl, rfl, rfl, rfl, rfl, rfl⟩

theorem validSide_gatedSide (hmk : s.Within now mask) : validSide (s.gatedSide now side mask) mask = true ↔
      (∀ q ∈ s.bestQuotes side mask, 0 < q.level.price) ∧ total (s.bestQuotes side mask) ≤ int64Max := by
  by_cases hnil : s.bestQuotes side mask = []
  · rw [gatedSide_empty hnil, hnil]
    exact ⟨fun _ => ⟨fun _ h => (not_mem_nil h).elim, by decide⟩, fun _ => validSide_empty⟩
  have h : Collected (s.bestQuotes side mask) (s.gatedSide now side mask) :=
    gatedSide_collected (bestQuotes_quantity hmk) hnil
  obtain ⟨q, hq⟩ := exists_mem_of_ne_nil _ hnil
  have hpx : (s.gatedSide now side mask).price = q.level.price := gatedSide_price hq
  have hnn : 0 ≤ total (s.bestQuotes side mask) := total_nonneg (bestQuotes_quantity hmk)
  have hvenues : ∑ slot, (s.gatedSide now side mask).venueQuantity slot = total (s.bestQuotes side mask) := by
    rw [Finset.sum_congr rfl fun slot _ => h.venueQuantity slot, sum_total_filter slots_bestQuotes_lt]
  have hbit : ∀ slot ∈ (s.bestQuotes side mask).map (·.slot),
      (s.gatedSide now side mask).venueMask.getLsbD slot = true := by
    intro slot hsl
    have hlt := slots_bestQuotes_lt slot hsl
    rw [h.venueMask, getLsbD_ofSlots_iff]
    exact ⟨lt_trans hlt (by decide), hsl⟩
  have hmaskne : (s.gatedSide now side mask).venueMask ≠ 0 := (gatedSide_mask hmk).mpr hnil
  unfold validSide
  rw [decide_eq_true_iff, venueTotal_eq_some_iff, if_neg hmaskne, hvenues, h.quantity, hpx]
  constructor
  · rintro ⟨-, -, -, -, -, -, ⟨-, hle, -⟩, hpos, -⟩
    exact ⟨fun other hoth => bestQuotes_price hq hoth ▸ hpos, hle⟩
  · rintro ⟨hpos, hle⟩
    refine ⟨by omega, ?_, ?_, ?_, ?_, fun byte => by rw [h.reserved], ⟨fun slot => ?_, hle, by omega⟩, hpos q hq,
      slots_bestQuotes_lt _ h.bestVenue, slots_bestQuotes_lt _ h.timestampVenue, hbit _ h.bestVenue,
      hbit _ h.timestampVenue⟩
    · rw [h.contributorCount, ← length_map (·.slot)]
      exact length_le slots_bestQuotes.1 slots_bestQuotes_lt
    · rw [h.venueMask]
      exact lt_of_getLsbD_ofSlots slots_bestQuotes_lt
    · rw [h.venueMask, and_not_eq_zero_iff]
      exact fun slot hsl => bestQuotes_mask slot (getLsbD_ofSlots_iff.mp hsl).2
    · rw [h.venueMask, h.contributorCount, popcount_ofSlots slots_bestQuotes.1, length_map]
      exact fun slot hsl => lt_trans (slots_bestQuotes_lt slot hsl) (by decide)
    · rw [h.venueQuantity]
      refine ⟨total_nonneg fun q hq => bestQuotes_quantity hmk q (mem_filter.mp hq).1, fun hclr => ?_⟩
      apply total_filter_eq_zero
      intro hsl
      rw [hbit slot hsl] at hclr
      cases hclr

theorem validRawSide_empty : validRawSide {} mask = true := by
  apply decide_eq_true
  exact ⟨le_refl 0, by decide, BitVec.zero_and, fun _ => rfl, rfl, rfl, rfl⟩

theorem validRawSide_rawSide {memberMask : BitVec 32} (hmk : s.Within now mask)
    (hsub : ∀ slot, mask.getLsbD slot = true → memberMask.getLsbD slot = true) :
    validRawSide (s.rawSide side mask) memberMask = true ↔ ∀ q ∈ s.bestQuotes side mask, 0 < q.level.price := by
  by_cases hnil : s.bestQuotes side mask = []
  · rw [rawSide_eq, hnil]
    exact ⟨fun _ _ h => (not_mem_nil h).elim, fun _ => validRawSide_empty⟩
  have h : Gathered (s.bestQuotes side mask) (s.rawSide side mask) := rawSide_gathered (bestQuotes_quantity hmk) hnil
  obtain ⟨q, hq⟩ := exists_mem_of_ne_nil _ hnil
  have hsls : ∀ slot ∈ (s.bestQuotes side mask).map (·.slot), slot < 32 :=
    fun slot hsl => lt_trans (slots_bestQuotes_lt slot hsl) (by decide)
  have hmaskne : (s.rawSide side mask).venueMask ≠ 0 := by
    rw [h.venueMask, Ne, ofSlots_eq_zero_iff hsls, map_eq_nil_iff]
    exact hnil
  unfold validRawSide
  rw [decide_eq_true_iff, if_neg hmaskne, rawSide_price hq]
  constructor
  · rintro ⟨-, -, -, -, hpos, -⟩
    exact fun other hoth => bestQuotes_price hq hoth ▸ hpos
  · intro hpos
    refine ⟨h.quantity, ?_, ?_, fun byte => by rw [h.reserved], hpos q hq, slots_bestQuotes_lt _ h.bestVenue, ?_⟩
    · rw [h.venueMask]
      exact lt_of_getLsbD_ofSlots slots_bestQuotes_lt
    · rw [h.venueMask, and_not_eq_zero_iff]
      exact fun slot hsl => hsub slot (bestQuotes_mask slot (getLsbD_ofSlots_iff.mp hsl).2)
    · rw [h.venueMask, getLsbD_ofSlots_iff]
      exact ⟨hsls _ h.bestVenue, h.bestVenue⟩

theorem maskWhere_lt : (s.maskWhere p).toNat < 2 ^ kAggVenueSlots := by
  rw [toNat_lt_two_pow_iff]
  intro slot hsl
  obtain ⟨m, hm, -⟩ := getLsbD_maskWhere.mp hsl
  exact slot_lt hm

def Whole (s : AggregationEngine) : Prop := ∀ m ∈ s.members, m.configured = true

theorem popcount_memberMask : popcount (s.maskWhere (·.configured)) = s.members.length ↔ s.Whole := by
  rw [popcount_maskWhere, countP_eq_length]
  exact Iff.rfl

theorem slotsNamed_of_whole (h : s.Whole) : slotsNamed (s.maskWhere (·.configured)) s.venueSlotIds = true := by
  apply decide_eq_true
  intro slot
  rw [getLsbD_maskWhere]
  unfold venueSlotIds
  constructor
  · rintro ⟨m, hm, -⟩
    rw [hm]
    exact venueId_ne_zero m.named
  · intro hid
    cases hm : s.members[slot.val]? with
    | none =>
      rw [hm] at hid
      exact absurd rfl hid
    | some m => exact ⟨m, rfl, h m (mem_of_getElem? hm)⟩

theorem within_member (hmk : s.Within now mask) (slot : Nat) (hsl : mask.getLsbD slot = true) :
    (s.maskWhere (·.configured)).getLsbD slot = true := by
  obtain ⟨m, hm, hquot⟩ := hmk slot hsl
  simp only [quotable, Bool.and_eq_true] at hquot
  exact getLsbD_maskWhere.mpr ⟨m, hm, hquot.1.1⟩

/-- The record is valid if no member is excluded, the best bids are positive and the quantities of the
gated sides have sums in range. -/
theorem validAggBbo_iff : validAggBbo (s.bboRecord now) = true ↔
    s.Whole ∧ (∀ q ∈ s.bestQuotes .bid (s.rawMask now), 0 < q.level.price) ∧
      (∀ q ∈ s.bestQuotes .bid (s.gate now).mask, 0 < q.level.price) ∧
      ∀ side, total (s.bestQuotes side (s.gate now).mask) ≤ int64Max := by
  have hkt : Kept s now (s.settledGate now) := kept_settledGate
  have hgate : s.Within now (s.gate now).mask := hkt.within
  have hraw : s.Within now (s.rawMask now) := within_rawMask
  have hbid : (s.gate now).bid = s.gatedSide now .bid (s.gate now).mask := hkt.bid
  have hask : (s.gate now).ask = s.gatedSide now .ask (s.gate now).mask := hkt.ask
  have haskPos : ∀ {mask}, s.Within now mask → ∀ q ∈ s.bestQuotes .ask mask, 0 < q.level.price :=
    fun hmk q hq => (quotes_signs hmk (bestQuotes_sublist.subset hq)).2.1 rfl
  unfold validAggBbo bboRecord
  dsimp only
  rw [decide_eq_true_iff, popcount_memberMask, hbid, hask, validSide_gatedSide hgate, validSide_gatedSide hgate,
    validRawSide_rawSide hraw (within_member hraw), validRawSide_rawSide hraw (within_member hraw)]
  constructor
  · rintro ⟨-, -, hwhl, -, -, -, -, -, -, ⟨hbi, hbidSum⟩, ⟨-, haskSum⟩, hrawBids, -⟩
    refine ⟨hwhl, hrawBids, hbi, fun side => ?_⟩
    cases side with
    | bid => exact hbidSum
    | ask => exact haskSum
  · rintro ⟨hwhl, hrawBids, hbi, hsu⟩
    refine ⟨s.bounded, maskWhere_lt, hwhl, ?_, ?_, crossBps_nonneg _ _, crossBps_nonneg _ _, fun _ => rfl,
      fun _ => rfl, ⟨hbi, hsu .bid⟩, ⟨haskPos hgate, hsu .ask⟩, hrawBids, haskPos hraw,
      slotsNamed_of_whole hwhl, rfl, rfl⟩
    · rw [toNat_lt_two_pow_iff]
      intro slot hsl
      obtain ⟨m, hm, -⟩ := hgate slot hsl
      exact slot_lt hm
    · rw [and_not_eq_zero_iff]
      exact within_member hgate

theorem min_sum_le {n : Nat} {bound : Int} (f : Fin n → Int) (hf : ∀ i, 0 ≤ f i) (hbd : 0 ≤ bound) :
    min (∑ i, f i) bound ≤ ∑ i, min (f i) bound := by
  by_cases h : ∃ i, bound < f i
  · obtain ⟨i, hi⟩ := h
    have hle : min (f i) bound ≤ ∑ i, min (f i) bound :=
      Finset.single_le_sum (f := fun i => min (f i) bound) (fun i _ => le_min (hf i) hbd) (Finset.mem_univ i)
    omega
  · have heq : ∑ i, min (f i) bound = ∑ i, f i :=
      Finset.sum_congr rfl fun i _ => min_eq_left (not_lt.mp fun hi => h ⟨i, hi⟩)
    omega

/-- What a side has at a price, with the quantity of each venue cut at the largest number. -/
def cutSum (s : AggregationEngine) (now : Nat) (side : Side) (price : Int) : Int :=
  ∑ slot : Fin kAggVenueSlots, min (quantityOf (s.heldAt now side price slot)) int64Max

theorem sum_levelAt : ∑ slot, (s.levelAt now side price).venueQuantity slot = s.cutSum now side price := by
  apply Finset.sum_congr rfl
  intro slot _
  rw [levelAt_filled.venueQuantity]
  split
  next => rfl
  next hsl =>
  rw [heldAt_of_inactive hsl]
  decide

theorem validAggLevel_levelAt (hhd : ∃ slot, s.heldAt now side price slot ≠ []) :
    validAggLevel (s.levelAt now side price) (s.maskWhere (s.active now)) = true ↔
      0 < price ∧ s.cutSum now side price ≤ int64Max := by
  have hfil : Filled (s.heldAt now side price) (s.activeSlots now) (s.levelAt now side price) := levelAt_filled
  have hact : ∀ slot, (s.levelAt now side price).venueMask.getLsbD slot = true → slot ∈ s.activeSlots now := by
    intro slot hsl
    rw [hfil.venueMask, getLsbD_ofSlots_iff] at hsl
    exact (mem_filter.mp hsl.2).1
  have hsls : ∀ slot ∈ (s.activeSlots now).filter (fun slot => s.heldAt now side price slot ≠ []),
      slot < kAggVenueSlots := fun slot hsl => activeSlots_lt (mem_filter.mp hsl).1
  have hqty : (s.levelAt now side price).quantity =
      min (∑ slot : Fin kAggVenueSlots, quantityOf (s.heldAt now side price slot)) int64Max := by
    rw [hfil.quantity, sum_activeSlots quantityOf rfl]
  have hnn : ∀ slot : Fin kAggVenueSlots, 0 ≤ quantityOf (s.heldAt now side price slot) :=
    fun slot => quantityOf_heldAt_nonneg
  have hsum : 0 ≤ ∑ slot : Fin kAggVenueSlots, quantityOf (s.heldAt now side price slot) :=
    Finset.sum_nonneg fun slot _ => hnn slot
  have hmax : 0 ≤ int64Max := by decide
  unfold validAggLevel
  rw [decide_eq_true_iff, venueTotal_eq_some_iff, sum_levelAt, levelAt_price]
  constructor
  · rintro ⟨-, -, -, -, -, -, hpos, -, -, hle, -⟩
    exact ⟨hpos, hle⟩
  · rintro ⟨hpos, hle⟩
    refine ⟨by omega, ?_, ?_, ?_, ?_, ?_, hpos, fun byte => by rw [hfil.reserved], fun slot => ?_, hle, ?_⟩
    · rw [hfil.contributorCount]
      exact length_le (nodup_activeSlots.filter _) hsls
    · rw [hfil.venueMask]
      exact lt_of_getLsbD_ofSlots hsls
    · rw [and_not_eq_zero_iff]
      exact fun slot hsl => getLsbD_maskWhere.mpr (mem_activeSlots.mp (hact slot hsl))
    · rw [hfil.venueMask, hfil.contributorCount, popcount_ofSlots (nodup_activeSlots.filter _)]
      exact fun slot hsl => Nat.lt_trans (hsls slot hsl) (by decide)
    · intro hze
      obtain ⟨slot, hsl⟩ := hhd
      have hbit := (levelAt_mask slot).mpr hsl
      rw [eq_zero_iff.mp hze slot] at hbit
      cases hbit
    · rw [hfil.venueQuantity]
      split
      next hsl =>
        refine ⟨le_min (hnn slot) hmax, fun hclr => ?_⟩
        have hno : s.heldAt now side price slot = [] := by
          by_contra hso
          rw [(levelAt_mask slot).mpr hso] at hclr
          cases hclr
        rw [hno]
        decide
      next => exact ⟨Int.le_refl 0, fun _ => rfl⟩
    · have hcut : s.cutSum now side price ≤ ∑ slot : Fin kAggVenueSlots, quantityOf (s.heldAt now side price slot) :=
        Finset.sum_le_sum fun slot _ => min_le_left _ _
      have hsub := min_sum_le (fun slot : Fin kAggVenueSlots => quantityOf (s.heldAt now side price slot)) hnn hmax
      unfold cutSum at hle hcut ⊢
      omega

theorem liquidity_ask_pos {x : Level} (hx : x ∈ s.liquidity now .ask slot) : 0 < x.price := by
  unfold liquidity at hx
  split at hx
  next => cases hx
  next m _ =>
  split at hx
  next hact =>
    obtain ⟨level, hlvl, hnorm⟩ := mem_filterMap.mp hx
    obtain ⟨hpos, -⟩ := validLadder_iff.mp MemberState.valid_levels
    have hsigns := convert_signs (hpos level hlvl).1 (le_of_lt (hpos level hlvl).2)
      (fun hconv => active_fx hact hconv) (normalizeLevel_eq_some hnorm).1
    exact hsigns.2.1 rfl
  next => cases hx

theorem validAggSide_bookSide : validAggSide side (s.maskWhere (s.active now)) (s.bookSide now side) = true ↔
      ∀ price, (∃ slot, s.heldAt now side price slot ≠ []) → 0 < price ∧ s.cutSum now side price ≤ int64Max := by
  unfold validAggSide
  rw [orderedLevels_iff, and_iff_left bookSide_pairwise]
  constructor
  · intro h price hhd
    have hmem : s.levelAt now side price ∈ s.bookSide now side := by
      rw [mem_bookSide, levelAt_price]
      exact ⟨rfl, hhd⟩
    exact (validAggLevel_levelAt hhd).mp (h _ hmem)
  · intro h level hlvl
    obtain ⟨hat, hhd⟩ := mem_bookSide.mp hlvl
    rw [hat]
    exact (validAggLevel_levelAt hhd).mpr (h level.price hhd)

/-- The book is valid if no member is excluded, every bid is positive and the quantities at each price have
a sum in range. -/
theorem validAggOrderbook_iff : validAggOrderbook (s.bookRecord now) = true ↔
    s.Whole ∧ (∀ slot, ∀ x ∈ s.liquidity now .bid slot, 0 < x.price) ∧
      ∀ side price, s.cutSum now side price ≤ int64Max := by
  have hlen : ∀ side, (s.bookSide now side).length ≤ kAggMaxLevelsPerSide := by
    intro side
    rw [bookSide_eq, length_map]
    exact GroupMerge.length_merge_le
  have hze : ∀ {side price}, ¬(∃ slot, s.heldAt now side price slot ≠ []) → s.cutSum now side price = 0 := by
    intro side price hno
    apply Finset.sum_eq_zero
    intro slot _
    have hnil : s.heldAt now side price slot = [] := by
      by_contra hso
      exact hno ⟨slot, hso⟩
    rw [hnil]
    decide
  have hsi : ∀ side, (∀ price, (∃ slot, s.heldAt now side price slot ≠ []) →
      0 < price ∧ s.cutSum now side price ≤ int64Max) ↔
      (∀ slot, ∀ x ∈ s.liquidity now side slot, 0 < x.price) ∧ ∀ price, s.cutSum now side price ≤ int64Max := by
    intro side
    constructor
    · intro h
      refine ⟨fun slot x hx => (h x.price ⟨slot, mem_prices_iff.mp (mem_map_of_mem hx)⟩).1, fun price => ?_⟩
      by_cases hhd : ∃ slot, s.heldAt now side price slot ≠ []
      · exact (h price hhd).2
      · rw [hze hhd]
        decide
    · rintro ⟨hpos, hsu⟩ price ⟨slot, hhd⟩
      obtain ⟨x, hx, hpx⟩ := mem_map.mp (mem_prices_iff.mpr hhd)
      exact ⟨hpx ▸ hpos slot x hx, hsu price⟩
  have hbi : (s.bookRecord now).bids = s.bookSide now .bid := rfl
  have has : (s.bookRecord now).asks = s.bookSide now .ask := rfl
  have hmk : (s.bookRecord now).activeMask = s.maskWhere (s.active now) := rfl
  unfold validAggOrderbook
  rw [decide_eq_true_iff, hbi, has, hmk, validAggSide_bookSide, validAggSide_bookSide, hsi, hsi]
  constructor
  · rintro ⟨-, -, -, -, -, -, hwhl, -, -, ⟨hpos, hbidSums⟩, -, haskSums⟩
    refine ⟨popcount_memberMask.mp hwhl, hpos, fun side price => ?_⟩
    cases side with
    | bid => exact hbidSums price
    | ask => exact haskSums price
  · rintro ⟨hwhl, hpos, hsu⟩
    refine ⟨s.bounded, hlen .bid, hlen .ask, maskWhere_lt, maskWhere_lt, ?_, popcount_memberMask.mpr hwhl, rfl,
      slotsNamed_of_whole hwhl, ⟨hpos, hsu .bid⟩, fun slot x hx => liquidity_ask_pos hx, hsu .ask⟩
    rw [and_not_eq_zero_iff]
    intro slot hsl
    obtain ⟨m, hm, hact⟩ := getLsbD_maskWhere.mp hsl
    simp only [active, Bool.and_eq_true] at hact
    exact getLsbD_maskWhere.mpr ⟨m, hm, hact.1.1.1⟩

theorem bboFlags_le : s.bboFlags now ≤ kAggSkewEnforced ||| kAggMemberDataError := by
  have hflg : (s.settledGate now).flags = 0 ∨ (s.settledGate now).flags = kAggSkewEnforced := kept_settledGate.flags
  show (if (s.settledGate now).memberDataError then (s.settledGate now).flags ||| kAggMemberDataError
    else (s.settledGate now).flags) ≤ _
  rcases hflg with hze | hone
  · rw [hze]
    split <;> decide
  · rw [hone]
    split <;> decide

theorem gate_mask_of_observeOnly (h : s.config.crossSkewObserveOnly = true) : (s.gate now).mask = s.gatedMask now := by
  unfold gate settledGate
  rw [if_pos h]
  rfl

/-- After any calls, the flags are allowed, and the quote is valid exactly if no member is excluded, the best bids have
not been rounded down to zero and the gated quantities have sums in range; the book likewise, for all its bids and the
quantities at each price. Where the skew is only observed, the gated quotes are those of all members that pass. -/
theorem engine_outputs_valid_iff (config : EngineConfig) (calls : List EngineCall) (now : Nat) :
    (((after config calls).buildBbo now).1.flags ≤ kAggSkewEnforced ||| kAggMemberDataError ∧
      ((after config calls).buildBbo now).1.record.header.state = .live ∧
      ((after config calls).buildOrderbook now).1.record.header.state = .live) ∧
    (validAggBbo ((after config calls).buildBbo now).1.record = true ↔
      (after config calls).Whole ∧
      (∀ q ∈ (after config calls).bestQuotes .bid ((after config calls).rawMask now), 0 < q.level.price) ∧
      (∀ q ∈ (after config calls).bestQuotes .bid ((after config calls).gate now).mask, 0 < q.level.price) ∧
      ∀ side, total ((after config calls).bestQuotes side ((after config calls).gate now).mask) ≤ int64Max) ∧
    ((after config calls).config.crossSkewObserveOnly = true →
      ((after config calls).gate now).mask = (after config calls).gatedMask now) ∧
    (validAggOrderbook ((after config calls).buildOrderbook now).1.record = true ↔
      (after config calls).Whole ∧
      (∀ slot, ∀ x ∈ (after config calls).liquidity now .bid slot, 0 < x.price) ∧
      ∀ side price, (after config calls).cutSum now side price ≤ int64Max) :=
  ⟨⟨bboFlags_le, rfl, rfl⟩, validAggBbo_iff, gate_mask_of_observeOnly, validAggOrderbook_iff⟩

def excludedOne : AggregationEngine :=
  after {} [.addMember { venue := .okx, ttlUs := 1000 }, .addMember { venue := .bybit, ttlUs := 1000 },
    .updateBook 0 ⟨[⟨100, 5⟩], [⟨101, 2⟩], 0, 0, 0⟩, .excludeMember 1]

def roundedBid : AggregationEngine :=
  after {} [.addMember { venue := .hyperliquid, ttlUs := 1000, convertUsdcToUsdt := true },
    .updateFx { header := { state := .live }, bid := ⟨99, 1⟩, ask := ⟨101, 1⟩ } 2 0 .binance,
    .updateBbo 0 { header := { state := .live }, bid := ⟨1, 1⟩, ask := ⟨2, 1⟩ } 0,
    .updateBook 0 ⟨[⟨1, 1⟩], [⟨2, 1⟩], 0, 0, 0⟩]

def hugeQuantities : AggregationEngine :=
  after {} [.addMember { venue := .okx, ttlUs := 1000 }, .addMember { venue := .bybit, ttlUs := 1000 },
    .updateBbo 0 { header := { state := .live }, bid := ⟨100, 2 ^ 62⟩, ask := ⟨101, 1⟩ } 0,
    .updateBbo 1 { header := { state := .live }, bid := ⟨100, 2 ^ 62⟩, ask := ⟨101, 1⟩ } 0]

/-- An excluded member, a bid that is rounded down to zero and a sum out of range each give a record that
cannot be encoded. -/
theorem engine_outputs_refused :
    validAggBbo (excludedOne.buildBbo 0).1.record = false ∧
    ((excludedOne.buildOrderbook 0).1.publishable = true ∧
      validAggOrderbook (excludedOne.buildOrderbook 0).1.record = false) ∧
    validAggBbo (roundedBid.buildBbo 0).1.record = false ∧
    ((roundedBid.buildOrderbook 0).1.publishable = true ∧
      validAggOrderbook (roundedBid.buildOrderbook 0).1.record = false) ∧
    validAggBbo (hugeQuantities.buildBbo 0).1.record = false := by
  decide +kernel

end AggregationEngine

end SelfQuant.Mds.Agg
