import SelfQuant.MdsAggQuote

namespace SelfQuant.Mds.Agg

open SlotMask

theorem Priced.level {bbo : BboRecord} (h : Priced bbo) (side : Side) : 0 < (bbo.level side).price := by
  cases side with
  | bid => exact h.1
  | ask => exact h.2

theorem Quoted.quantity {bbo : BboRecord} (h : Quoted bbo) (side : Side) : 0 ≤ (bbo.level side).quantity := by
  cases side with
  | bid => exact h.2.1
  | ask => exact h.2.2

namespace AggregationEngine

variable {s : AggregationEngine} {now slot : Nat} {side : Side} {mask : BitVec 32} {m : MemberState}
  {p : MemberState → Bool} {q : Quote} {level converted : Level}

theorem slot_lt (h : s.members[slot]? = some m) : slot < kAggVenueSlots := by
  obtain ⟨hlt, -⟩ := getElem?_eq_some_iff.mp h
  exact lt_of_lt_of_le hlt s.bounded

theorem mem_slotsWhere : slot ∈ (s.members.zipIdx.filter fun x => p x.1).map (·.2) ↔
    ∃ m, s.members[slot]? = some m ∧ p m = true := by
  simp only [List.mem_map, List.mem_filter, List.mem_zipIdx_iff_getElem?, Prod.exists, exists_eq_right]

theorem slotsWhere_sublist :
    ((s.members.zipIdx.filter fun x => p x.1).map (·.2)).Sublist (List.range s.members.length) := by
  have hmap : ((s.members.zipIdx.filter fun x => p x.1).map (·.2)).Sublist (s.members.zipIdx.map (·.2)) :=
    List.filter_sublist.map _
  rwa [List.zipIdx_map_snd, ← List.range_eq_range'] at hmap

theorem getLsbD_maskWhere : (s.maskWhere p).getLsbD slot = true ↔ ∃ m, s.members[slot]? = some m ∧ p m = true := by
  unfold maskWhere
  rw [getLsbD_ofSlots_iff, mem_slotsWhere, and_iff_right_iff_imp]
  rintro ⟨m, hm, -⟩
  exact lt_trans (slot_lt hm) (by decide)

theorem popcount_maskWhere : popcount (s.maskWhere p) = s.members.countP p := by
  unfold maskWhere
  rw [popcount_ofSlots (List.nodup_range.sublist slotsWhere_sublist), List.length_map, ← List.countP_eq_length_filter]
  · have hcnt : (s.members.zipIdx.map (·.1)).countP p = s.members.countP p := by rw [List.zipIdx_map_fst]
    rw [← hcnt, List.countP_map]
    rfl
  · intro slot hsl
    have hlt := List.mem_range.mp (slotsWhere_sublist.subset hsl)
    have hbd : s.members.length ≤ 8 := s.bounded
    omega

/-- A convertible quote keeps its signs; only a bid in another currency can be rounded down to zero. -/
theorem convert_signs (hpx : 0 < level.price) (hqty : 0 ≤ level.quantity)
    (hfx : m.config.convertUsdcToUsdt = true → 0 < (s.fx.bbo.level side).price)
    (h : s.convert m side level = some converted) :
    0 ≤ converted.price ∧ (side = .ask → 0 < converted.price) ∧ 0 ≤ converted.quantity := by
  obtain ⟨price, hp, hrs⟩ := Option.bind_eq_some_iff.mp h
  obtain ⟨quantity, hq, rfl⟩ := Option.map_eq_some_iff.mp hrs
  have hq0 := rescale_nonneg hq hqty
  split at hp
  next hconv =>
    refine ⟨multiplyScaled_nonneg (hfx hconv) hpx hp, fun hask => ?_, hq0⟩
    exact multiplyScaled_pos (hfx hconv) hpx hp (decide_eq_true hask)
  next =>
    have hpos := rescale_pos hp hpx
    exact ⟨le_of_lt hpos, fun _ => hpos, hq0⟩

theorem fx_priced (h : s.fxUsable now = true) : Priced s.fx.bbo := by
  unfold fxUsable at h
  split at h
  next => cases h
  simp only [Bool.and_eq_true] at h
  exact s.fx.priced h.1.1

def Within (s : AggregationEngine) (now : Nat) (mask : BitVec 32) : Prop :=
  ∀ slot, mask.getLsbD slot = true → ∃ m, s.members[slot]? = some m ∧ s.quotable now m = true

theorem within_rawMask : s.Within now (s.rawMask now) := by
  intro slot hsl
  obtain ⟨m, hm, hp⟩ := getLsbD_maskWhere.mp hsl
  exact ⟨m, hm, (Bool.and_eq_true _ _ ▸ hp).1⟩

theorem within_gatedMask : s.Within now (s.gatedMask now) := by
  intro slot hsl
  obtain ⟨m, hm, hp⟩ := getLsbD_maskWhere.mp hsl
  exact ⟨m, hm, (Bool.and_eq_true _ _ ▸ hp).1⟩

/-- What the loop over the skew keeps: the sides are those of the mask, which only loses slots. -/
structure Kept (s : AggregationEngine) (now : Nat) (g : Gate) : Prop where
  bid : g.bid = s.gatedSide now .bid g.mask
  ask : g.ask = s.gatedSide now .ask g.mask
  sub : ∀ slot, g.mask.getLsbD slot = true → (s.gatedMask now).getLsbD slot = true
  flags : g.flags = 0 ∨ g.flags = kAggSkewEnforced

section

variable (hmask : s.Within now mask)

include hmask

theorem quotes_signs (hq : q ∈ s.quotes side mask) :
    0 ≤ q.level.price ∧ (side = .ask → 0 < q.level.price) ∧ 0 ≤ q.level.quantity := by
  obtain ⟨hm, hbit, hlvl⟩ := mem_quotes hq
  obtain ⟨m, hm', hquot⟩ := hmask q.slot hbit
  cases hm.symm.trans hm'
  simp only [quotable, Bool.and_eq_true, Bool.or_eq_true, Bool.not_eq_true'] at hquot
  obtain ⟨⟨-, hval⟩, hfx⟩ := hquot
  have hquoted := q.member.quoted hval
  refine convert_signs (hquoted.1.level side) (hquoted.quantity side) (fun hconv => ?_) hlvl
  rcases hfx with hno | hfx
  · rw [hconv] at hno
    cases hno
  · exact (fx_priced hfx).level side

theorem bestQuotes_quantity : ∀ q ∈ s.bestQuotes side mask, 0 ≤ q.level.quantity :=
  fun _ hq => (quotes_signs hmask (bestQuotes_sublist.subset hq)).2.2

theorem gatedSide_stamp (hne : s.bestQuotes side mask ≠ []) :
    (s.gatedSide now side mask).timestampVenue < s.members.length ∧
      mask.getLsbD (s.gatedSide now side mask).timestampVenue = true ∧
      ((s.gatedSide now side mask).exchangeTsNs = 0 ∨
        ∃ m, s.members[(s.gatedSide now side mask).timestampVenue]? = some m ∧
          (s.gatedSide now side mask).exchangeTsNs = m.bbo.header.exchangeTsNs) := by
  have h : Collected (s.bestQuotes side mask) (s.gatedSide now side mask) :=
    gatedSide_collected (bestQuotes_quantity hmask) hne
  refine ⟨slots_bestQuotes.2 _ h.timestampVenue, ?_, ?_⟩
  · obtain ⟨q, hq, hsl⟩ := List.mem_map.mp h.timestampVenue
    rw [← hsl]
    exact (mem_quotes (bestQuotes_sublist.subset hq)).2.1
  · rcases h.stamped with hze | ⟨q, hq, hsl, hts⟩
    · exact .inl hze
    · rw [← hsl]
      exact .inr ⟨q.member, (mem_quotes (bestQuotes_sublist.subset hq)).1, hts⟩

theorem gatedSide_mask : (s.gatedSide now side mask).venueMask ≠ 0 ↔ s.bestQuotes side mask ≠ [] := by
  by_cases hnil : s.bestQuotes side mask = []
  · rw [gatedSide_empty hnil]
    exact ⟨fun h => absurd rfl h, fun h => absurd hnil h⟩
  · have hbd : s.members.length ≤ 8 := s.bounded
    rw [(gatedSide_collected (bestQuotes_quantity hmask) hnil).venueMask, Ne, ofSlots_eq_zero_iff]
    · rw [List.map_eq_nil_iff]
    · intro slot hsl
      have hlt := slots_bestQuotes.2 slot hsl
      omega

end

variable {g : Gate} {turns : Nat}

theorem kept_openGate : Kept s now (s.openGate now) := ⟨rfl, rfl, fun _ h => h, .inl rfl⟩

def Gate.OneVenue (g : Gate) : Prop := g.bid.timestampVenue = g.ask.timestampVenue

theorem stamp_mem (hmask : s.Within now mask) (hts : (s.gatedSide now side mask).exchangeTsNs ≠ 0) :
    (s.gatedSide now side mask).timestampVenue < s.members.length ∧
      mask.getLsbD (s.gatedSide now side mask).timestampVenue = true := by
  have hne : s.bestQuotes side mask ≠ [] := by
    intro hnil
    rw [gatedSide_empty hnil] at hts
    exact hts rfl
  obtain ⟨hlt, hbit, -⟩ := gatedSide_stamp hmask hne
  exact ⟨hlt, hbit⟩

def sides (s : AggregationEngine) (now : Nat) (mask : BitVec 32) : Gate :=
  { mask, bid := s.gatedSide now .bid mask, ask := s.gatedSide now .ask mask }

/-- So many times over the best quotes are crossed between two venues whose times are further apart than the
threshold, and the member with the older time is left out. -/
def Sheds (s : AggregationEngine) (now : Nat) : Nat → BitVec 32 → Prop
  | 0, _ => True
  | turns + 1, mask =>
    let g := s.sides now mask
    g.bid.price > g.ask.price ∧ ¬g.OneVenue ∧ g.bid.exchangeTsNs ≠ 0 ∧ g.ask.exchangeTsNs ≠ 0 ∧
      s.config.crossSkewThresholdUs < g.skew ∧ s.Sheds now turns (mask &&& ~~~(.twoPow 32 g.olderSlot))

/-- How the loop ends on a crossed result: at one venue's quotes, at sides that cannot be compared or are
close enough, or because there are no turns left. -/
inductive Ended (s : AggregationEngine) (now turns : Nat) (g r : Gate) : Prop
  | uncrossed (h : r.bid.price ≤ r.ask.price)
  | oneVenue (h : r.OneVenue) (herror : r.memberDataError = true) (hkept : ¬s.Sheds now turns g.mask)
  | untimed (h : ¬r.OneVenue) (hts : r.bid.exchangeTsNs = 0 ∨ r.ask.exchangeTsNs = 0)
  | close (h : ¬r.OneVenue) (hskew : r.skew ≤ s.config.crossSkewThresholdUs)
  | exhausted (herror : r.memberDataError = g.memberDataError) (hsheds : s.Sheds now turns g.mask)
      (hleft : popcount r.mask + turns = popcount g.mask)

section

variable (h : Kept s now g)

include h

theorem Kept.within : s.Within now g.mask := fun slot hsl => within_gatedMask slot (h.sub slot hsl)

theorem Kept.dropVenue (slot : Nat) : Kept s now (s.dropVenue now g slot) := by
  refine ⟨rfl, rfl, fun i hi => h.sub i ?_, ?_⟩
  · have hclr : (g.mask &&& ~~~BitVec.twoPow 32 slot).getLsbD i = true := hi
    rw [getLsbD_clear, Bool.and_eq_true] at hclr
    exact hclr.1
  · show g.flags ||| kAggSkewEnforced = 0 ∨ g.flags ||| kAggSkewEnforced = kAggSkewEnforced
    rcases h.flags with hze | hone
    · exact .inr (by rw [hze]; rfl)
    · exact .inr (by rw [hone]; rfl)

theorem Kept.olderSlot (hbid : g.bid.exchangeTsNs ≠ 0) (hask : g.ask.exchangeTsNs ≠ 0) :
    g.olderSlot < s.members.length ∧ g.mask.getLsbD g.olderSlot = true := by
  unfold Gate.olderSlot
  rw [h.bid] at hbid ⊢
  rw [h.ask] at hask ⊢
  split
  next => exact stamp_mem h.within hbid
  next => exact stamp_mem h.within hask

theorem Kept.sheds_iff : s.Sheds now (turns + 1) g.mask ↔ g.bid.price > g.ask.price ∧ ¬g.OneVenue ∧
    g.bid.exchangeTsNs ≠ 0 ∧ g.ask.exchangeTsNs ≠ 0 ∧ s.config.crossSkewThresholdUs < g.skew ∧
    s.Sheds now turns (s.dropVenue now g g.olderSlot).mask := by
  simp only [Sheds, sides, Gate.OneVenue, Gate.skew, Gate.olderSlot, AggregationEngine.dropVenue, ← h.bid, ← h.ask]

theorem enforceSkew_ended :
    Kept s now (s.enforceSkew now turns g) ∧ Ended s now turns g (s.enforceSkew now turns g) := by
  induction turns generalizing g with
  | zero => exact ⟨h, .exhausted rfl trivial rfl⟩
  | succ turns ih =>
    unfold enforceSkew
    split
    next hcrs =>
      dsimp only
      split
      next hsp =>
        refine ⟨⟨h.bid, h.ask, h.sub, h.flags⟩, ?_⟩
        by_cases hone : g.bid.timestampVenue = g.ask.timestampVenue
        · exact .oneVenue hone (decide_eq_true hone) fun hsheds => (h.sheds_iff.mp hsheds).2.1 hone
        · refine .untimed hone ?_
          rcases hsp with hsm | hts
          · exact absurd (of_decide_eq_true hsm) hone
          · exact hts
      next hgo =>
        rw [not_or, not_or] at hgo
        obtain ⟨hven, hbid, hask⟩ := hgo
        have hone : ¬g.OneVenue := fun hone => hven (decide_eq_true hone)
        have hkt : Kept s now { g with skewUs := g.skew } := ⟨h.bid, h.ask, h.sub, h.flags⟩
        have holder := h.olderSlot hbid hask
        split
        next hskew => exact ⟨hkt, .close hone hskew⟩
        next hfar =>
        split
        next hbad =>
          -- the older side's venue is always in the mask
          rcases hbad with hlen | hbit
          · exact absurd holder.1 (not_lt.mpr hlen)
          · exact absurd (holder.2.symm.trans hbit) (by decide)
        next =>
          generalize hd : s.dropVenue now _ _ = d
          have hkeptd : Kept s now d := hd ▸ hkt.dropVenue _
          have herrord : d.memberDataError = g.memberDataError := by rw [← hd]; rfl
          have hcnt : popcount d.mask + 1 = popcount g.mask := by
            rw [← hd]
            exact popcount_clear holder.2
          have hsheds : s.Sheds now (turns + 1) g.mask ↔ s.Sheds now turns d.mask := by
            rw [h.sheds_iff, ← hd]
            exact ⟨fun hall => hall.2.2.2.2.2, fun hrest => ⟨hcrs, hone, hbid, hask, not_le.mp hfar, hrest⟩⟩
          obtain ⟨hkt', hend⟩ := ih hkeptd
          refine ⟨hkt', ?_⟩
          cases hend with
          | uncrossed h => exact .uncrossed h
          | oneVenue h herr hkept => exact .oneVenue h herr (hsheds.not.mpr hkept)
          | untimed h hts => exact .untimed h hts
          | close h hskew => exact .close h hskew
          | exhausted herr hall hlf => exact .exhausted (herr.trans herrord) (hsheds.mpr hall) (by omega)
    next hcrs => exact ⟨h, .uncrossed (by omega)⟩

end

theorem kept_settledGate : Kept s now (s.settledGate now) := by
  unfold settledGate
  split
  next => exact kept_openGate
  next => exact (enforceSkew_ended kept_openGate).1

end AggregationEngine

end SelfQuant.Mds.Agg
