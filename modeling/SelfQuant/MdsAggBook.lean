import SelfQuant.MdsAggGate
import Mathlib.Algebra.Order.BigOperators.Group.Finset
import Mathlib.Algebra.Order.Ring.Nat

namespace SelfQuant.Mds.Agg

open SlotMask GroupMerge List Side

namespace AggregationEngine

variable {s : AggregationEngine} {now slot : Nat} {side : Side} {m : MemberState} {price : Int}
  {a b x y level out : Level} {levels : List Level} {c : Cursor} {cs : List Cursor}

def converted (s : AggregationEngine) (m : MemberState) (side : Side) (levels : List Level) : List Level :=
  levels.filterMap (s.normalizeLevel m side)

def Cursor.view (s : AggregationEngine) (side : Side) (c : Cursor) : List Level := s.converted c.member side c.levels

theorem converted_cons_none (h : s.normalizeLevel m side level = none) :
    s.converted m side (level :: levels) = s.converted m side levels := filterMap_cons_none h

theorem converted_cons_some (h : s.normalizeLevel m side level = some out) :
    s.converted m side (level :: levels) = out :: s.converted m side levels := filterMap_cons_some h

theorem converted_skipLevels : s.converted m side (s.skipLevels m side levels) = s.converted m side levels := by
  induction levels with
  | nil => rfl
  | cons level levels ih =>
    unfold skipLevels
    split
    next hno => rw [ih, converted_cons_none hno]
    next => rfl

theorem Cursor.view_skip : (c.skip s side).view s side = c.view s side := converted_skipLevels

theorem Cursor.price_skip : (c.skip s side).price s side = (c.view s side).head?.map (·.price) := by
  unfold price skip view
  induction c.levels with
  | nil => rfl
  | cons level levels ih =>
    cases h : s.normalizeLevel c.member side level with
    | none =>
      rw [converted_cons_none h, ← ih]
      simp only [skipLevels, h]
    | some out =>
      rw [converted_cons_some h]
      simp only [skipLevels, h, head?_cons, Option.bind_some, Option.map_some]

theorem bestPrice_eq : s.bestPrice side (cs.map (Cursor.skip s side)) =
    best side.Beats (fronts (·.price) (cs.map (Cursor.view s side))) := by
  unfold bestPrice best fronts
  rw [filterMap_map, foldl_filterMap, foldl_map]
  apply foldl_ext
  intro found c _
  rw [Cursor.price_skip]
  dsimp only [Function.comp_apply]
  cases (c.view s side).head? with
  | none => rfl
  | some level =>
    cases found with
    | none | some => rfl

def group (s : AggregationEngine) (m : MemberState) (side : Side) (price : Int) (levels : List Level) : List Level :=
  (s.converted m side levels).takeWhile (·.price = price)

def addAll (sum : Int) (levels : List Level) : Int := (levels.map (·.quantity)).foldl saturatingAdd sum

theorem drainLevels_eq (total venue : Int) (contributed : Bool) :
    (s.drainLevels m side price levels (total, venue, contributed)).2 =
        (addAll total (s.group m side price levels), addAll venue (s.group m side price levels),
          contributed || decide (s.group m side price levels ≠ [])) ∧
      s.converted m side (s.drainLevels m side price levels (total, venue, contributed)).1 =
        (s.converted m side levels).dropWhile (·.price = price) := by
  induction levels generalizing total venue contributed with
  | nil => exact ⟨by simp [drainLevels, group, converted, addAll], rfl⟩
  | cons level levels ih =>
    unfold drainLevels group
    split
    next hno =>
      rw [converted_cons_none hno]
      exact ih total venue contributed
    next out hso =>
      rw [converted_cons_some hso]
      split
      next hpx =>
        rw [takeWhile_cons_of_neg (by simpa using hpx), dropWhile_cons_of_neg (by simpa using hpx),
          ← converted_cons_some hso]
        exact ⟨by simp [addAll], rfl⟩
      next hpx =>
        rw [takeWhile_cons_of_pos (by simpa using hpx), dropWhile_cons_of_pos (by simpa using hpx)]
        obtain ⟨hsu, hrs⟩ := ih (saturatingAdd total out.quantity) (saturatingAdd venue out.quantity) true
        exact ⟨by rw [hsu]; simp [addAll, group], hrs⟩

def addGroup (level : AggLevel) (g : Nat × List Level) : AggLevel :=
  let filled := { level with
    quantity := addAll level.quantity g.2
    venueQuantity := fun i => if i.val = g.1 then addAll 0 g.2 else level.venueQuantity i }
  if g.2 ≠ [] then { filled with
    venueMask := level.venueMask ||| .twoPow 32 g.1, contributorCount := level.contributorCount + 1 }
  else filled

def levelOf (price : Int) (groups : List (Nat × List Level)) : AggLevel := groups.foldl addGroup { price }

theorem drain_eq (level : AggLevel) :
    (s.drain side price level c).1 = addGroup level (c.slot, (c.view s side).takeWhile (·.price = price)) ∧
      (s.drain side price level c).2.view s side = (c.view s side).dropWhile (·.price = price) ∧
      (s.drain side price level c).2.slot = c.slot := by
  obtain ⟨hsu, hrs⟩ := drainLevels_eq level.quantity 0 false
  unfold drain Cursor.view
  generalize s.drainLevels c.member side price c.levels (level.quantity, 0, false) = drained at hsu hrs ⊢
  obtain ⟨rest, total, venue, contributed⟩ := drained
  cases hsu
  refine ⟨?_, hrs, rfl⟩
  unfold addGroup group
  by_cases hnil : (s.converted c.member side c.levels).takeWhile (·.price = price) = []
  · simp [hnil]
  · simp [hnil]

theorem collect_eq (side : Side) (price : Int) (level : AggLevel) (cs : List Cursor) :
    (s.collect side price level cs).1 =
        (cs.map fun c => (c.slot, (c.view s side).takeWhile (·.price = price))).foldl addGroup level ∧
      (s.collect side price level cs).2.map (Cursor.view s side) =
        (cs.map (Cursor.view s side)).map (·.dropWhile (·.price = price)) ∧
      (s.collect side price level cs).2.map (·.slot) = cs.map (·.slot) := by
  induction cs generalizing level with
  | nil => exact ⟨rfl, rfl, rfl⟩
  | cons c cs ih =>
    obtain ⟨hlvl, hvw, hsl⟩ := drain_eq level
    obtain ⟨ihlevel, ihview, ihslot⟩ := ih (s.drain side price level c).1
    unfold collect
    refine ⟨?_, ?_, ?_⟩
    · rw [ihlevel, hlvl, map_cons, foldl_cons]
    · rw [map_cons, hvw, ihview, map_cons, map_cons]
    · rw [map_cons, hsl, ihslot, map_cons]

theorem view_map_skip : (cs.map (Cursor.skip s side)).map (Cursor.view s side) = cs.map (Cursor.view s side) := by
  rw [map_map]
  exact map_congr_left fun c _ => Cursor.view_skip

/-- The loop is the merge of the convertible levels, with one aggregated level for each group. -/
theorem mergeSide_eq (room : Nat) : s.mergeSide side room cs =
    (merge (·.price) side.Beats room
      (cs.map (Cursor.view s side))).map fun g => levelOf g.1 ((cs.map (·.slot)).zip g.2) := by
  induction room generalizing cs with
  | zero => rfl
  | succ room ih =>
    unfold mergeSide GroupMerge.merge
    dsimp only
    rw [bestPrice_eq]
    cases best side.Beats
        (fronts (·.price) (cs.map (Cursor.view s side))) with
    | none => rfl
    | some price =>
      dsimp only
      obtain ⟨hlvl, hvw, hsl⟩ := collect_eq side price { price } (cs.map (Cursor.skip s side))
      have hsls : (cs.map (Cursor.skip s side)).map (·.slot) = cs.map (·.slot) := by
        rw [map_map]
        rfl
      rw [ih, hvw, hsl, hsls, view_map_skip, map_cons, hlvl]
      refine congrArg (· :: _) ?_
      rw [map_map, map_map, zip_map']
      congr 1
      apply map_congr_left
      intro c _
      rw [Function.comp_apply, Cursor.view_skip]
      rfl

def quantityOf (levels : List Level) : Int := (levels.map (·.quantity)).sum

theorem quantityOf_nonneg (h : ∀ level ∈ levels, 0 ≤ level.quantity) : 0 ≤ quantityOf levels :=
  sum_nonneg (forall_mem_map.mpr h)

theorem addAll_eq {sum : Int} (hsum : 0 ≤ sum) (hmax : sum ≤ int64Max) (h : ∀ level ∈ levels, 0 ≤ level.quantity) :
    addAll sum levels = min (sum + quantityOf levels) int64Max :=
  foldl_saturatingAdd hsum hmax (forall_mem_map.mpr h)

/-- A level that holds what some slots have at its price. -/
structure Filled (held : Nat → List Level) (slots : List Nat) (level : AggLevel) : Prop where
  quantity : level.quantity = min (slots.map fun slot => quantityOf (held slot)).sum int64Max
  venueQuantity : ∀ i : Fin kAggVenueSlots,
    level.venueQuantity i = if i.val ∈ slots then min (quantityOf (held i)) int64Max else 0
  venueMask : level.venueMask = ofSlots 32 (slots.filter fun slot => held slot ≠ [])
  contributorCount : level.contributorCount = (slots.filter fun slot => held slot ≠ []).length
  reserved : level.reserved = fun _ => 0

section Levels

variable {held : Nat → List Level} {slots : List Nat} (hheld : ∀ slot, ∀ level ∈ held slot, 0 ≤ level.quantity)

include hheld

theorem Filled.add {level : AggLevel} (h : Filled held slots level) (slot : Nat) :
    Filled held (slots ++ [slot]) (addGroup level (slot, held slot)) := by
  have hsum : 0 ≤ (slots.map fun slot => quantityOf (held slot)).sum :=
    sum_nonneg (forall_mem_map.mpr fun slot _ => quantityOf_nonneg (hheld slot))
  have hmax : 0 ≤ int64Max := by decide
  have hone := quantityOf_nonneg (hheld slot)
  have hqty : addAll level.quantity (held slot) =
      min ((slots ++ [slot]).map fun slot => quantityOf (held slot)).sum int64Max := by
    rw [addAll_eq (by rw [h.quantity]; omega) (by rw [h.quantity]; omega) (hheld slot), h.quantity,
      map_append, sum_append, map_singleton, sum_singleton]
    omega
  have hven : ∀ i : Fin kAggVenueSlots,
      (if i.val = slot then addAll 0 (held slot) else level.venueQuantity i) =
        if i.val ∈ slots ++ [slot] then min (quantityOf (held i)) int64Max else 0 := by
    intro i
    rw [addAll_eq (le_refl 0) hmax (hheld slot), zero_add, h.venueQuantity]
    by_cases hi : i.val = slot
    · rw [if_pos hi, if_pos (by simp [hi]), hi]
    · simp [hi]
  by_cases hnil : held slot = []
  · have hfilt : ((slots ++ [slot]).filter fun slot => held slot ≠ []) = slots.filter fun slot => held slot ≠ [] := by
      simp [filter_append, hnil]
    unfold addGroup
    rw [if_neg (not_not.mpr hnil)]
    refine ⟨hqty, hven, ?_, ?_, h.reserved⟩
    · rw [hfilt]
      exact h.venueMask
    · rw [hfilt]
      exact h.contributorCount
  · have hfilt : ((slots ++ [slot]).filter fun slot => held slot ≠ []) =
        (slots.filter fun slot => held slot ≠ []) ++ [slot] := by
      simp [filter_append, hnil]
    unfold addGroup
    rw [if_pos hnil]
    refine ⟨hqty, hven, ?_, ?_, h.reserved⟩
    · rw [hfilt, ofSlots_concat, ← h.venueMask]
    · rw [hfilt, length_append, ← h.contributorCount]
      rfl

theorem levelOf_filled (price : Int) (slots : List Nat) :
    Filled held slots (levelOf price (slots.map fun slot => (slot, held slot))) := by
  induction slots using reverseRecOn with
  | nil => exact ⟨rfl, fun _ => rfl, rfl, rfl, rfl⟩
  | append_singleton slots slot ih =>
    unfold levelOf
    rw [map_append, foldl_append]
    exact ih.add hheld slot

end Levels

theorem levelOf_price (groups : List (Nat × List Level)) : (levelOf price groups).price = price := by
  have hadd : ∀ (level : AggLevel) (g : Nat × List Level), (addGroup level g).price = level.price := by
    intro level g
    unfold addGroup
    split <;> rfl
  exact keyOf_foldl hadd groups

theorem MemberState.valid_levels : validLadder side (m.levels side) = true := by
  cases side with
  | bid => exact m.bids.valid
  | ask => exact m.asks.valid

theorem MemberState.length_levels : (m.levels side).length ≤ kLevelsPerMember := by
  cases side with
  | bid => exact m.bids.bounded
  | ask => exact m.asks.bounded

theorem convert_mono (ha : 0 < a.price) (hb : 0 < b.price) (hbtr : side.better a.price b.price = true)
    (hfx : m.config.convertUsdcToUsdt = true → 0 < (s.fx.bbo.level side).price)
    (hx : s.convert m side a = some x) (hy : s.convert m side b = some y) :
    ¬side.better y.price x.price = true := by
  obtain ⟨xprice, hxp, hrs⟩ := Option.bind_eq_some_iff.mp hx
  obtain ⟨xquantity, -, rfl⟩ := Option.map_eq_some_iff.mp hrs
  obtain ⟨yprice, hyp, hrs⟩ := Option.bind_eq_some_iff.mp hy
  obtain ⟨yquantity, -, rfl⟩ := Option.map_eq_some_iff.mp hrs
  by_cases hconv : m.config.convertUsdcToUsdt = true
  · rw [if_pos hconv] at hxp hyp
    cases side with
    | bid =>
      simp only [better, decide_eq_true_eq] at hbtr ⊢
      have := multiplyScaled_mono (hfx hconv) hb hyp hxp (by omega)
      omega
    | ask =>
      simp only [better, decide_eq_true_eq] at hbtr ⊢
      have := multiplyScaled_mono (hfx hconv) ha hxp hyp (by omega)
      omega
  · rw [if_neg hconv] at hxp hyp
    cases side with
    | bid =>
      simp only [better, decide_eq_true_eq] at hbtr ⊢
      have := rescale_lt hyp hxp hbtr
      omega
    | ask =>
      simp only [better, decide_eq_true_eq] at hbtr ⊢
      have := rescale_lt hxp hyp hbtr
      omega

theorem normalizeLevel_eq_some (h : s.normalizeLevel m side a = some x) :
    s.convert m side a = some x ∧ 0 < x.quantity := by
  obtain ⟨hconv, hqty⟩ := Option.filter_eq_some_iff.mp h
  exact ⟨hconv, of_decide_eq_true hqty⟩

theorem active_fx (h : s.active now m = true) (hconv : m.config.convertUsdcToUsdt = true) :
    0 < (s.fx.bbo.level side).price := by
  simp only [active, Bool.and_eq_true, Bool.or_eq_true, Bool.not_eq_true'] at h
  rcases h.2 with hno | hfx
  · rw [hconv] at hno
    cases hno
  · exact (fx_priced hfx).level side

theorem converted_sorted (h : s.active now m = true) (hval : validLadder side levels = true) :
    Sorted (·.price) side.Beats (s.converted m side levels) := by
  obtain ⟨hpos, hsrt⟩ := validLadder_iff.mp hval
  unfold Sorted converted
  rw [pairwise_filterMap]
  refine hsrt.imp_of_mem ?_
  intro a b ha hb hbtr x hx y hy
  exact convert_mono (hpos a ha).1 (hpos b hb).1 hbtr (fun hconv => active_fx h hconv)
    (normalizeLevel_eq_some hx).1 (normalizeLevel_eq_some hy).1

/-- What the member at a slot offers on a side, in the output's scales. -/
def liquidity (s : AggregationEngine) (now : Nat) (side : Side) (slot : Nat) : List Level :=
  match s.members[slot]? with
  | none => []
  | some m => if s.active now m then s.converted m side (m.levels side) else []

def heldAt (s : AggregationEngine) (now : Nat) (side : Side) (price : Int) (slot : Nat) : List Level :=
  (s.liquidity now side slot).filter (·.price = price)

def activeSlots (s : AggregationEngine) (now : Nat) : List Nat :=
  (s.members.zipIdx.filter fun x => s.active now x.1).map (·.2)

theorem liquidity_of_active (hm : s.members[slot]? = some m) (h : s.active now m = true) :
    s.liquidity now side slot = s.converted m side (m.levels side) := by
  unfold liquidity
  rw [hm]
  exact if_pos h

theorem mem_activeSlots : slot ∈ s.activeSlots now ↔ ∃ m, s.members[slot]? = some m ∧ s.active now m = true :=
  mem_slotsWhere

theorem liquidity_of_inactive (h : slot ∉ s.activeSlots now) : s.liquidity now side slot = [] := by
  unfold liquidity
  split
  next => rfl
  next m hm => exact if_neg fun hact => h (mem_activeSlots.mpr ⟨m, hm, hact⟩)

theorem nodup_activeSlots : (s.activeSlots now).Nodup := nodup_range.sublist slotsWhere_sublist

theorem activeSlots_lt (h : slot ∈ s.activeSlots now) : slot < kAggVenueSlots := by
  obtain ⟨m, hm, -⟩ := mem_activeSlots.mp h
  exact slot_lt hm

theorem liquidity_rec {P : List Level → Prop} (hnil : P [])
    (h : ∀ m, s.active now m = true → P (s.converted m side (m.levels side))) : P (s.liquidity now side slot) := by
  unfold liquidity
  split
  next => exact hnil
  next m _ =>
  split
  next hact => exact h m hact
  next => exact hnil

theorem liquidity_sorted : Sorted (·.price) side.Beats (s.liquidity now side slot) :=
  liquidity_rec .nil fun _ hact => converted_sorted hact MemberState.valid_levels

theorem liquidity_pos (hx : x ∈ s.liquidity now side slot) : 0 < x.quantity := by
  refine liquidity_rec (P := fun l => ∀ x ∈ l, 0 < x.quantity) (by simp) (fun m _ x hx => ?_) x hx
  obtain ⟨a, -, ha⟩ := mem_filterMap.mp hx
  exact (normalizeLevel_eq_some ha).2

theorem length_liquidity_le : (s.liquidity now side slot).length ≤ kLevelsPerMember :=
  liquidity_rec (P := fun l => l.length ≤ kLevelsPerMember) (Nat.zero_le _)
    fun _ _ => le_trans (length_filterMap_le _ _) MemberState.length_levels

theorem cursors_slot : (s.cursors now side).map (·.slot) = s.activeSlots now := by
  unfold cursors activeSlots
  rw [map_map]
  rfl

theorem cursors_view : (s.cursors now side).map (Cursor.view s side) =
    (s.activeSlots now).map (s.liquidity now side) := by
  unfold cursors activeSlots
  rw [map_map, map_map]
  apply map_congr_left
  intro x hx
  obtain ⟨hx, hact⟩ := mem_filter.mp hx
  exact (liquidity_of_active (mem_zipIdx_iff_getElem?.mp hx) hact).symm

theorem heldAt_of_inactive (h : slot ∉ s.activeSlots now) : s.heldAt now side price slot = [] := by
  unfold heldAt
  rw [liquidity_of_inactive h]
  rfl

theorem mem_activeSlots_of_held (h : s.heldAt now side price slot ≠ []) : slot ∈ s.activeSlots now :=
  not_not.mp fun hsl => h (heldAt_of_inactive hsl)

def bookSide (s : AggregationEngine) (now : Nat) (side : Side) : List AggLevel :=
  s.mergeSide side kAggMaxLevelsPerSide (s.cursors now side)

def levelAt (s : AggregationEngine) (now : Nat) (side : Side) (price : Int) : AggLevel :=
  levelOf price ((s.activeSlots now).map fun slot => (slot, s.heldAt now side price slot))

theorem length_flatten_le : ((s.activeSlots now).map (s.liquidity now side)).flatten.length ≤ kAggMaxLevelsPerSide := by
  have hsls : (s.activeSlots now).length ≤ 8 := length_le nodup_activeSlots fun _ => activeSlots_lt
  rw [length_flatten, map_map]
  calc ((s.activeSlots now).map (length ∘ s.liquidity now side)).sum
      ≤ ((s.activeSlots now).map (length ∘ s.liquidity now side)).length • kLevelsPerMember := by
        exact sum_le_card_nsmul _ _ (forall_mem_map.mpr fun _ _ => length_liquidity_le)
    _ ≤ kAggMaxLevelsPerSide := by
        rw [length_map, smul_eq_mul, kLevelsPerMember, kAggMaxLevelsPerSide]
        omega

theorem bookSide_eq : s.bookSide now side =
    (merge (·.price) side.Beats kAggMaxLevelsPerSide
      ((s.activeSlots now).map (s.liquidity now side))).map fun g => levelOf g.1 ((s.activeSlots now).zip g.2) := by
  unfold bookSide
  rw [mergeSide_eq, cursors_view, cursors_slot]

theorem sources_sorted : ∀ l ∈ (s.activeSlots now).map (s.liquidity now side),
    Sorted (·.price) side.Beats l :=
  forall_mem_map.mpr fun _ _ => liquidity_sorted

theorem bookSide_pairwise :
    (s.bookSide now side).Pairwise fun level next => side.better level.price next.price = true := by
  rw [bookSide_eq, pairwise_map]
  refine (merge_pairwise sources_sorted).imp ?_
  intro g h hbtr
  rw [levelOf_price, levelOf_price]
  exact hbtr

theorem levelOf_group {g : Int × List (List Level)}
    (hg : g ∈ merge (·.price) side.Beats kAggMaxLevelsPerSide
      ((s.activeSlots now).map (s.liquidity now side))) :
    levelOf g.1 ((s.activeSlots now).zip g.2) = s.levelAt now side g.1 := by
  rw [(mem_merge sources_sorted hg).1, map_map, ← map_prod_left_eq_zip]
  rfl

theorem mem_bookSide {level : AggLevel} : level ∈ s.bookSide now side ↔
    level = s.levelAt now side level.price ∧ ∃ slot, s.heldAt now side level.price slot ≠ [] := by
  rw [bookSide_eq]
  constructor
  · intro hlvl
    obtain ⟨g, hg, rfl⟩ := mem_map.mp hlvl
    obtain ⟨-, l, hl, x, hx, hpx⟩ := mem_merge sources_sorted hg
    obtain ⟨slot, -, rfl⟩ := mem_map.mp hl
    rw [levelOf_price]
    exact ⟨levelOf_group hg, slot, ne_nil_of_mem (mem_filter.mpr ⟨hx, decide_eq_true hpx⟩)⟩
  · rintro ⟨hlvl, slot, hheld⟩
    obtain ⟨x, hx⟩ := exists_mem_of_ne_nil _ hheld
    obtain ⟨hx, hpx⟩ := mem_filter.mp hx
    obtain ⟨g, hg, hgx⟩ := exists_mem_merge sources_sorted length_flatten_le
      (mem_map_of_mem (mem_activeSlots_of_held hheld)) hx
    refine mem_map.mpr ⟨g, hg, ?_⟩
    rw [levelOf_group hg, hgx, of_decide_eq_true hpx]
    exact hlvl.symm

theorem heldAt_pos (hx : x ∈ s.heldAt now side price slot) : 0 < x.quantity := liquidity_pos (mem_filter.mp hx).1

theorem levelAt_filled : Filled (s.heldAt now side price) (s.activeSlots now) (s.levelAt now side price) :=
  levelOf_filled (fun _ _ hx => le_of_lt (heldAt_pos hx)) price (s.activeSlots now)

theorem levelAt_price : (s.levelAt now side price).price = price := levelOf_price _

def grouped (levels : List Level) : List (Int × Int) :=
  (levels.map (·.price)).dedup.map fun price => (price, quantityOf (levels.filter (·.price = price)))

def attributed (levels : List AggLevel) (slot : Fin kAggVenueSlots) : List (Int × Int) :=
  (levels.filter (·.venueMask.getLsbD slot)).map fun level => (level.price, level.venueQuantity slot)

theorem quantityOf_heldAt_nonneg : 0 ≤ quantityOf (s.heldAt now side price slot) :=
  quantityOf_nonneg fun _ hx => le_of_lt (heldAt_pos hx)

theorem sum_activeSlots (f : List Level → Int) (hf : f [] = 0) :
    ((s.activeSlots now).map fun slot => f (s.heldAt now side price slot)).sum =
      ∑ slot : Fin kAggVenueSlots, f (s.heldAt now side price slot) := by
  rw [← sum_slots (fun slot => f (s.heldAt now side price slot)) nodup_activeSlots fun _ => activeSlots_lt]
  apply Finset.sum_congr rfl
  intro slot _
  split
  next => rfl
  next hsl => rw [heldAt_of_inactive hsl, hf]

theorem levelAt_mask (slot : Nat) :
    (s.levelAt now side price).venueMask.getLsbD slot = true ↔ s.heldAt now side price slot ≠ [] := by
  rw [levelAt_filled.venueMask, getLsbD_ofSlots_iff, mem_filter, decide_eq_true_iff]
  constructor
  · exact fun h => h.2.2
  · intro h
    have hsl := mem_activeSlots_of_held h
    exact ⟨lt_trans (activeSlots_lt hsl) (by decide), hsl, h⟩

theorem levelAt_count : (s.levelAt now side price).contributorCount =
    (range kAggVenueSlots).countP fun slot => s.heldAt now side price slot ≠ [] := by
  rw [levelAt_filled.contributorCount, countP_eq_length_filter]
  apply Perm.length_eq
  rw [perm_ext_iff_of_nodup (nodup_activeSlots.filter _) (nodup_range.filter _)]
  intro slot
  rw [mem_filter, mem_filter, mem_range, decide_eq_true_iff]
  exact ⟨fun h => ⟨activeSlots_lt h.1, h.2⟩, fun h => ⟨mem_activeSlots_of_held h.2, h.2⟩⟩

theorem levelAt_quantities (hsum : ∑ slot : Fin kAggVenueSlots, quantityOf (s.heldAt now side price slot) ≤ int64Max) :
    (∀ slot, (s.levelAt now side price).venueQuantity slot = quantityOf (s.heldAt now side price slot)) ∧
      (s.levelAt now side price).quantity = ∑ slot, (s.levelAt now side price).venueQuantity slot := by
  have hfil : Filled (s.heldAt now side price) (s.activeSlots now) (s.levelAt now side price) := levelAt_filled
  have hven : ∀ slot, (s.levelAt now side price).venueQuantity slot = quantityOf (s.heldAt now side price slot) := by
    intro slot
    have hle : quantityOf (s.heldAt now side price slot) ≤
        ∑ slot : Fin kAggVenueSlots, quantityOf (s.heldAt now side price slot) :=
      Finset.single_le_sum (f := fun slot : Fin kAggVenueSlots => quantityOf (s.heldAt now side price slot))
        (fun slot _ => quantityOf_heldAt_nonneg) (Finset.mem_univ slot)
    rw [hfil.venueQuantity]
    split
    next => omega
    next hsl =>
    rw [heldAt_of_inactive hsl]
    rfl
  refine ⟨hven, ?_⟩
  rw [hfil.quantity, sum_activeSlots quantityOf rfl, Finset.sum_congr rfl fun slot _ => hven slot]
  omega

theorem mem_prices_iff : price ∈ (s.liquidity now side slot).map (·.price) ↔ s.heldAt now side price slot ≠ [] := by
  constructor
  · intro h
    obtain ⟨x, hx, hpx⟩ := mem_map.mp h
    exact ne_nil_of_mem (mem_filter.mpr ⟨hx, decide_eq_true hpx⟩)
  · intro h
    obtain ⟨x, hx⟩ := exists_mem_of_ne_nil _ h
    obtain ⟨hx, hpx⟩ := mem_filter.mp hx
    exact mem_map.mpr ⟨x, hx, of_decide_eq_true hpx⟩

theorem nodup_attributed (slot : Fin kAggVenueSlots) : (attributed (s.bookSide now side) slot).Nodup := by
  unfold attributed
  have hsub : ((s.bookSide now side).filter (·.venueMask.getLsbD slot)).Pairwise
      fun level next => side.better level.price next.price = true :=
    bookSide_pairwise.sublist filter_sublist
  rw [nodup_iff_pairwise_ne, pairwise_map]
  refine hsub.imp ?_
  intro level next hbtr heq
  have hpx := (Prod.mk.inj heq).1
  cases side <;> simp only [better, decide_eq_true_eq] at hbtr <;> omega

/-- A slot is attributed what its member offers, with the quantities at one price added up. -/
theorem attributed_perm
    (hsum : ∀ price, ∑ slot : Fin kAggVenueSlots, quantityOf (s.heldAt now side price slot) ≤ int64Max)
    (slot : Fin kAggVenueSlots) :
    (attributed (s.bookSide now side) slot).Perm (grouped (s.liquidity now side slot)) := by
  have hgrouped : (grouped (s.liquidity now side slot)).Nodup :=
    (nodup_dedup _).map fun price other h => (Prod.mk.inj h).1
  rw [perm_ext_iff_of_nodup (nodup_attributed slot) hgrouped]
  rintro ⟨price, quantity⟩
  unfold attributed grouped
  rw [mem_map, mem_map]
  constructor
  · rintro ⟨level, hlvl, heq⟩
    obtain ⟨rfl, rfl⟩ := Prod.mk.inj heq
    obtain ⟨hlvl, hbit⟩ := mem_filter.mp hlvl
    obtain ⟨hat, -⟩ := mem_bookSide.mp hlvl
    rw [hat] at hbit
    refine ⟨level.price, ?_, ?_⟩
    · rw [mem_dedup, mem_prices_iff]
      exact (levelAt_mask slot).mp hbit
    · rw [hat, levelAt_price, (levelAt_quantities (hsum level.price)).1]
      rfl
  · rintro ⟨p, hp, heq⟩
    obtain ⟨rfl, rfl⟩ := Prod.mk.inj heq
    rw [mem_dedup, mem_prices_iff] at hp
    refine ⟨s.levelAt now side p, mem_filter.mpr ⟨mem_bookSide.mpr ?_, (levelAt_mask slot).mpr hp⟩, ?_⟩
    · rw [levelAt_price]
      exact ⟨rfl, slot, hp⟩
    · rw [levelAt_price, (levelAt_quantities (hsum p)).1]
      rfl

/-- The aggregated book holds the liquidity of the active members: its prices go from the best one on, each
level adds up the venues that have its price, and each slot finds all its levels again. -/
theorem orderbook_conserves_liquidity (s : AggregationEngine) (now : Nat) (side : Side)
    (hsum : ∀ price, ∑ slot : Fin kAggVenueSlots, quantityOf (s.heldAt now side price slot) ≤ int64Max) :
    (((s.buildOrderbook now).1.record.levels side).Pairwise
      fun level next => side.better level.price next.price = true) ∧
    (∀ level ∈ (s.buildOrderbook now).1.record.levels side,
      level.quantity = ∑ slot, level.venueQuantity slot ∧
      (∀ slot : Fin kAggVenueSlots, level.venueMask.getLsbD slot = false → level.venueQuantity slot = 0) ∧
      (∀ slot, level.venueMask.getLsbD slot = true ↔ s.heldAt now side level.price slot ≠ []) ∧
      level.contributorCount = (range kAggVenueSlots).countP fun slot => s.heldAt now side level.price slot ≠ []) ∧
    ∀ slot : Fin kAggVenueSlots,
      (attributed ((s.buildOrderbook now).1.record.levels side) slot).Perm (grouped (s.liquidity now side slot)) := by
  have hside : (s.buildOrderbook now).1.record.levels side = s.bookSide now side := by
    cases side <;> rfl
  rw [hside]
  refine ⟨bookSide_pairwise, fun level hlevel => ?_, attributed_perm hsum⟩
  obtain ⟨hat, -⟩ := mem_bookSide.mp hlevel
  obtain ⟨hvenue, htotal⟩ := levelAt_quantities (hsum level.price)
  rw [← hat] at hvenue htotal
  have hmask : ∀ slot, level.venueMask.getLsbD slot = true ↔ s.heldAt now side level.price slot ≠ [] := by
    rw [hat, levelAt_price]
    exact levelAt_mask
  refine ⟨htotal, fun slot hslot => ?_, hmask, ?_⟩
  · have hnone : s.heldAt now side level.price slot = [] := by
      by_contra hsome
      have hbit := (hmask slot).mpr hsome
      rw [hslot] at hbit
      cases hbit
    rw [hvenue, hnone]
    rfl
  · rw [hat, levelAt_price]
    exact levelAt_count

theorem quantityOf_heldAt_le :
    quantityOf (s.heldAt now side price slot) ≤ quantityOf (s.liquidity now side slot) := by
  exact (filter_sublist.map _).sum_le_sum (forall_mem_map.mpr fun _ hx => (liquidity_pos hx).le)

def sharedPrice : AggregationEngine :=
  (create {}).run
    [.addMember { venue := .okx, ttlUs := 1000 }, .addMember { venue := .bybit, ttlUs := 1000 },
      .updateBook 0 ⟨[⟨100, 5⟩, ⟨99, 1⟩], [⟨101, 2⟩], 0, 0, 0⟩, .updateBook 1 ⟨[⟨100, 7⟩], [⟨102, 3⟩], 0, 0, 0⟩]

theorem orderbook_conserves_liquidity_sharedPrice :
    (attributed ((sharedPrice.buildOrderbook 0).1.record.levels .bid) ⟨0, by decide⟩).Perm [(100, 5), (99, 1)] := by
  have hbound : ∑ slot : Fin kAggVenueSlots, quantityOf (sharedPrice.liquidity 0 .bid slot) ≤ int64Max := by
    decide +kernel
  have hconsv := orderbook_conserves_liquidity sharedPrice 0 .bid fun price =>
    le_trans (sum_le_sum fun slot _ => quantityOf_heldAt_le) hbound
  have hgrouped : grouped (sharedPrice.liquidity 0 .bid 0) = [(100, 5), (99, 1)] := by decide +kernel
  exact hgrouped ▸ hconsv.2.2 ⟨0, by decide⟩

end AggregationEngine

end SelfQuant.Mds.Agg
