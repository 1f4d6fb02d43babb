import SelfQuant.MdsAggEngine
import SelfQuant.GroupMerge

namespace SelfQuant.Mds.Agg

open List SlotMask GroupMerge

instance (side : Side) : IsStrictTotalOrder Int side.Beats where
  trichotomous price other h₁ h₂ := by
    cases side <;> simp only [Side.Beats, Side.better, decide_eq_true_eq] at h₁ h₂ <;> omega
  irrefl price h := by
    cases side <;> simp only [Side.Beats, Side.better, decide_eq_true_eq] at h <;> omega
  trans _ _ _ := better_trans

structure Quote where
  member : MemberState
  slot : Nat
  level : Level

def total (qs : List Quote) : Int := (qs.map (·.level.quantity)).sum

theorem total_append (qs rest : List Quote) : total (qs ++ rest) = total qs + total rest := by
  unfold total
  rw [map_append, sum_append]

theorem total_singleton (q : Quote) : total [q] = q.level.quantity := by
  unfold total
  simp

theorem total_nonneg {qs : List Quote} (h : ∀ q ∈ qs, 0 ≤ q.level.quantity) : 0 ≤ total qs :=
  sum_nonneg (forall_mem_map.mpr h)

namespace AggregationEngine

variable {s : AggregationEngine} {now : Nat} {side : Side} {mask : BitVec 32} {q : Quote} {qs rest : List Quote}
  {x : MemberState × Nat}

def quoteOf (s : AggregationEngine) (side : Side) (mask : BitVec 32) (x : MemberState × Nat) : Option Quote :=
  if mask.getLsbD x.2 = false then none else (s.normalized x.1 side).map fun level => ⟨x.1, x.2, level⟩

def quotes (s : AggregationEngine) (side : Side) (mask : BitVec 32) : List Quote :=
  s.members.zipIdx.filterMap (s.quoteOf side mask)

def bestQuotes (s : AggregationEngine) (side : Side) (mask : BitVec 32) : List Quote :=
  leaders (fun q : Quote => q.level.price) (fun price other => side.better price other = true) (s.quotes side mask)

theorem mem_quotes (h : q ∈ s.quotes side mask) :
    s.members[q.slot]? = some q.member ∧ mask.getLsbD q.slot = true ∧ s.normalized q.member side = some q.level := by
  obtain ⟨x, hx, hq⟩ := mem_filterMap.mp h
  unfold quoteOf at hq
  split at hq
  next => cases hq
  next hmk =>
  obtain ⟨level, hlvl, rfl⟩ := Option.map_eq_some_iff.mp hq
  exact ⟨mem_zipIdx_iff_getElem?.mp hx, by simpa using hmk, hlvl⟩

theorem slots_quotes : ((s.quotes side mask).map (·.slot)).Sublist (range s.members.length) := by
  have hsls : (s.quotes side mask).map (·.slot) =
      (s.members.zipIdx.filter fun x => (s.quoteOf side mask x).isSome).map (·.2) := by
    unfold quotes
    induction s.members.zipIdx with
    | nil => rfl
    | cons x xs ih =>
      rw [filterMap_cons, filter_cons]
      cases hx : s.quoteOf side mask x with
      | none => simpa using ih
      | some q =>
        have hq : q.slot = x.2 := by
          unfold quoteOf at hx
          split at hx
          next => cases hx
          obtain ⟨level, -, rfl⟩ := Option.map_eq_some_iff.mp hx
          rfl
        simp only [Option.isSome_some, if_true, map_cons, ih, hq]
  rw [hsls]
  have hsub : ((s.members.zipIdx.filter fun x => (s.quoteOf side mask x).isSome).map (·.2)).Sublist
      (s.members.zipIdx.map (·.2)) := filter_sublist.map _
  rwa [zipIdx_map_snd, ← range_eq_range'] at hsub

theorem bestQuotes_eq (h : s.quotes side mask ≠ []) : ∃ price,
    (s.bestQuotes side mask = (s.quotes side mask).filter fun q => q.level.price = price) ∧
      s.bestQuotes side mask ≠ [] ∧
      ∀ q ∈ s.quotes side mask, ¬side.better q.level.price price = true := by
  cases hbt : best side.Beats
      ((s.quotes side mask).map fun q => q.level.price) with
  | none => exact absurd (map_eq_nil_iff.mp (best_eq_none_iff.mp hbt)) h
  | some price =>
    have hfilt := leaders_eq_filter hbt
    obtain ⟨hmem, hno⟩ := best_spec hbt
    obtain ⟨q, hq, hpx⟩ := mem_map.mp hmem
    refine ⟨price, hfilt, ?_, fun q hq => hno _ (mem_map_of_mem hq)⟩
    intro hnil
    have hin : q ∈ s.bestQuotes side mask := by
      unfold bestQuotes
      rw [hfilt]
      exact mem_filter.mpr ⟨hq, decide_eq_true hpx⟩
    rw [hnil] at hin
    cases hin

theorem bestQuotes_nil (h : s.quotes side mask = []) : s.bestQuotes side mask = [] := by
  unfold bestQuotes
  rw [h]
  rfl

theorem bestQuotes_sublist : (s.bestQuotes side mask).Sublist (s.quotes side mask) := by
  by_cases h : s.quotes side mask = []
  · rw [bestQuotes_nil h]
    exact nil_sublist _
  · obtain ⟨price, hfilt, -, -⟩ := bestQuotes_eq h
    rw [hfilt]
    exact filter_sublist

theorem bestQuotes_price {q₁ q₂ : Quote} (h₁ : q₁ ∈ s.bestQuotes side mask) (h₂ : q₂ ∈ s.bestQuotes side mask) :
    q₁.level.price = q₂.level.price := by
  obtain ⟨price, hfilt, -, -⟩ := bestQuotes_eq (ne_nil_of_mem (bestQuotes_sublist.subset h₁))
  rw [hfilt] at h₁ h₂
  rw [of_decide_eq_true (mem_filter.mp h₁).2, of_decide_eq_true (mem_filter.mp h₂).2]

theorem bestQuotes_first (hq : q ∈ s.bestQuotes side mask) :
    ∃ first rest, s.bestQuotes side mask = first :: rest ∧ first.level.price = q.level.price := by
  obtain ⟨first, rest, hqs⟩ := exists_cons_of_ne_nil (ne_nil_of_mem hq)
  exact ⟨first, rest, hqs, bestQuotes_price (hqs ▸ mem_cons_self) hq⟩

theorem slots_bestQuotes : ((s.bestQuotes side mask).map (·.slot)).Nodup ∧
    ∀ slot ∈ (s.bestQuotes side mask).map (·.slot), slot < s.members.length := by
  have hsub : ((s.bestQuotes side mask).map (·.slot)).Sublist (range s.members.length) :=
    (bestQuotes_sublist.map (·.slot)).trans slots_quotes
  exact ⟨nodup_range.sublist hsub, fun slot hsl => mem_range.mp (hsub.subset hsl)⟩

def addGated (now : Nat) (value : AggBboSide) (q : Quote) : AggBboSide :=
  contribute now value q.member q.slot q.level.quantity

def startGated (now : Nat) (q : Quote) : AggBboSide :=
  addGated now { price := q.level.price, bestVenue := q.slot, timestampVenue := q.slot } q

theorem gatedTurn_eq (found : Option AggBboSide) : s.gatedTurn now side mask found x =
      match s.quoteOf side mask x with
      | none => found
      | some q => join (fun q : Quote => q.level.price) side.Beats
          (startGated now) (addGated now) (·.price) found q := by
  unfold gatedTurn quoteOf
  split
  next => rfl
  cases s.normalized x.1 side with
  | none => rfl
  | some level => cases found <;> rfl

theorem gatedSide_eq : s.gatedSide now side mask =
    (summary (startGated now) (addGated now) (s.bestQuotes side mask)).getD {} := by
  unfold gatedSide bestQuotes
  have hsta : ∀ q, (startGated now q).price = q.level.price := fun _ => rfl
  have hadd : ∀ value q, (addGated now value q).price = value.price := fun _ _ => rfl
  rw [← foldl_join hsta hadd, quotes, foldl_filterMap]
  congr 1
  apply foldl_ext
  intro found x _
  rw [gatedTurn_eq]
  cases s.quoteOf side mask x <;> rfl

def addRaw (value : AggBboRawSide) (q : Quote) : AggBboRawSide :=
  { value with
    quantity := saturatingAdd value.quantity q.level.quantity
    venueMask := value.venueMask ||| .twoPow 32 q.slot }

def startRaw (q : Quote) : AggBboRawSide :=
  { price := q.level.price, quantity := q.level.quantity, bestVenue := q.slot, venueMask := .twoPow 32 q.slot }

theorem rawTurn_eq (found : Option AggBboRawSide) : s.rawTurn side mask found x =
      match s.quoteOf side mask x with
      | none => found
      | some q => join (fun q : Quote => q.level.price) side.Beats
          startRaw addRaw (·.price) found q := by
  unfold rawTurn quoteOf
  split
  next => rfl
  cases s.normalized x.1 side with
  | none => rfl
  | some level => cases found <;> rfl

theorem rawSide_eq : s.rawSide side mask = (summary startRaw addRaw (s.bestQuotes side mask)).getD {} := by
  unfold rawSide bestQuotes
  have hsta : ∀ q, (startRaw q).price = q.level.price := fun _ => rfl
  have hadd : ∀ value q, (addRaw value q).price = value.price := fun _ _ => rfl
  rw [← foldl_join hsta hadd, quotes, foldl_filterMap]
  congr 1
  apply foldl_ext
  intro found x _
  rw [rawTurn_eq]
  cases s.quoteOf side mask x <;> rfl

/-- A side that holds what some quotes of one price bring. -/
structure Collected (qs : List Quote) (value : AggBboSide) : Prop where
  quantity : value.quantity = min (total qs) int64Max
  venueQuantity : ∀ i, value.venueQuantity i = total (qs.filter fun q => q.slot = i.val)
  venueMask : value.venueMask = ofSlots 32 (qs.map (·.slot))
  contributorCount : value.contributorCount = qs.length
  reserved : value.reserved = fun _ => 0
  bestVenue : value.bestVenue ∈ qs.map (·.slot)
  timestampVenue : value.timestampVenue ∈ qs.map (·.slot)
  stamped : value.exchangeTsNs = 0 ∨
    ∃ q ∈ qs, q.slot = value.timestampVenue ∧ value.exchangeTsNs = q.member.bbo.header.exchangeTsNs

theorem collected_start (hq : 0 ≤ q.level.quantity) : Collected [q] (startGated now q) := by
  have hadd : saturatingAdd 0 q.level.quantity = min q.level.quantity int64Max := by
    rw [saturatingAdd_eq_min (by decide) hq, zero_add]
  refine ⟨by rw [total_singleton]; exact hadd, fun i => ?_, ?_, rfl, rfl, mem_singleton_self _, ?_, ?_⟩
  · show (if i.val = q.slot then q.level.quantity else 0) = _
    by_cases hi : q.slot = i.val
    · rw [if_pos hi.symm, filter_singleton, decide_eq_true hi]
      exact (total_singleton q).symm
    · rw [if_neg (Ne.symm hi), filter_singleton, decide_eq_false hi]
      rfl
  · rfl
  · show (if _ then q.slot else q.slot) ∈ [q.slot]
    rw [ite_self]
    exact mem_singleton_self _
  · by_cases hts : q.member.bbo.header.exchangeTsNs = 0
    · exact .inl (if_neg fun h => h.1 hts)
    · refine .inr ⟨q, mem_singleton_self _, ?_, if_pos ⟨hts, .inl rfl⟩⟩
      exact (ite_self _).symm

theorem Collected.add {value : AggBboSide} (h : Collected qs value) (hq : 0 ≤ q.level.quantity)
    (hnew : q.slot ∉ qs.map (·.slot)) : Collected (qs ++ [q]) (addGated now value q) := by
  have hadd : saturatingAdd value.quantity q.level.quantity = min (total (qs ++ [q])) int64Max := by
    rw [saturatingAdd_eq_min (by rw [h.quantity]; omega) hq, h.quantity, total_append, total_singleton]
    omega
  refine ⟨hadd, fun i => ?_, ?_, ?_, h.reserved, ?_, ?_, ?_⟩
  · show (if i.val = q.slot then q.level.quantity else value.venueQuantity i) = _
    rw [filter_append, total_append, filter_singleton, h.venueQuantity]
    by_cases hi : q.slot = i.val
    · have hno : (qs.filter fun q => q.slot = i.val) = [] := by
        apply filter_eq_nil_iff.mpr
        intro other hoth hsl
        exact hnew (hi ▸ of_decide_eq_true hsl ▸ mem_map_of_mem hoth)
      rw [if_pos hi.symm, decide_eq_true hi, hno]
      show _ = total [] + total [q]
      rw [total_singleton]
      exact (zero_add _).symm
    · rw [if_neg (Ne.symm hi), decide_eq_false hi]
      exact (add_zero _).symm
  · show value.venueMask ||| .twoPow 32 q.slot = _
    rw [h.venueMask, map_append, map_singleton, ofSlots_concat]
  · show value.contributorCount + 1 = _
    rw [h.contributorCount, length_append, length_singleton]
  · rw [map_append]
    exact mem_append_left _ h.bestVenue
  · show (if _ then q.slot else value.timestampVenue) ∈ _
    rw [map_append]
    split
    next => exact mem_append_right _ (mem_singleton_self _)
    next => exact mem_append_left _ h.timestampVenue
  · unfold addGated contribute
    dsimp only
    by_cases holder : q.member.bbo.header.exchangeTsNs ≠ 0 ∧
        (value.exchangeTsNs = 0 ∨ q.member.bbo.header.exchangeTsNs < value.exchangeTsNs)
    · rw [if_pos holder, if_pos holder]
      exact .inr ⟨q, mem_append_right _ (mem_singleton_self _), rfl, rfl⟩
    · rw [if_neg holder, if_neg holder]
      rcases h.stamped with hze | ⟨other, hoth, hsl, hts⟩
      · exact .inl hze
      · exact .inr ⟨other, mem_append_left _ hoth, hsl, hts⟩

theorem collected_foldl (hqs : ∀ other ∈ q :: rest, 0 ≤ other.level.quantity)
    (hnd : ((q :: rest).map (·.slot)).Nodup) :
    Collected (q :: rest) (rest.foldl (addGated now) (startGated now q)) := by
  induction rest using reverseRecOn with
  | nil => exact collected_start (hqs q mem_cons_self)
  | append_singleton rest last ih =>
    have hsub : ∀ other ∈ q :: rest, 0 ≤ other.level.quantity := fun other hoth =>
      hqs other (by rw [← cons_append]; exact mem_append_left _ hoth)
    rw [← cons_append, map_append] at hnd
    rw [foldl_append]
    refine (ih hsub (nodup_append.mp hnd).1).add (hqs last (by simp)) ?_
    exact fun hin => (nodup_append.mp hnd).2.2 _ hin _ (mem_singleton_self _) rfl

theorem gatedSide_collected (hqs : ∀ q ∈ s.bestQuotes side mask, 0 ≤ q.level.quantity)
    (hne : s.bestQuotes side mask ≠ []) : Collected (s.bestQuotes side mask) (s.gatedSide now side mask) := by
  have hnd : ((s.bestQuotes side mask).map (·.slot)).Nodup := slots_bestQuotes.1
  rw [gatedSide_eq]
  revert hqs hne hnd
  cases s.bestQuotes side mask with
  | nil => exact fun _ hne => absurd rfl hne
  | cons q rest => exact fun hqs _ hnd => collected_foldl hqs hnd

theorem gatedSide_empty (h : s.bestQuotes side mask = []) : s.gatedSide now side mask = {} := by
  rw [gatedSide_eq, h]
  rfl

theorem gatedSide_price (hq : q ∈ s.bestQuotes side mask) : (s.gatedSide now side mask).price = q.level.price := by
  obtain ⟨first, rest, hqs, hpx⟩ := bestQuotes_first hq
  rw [gatedSide_eq, hqs, ← hpx]
  have hadd : ∀ value q, (addGated now value q).price = value.price := fun _ _ => rfl
  exact keyOf_foldl hadd rest

structure Gathered (qs : List Quote) (value : AggBboRawSide) : Prop where
  quantity : 0 ≤ value.quantity
  venueMask : value.venueMask = ofSlots 32 (qs.map (·.slot))
  reserved : value.reserved = fun _ => 0
  bestVenue : value.bestVenue ∈ qs.map (·.slot)

theorem Gathered.add {value : AggBboRawSide} (h : Gathered qs value) (hq : 0 ≤ q.level.quantity) :
    Gathered (qs ++ [q]) (addRaw value q) := by
  refine ⟨saturatingAdd_nonneg h.quantity hq, ?_, h.reserved, ?_⟩
  · show value.venueMask ||| .twoPow 32 q.slot = _
    rw [h.venueMask, map_append, map_singleton, ofSlots_concat]
  · rw [map_append]
    exact mem_append_left _ h.bestVenue

theorem gathered_foldl (hqs : ∀ other ∈ q :: rest, 0 ≤ other.level.quantity) :
    Gathered (q :: rest) (rest.foldl addRaw (startRaw q)) := by
  induction rest using reverseRecOn with
  | nil =>
    refine ⟨hqs q mem_cons_self, ?_, rfl, mem_singleton_self _⟩
    exact BitVec.zero_or.symm
  | append_singleton rest last ih =>
    rw [foldl_append]
    refine (ih fun other hoth => hqs other ?_).add (hqs last (by simp))
    exact mem_append_left _ hoth

theorem rawSide_gathered (hqs : ∀ q ∈ s.bestQuotes side mask, 0 ≤ q.level.quantity)
    (hne : s.bestQuotes side mask ≠ []) : Gathered (s.bestQuotes side mask) (s.rawSide side mask) := by
  rw [rawSide_eq]
  revert hqs hne
  cases s.bestQuotes side mask with
  | nil => exact fun _ hne => absurd rfl hne
  | cons q rest => exact fun hqs _ => gathered_foldl hqs

theorem rawSide_price (hq : q ∈ s.bestQuotes side mask) : (s.rawSide side mask).price = q.level.price := by
  obtain ⟨first, rest, hqs, hpx⟩ := bestQuotes_first hq
  rw [rawSide_eq, hqs, ← hpx]
  have hadd : ∀ value q, (addRaw value q).price = value.price := fun _ _ => rfl
  exact keyOf_foldl hadd rest

end AggregationEngine

end SelfQuant.Mds.Agg
