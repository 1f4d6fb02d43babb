import SelfQuant.OmsTableQueue

namespace SelfQuant.Oms

open List Function Probe OrderRecord

namespace OrderTable

variable {H : OrderHashes} {t t' t'' : OrderTable} {slot s n : Nat} {handle : OrderHandle}
  {slots slots' slots'' : List Nat} {r : OrderRecord} {sub : SubmitOrderRequest}

theorem countP_range_change {p q : Nat → Bool} (hs : s < n) (hp : p s = true) (hq : q s = false)
    (h : ∀ i, i ≠ s → q i = p i) : (range n).countP p = (range n).countP q + 1 := by
  induction n with
  | zero => omega
  | succ n ih =>
    rw [range_succ, countP_append, countP_append]
    by_cases he : s = n
    · subst he
      have hsm : (range s).countP p = (range s).countP q := by
        refine countP_congr fun i hi => ?_
        rw [h i (ne_of_lt (mem_range.mp hi))]
      simp [hsm, hp, hq]
    · have hn := h n (symm he)
      simp only [countP_singleton, hn]
      omega

structure Cleared (t : OrderTable) (slot : Nat) (t' : OrderTable) : Prop where
  self : (t'.record slot).occupied = false ∧ (t'.record slot).inTerminal = false
  other : ∀ s, s ≠ slot → t'.record s = (t.unlinkTerminal slot).record s
  head : t'.terminalHead = (t.unlinkTerminal slot).terminalHead
  tail : t'.terminalTail = (t.unlinkTerminal slot).terminalTail
  size : t'.size = t.size - 1

theorem erase_cleared (h : t.lookup handle = some slot) : Cleared t slot (t.erase H handle).2 := by
  obtain ⟨_, _, hb, _⟩ := lookup_eq_some h
  have hu := unlinkTerminal_relinked t slot
  have hb' : slot < (t.unlinkTerminal slot).records.length := by rw [hu.length]; exact hb
  unfold erase
  rw [h]
  refine ⟨?_, fun s hs => ?_, rfl, rfl, congrArg (· - 1) hu.size⟩
  · have hsf := record_setRecord_self (t := { t.unlinkTerminal slot with
      byToken := _, byClient := _, byVenue := _ }) hb'
    exact ⟨congrArg occupied (hsf _), congrArg inTerminal (hsf _)⟩
  · exact record_setRecord_ne (t := { t.unlinkTerminal slot with
      byToken := _, byClient := _, byVenue := _ }) (symm hs)

/-- Some orders left the table; the finished ones among the others keep their turn. -/
structure Thinned (H : OrderHashes) (t : OrderTable) (slots : List Nat) (t' : OrderTable)
    (slots' : List Nat) : Prop where
  queued : Queued H t' slots'
  length : t'.records.length = t.records.length
  generation : ∀ s, (t'.record s).generation = (t.record s).generation
  fewer : ∀ s, (t'.record s).occupied → (t.record s).occupied
  kept : slots' = slots.filter fun s => (t'.record s).occupied

theorem Thinned.trans (h : Thinned H t slots t' slots') (h' : Thinned H t' slots' t'' slots'') :
    Thinned H t slots t'' slots'' := by
  refine ⟨h'.queued, h'.length.trans h.length, fun s => (h'.generation s).trans (h.generation s),
    fun s hs => h.fewer s (h'.fewer s hs), ?_⟩
  rw [h'.kept, h.kept, filter_filter]
  refine filter_congr fun s _ => ?_
  by_cases hs : (t''.record s).occupied
  · simp [hs, h'.fewer s hs]
  · simp [hs]

theorem Thinned.turned (h : Thinned H t slots t' slots') : Turned H t slots t' slots' := by
  refine ⟨h.queued, h.length, [], ?_, Nat.zero_le 1, by simp⟩
  rw [h.kept]
  simp [Stays, h.generation]

theorem TerminalList.unlinkTerminal (h : TerminalList t slots) (hb : slot < t.records.length) :
    TerminalList (t.unlinkTerminal slot) (slots.erase slot) := by
  by_cases hs : slot ∈ slots
  · obtain ⟨pre, post, rfl⟩ := append_of_mem hs
    have hpre : slot ∉ pre := fun hm => (nodup_append.mp h.nodup).2.2 _ hm _ (by simp) rfl
    rw [erase_append_right _ hpre, erase_cons_head]
    exact h.unlinked (unlinkTerminal_unlinked h)
  · have hin : (t.record slot).inTerminal = false := by
      by_contra hin
      exact hs ((h.mem slot).mpr ⟨hb, by simpa using hin⟩)
    rw [erase_of_not_mem hs]
    unfold OrderTable.unlinkTerminal
    simpa [hin] using h

theorem Cleared.occupied (hc : Cleared t slot t') :
    (t'.record s).occupied = if s = slot then false else (t.record s).occupied := by
  split
  next hs => rw [hs]; exact hc.self.1
  next hs =>
  rw [hc.other s hs]
  exact (unlinkTerminal_relinked t slot).occupied

theorem Cleared.status (hc : Cleared t slot t') (hs : s ≠ slot) : (t'.record s).status = (t.record s).status := by
  rw [hc.other s hs]
  simpa only [OrderRecord.core] using congrArg OrderRecord.status ((unlinkTerminal_relinked t slot).core s)

structure Placed (t : OrderTable) (slot : Nat) (r : OrderRecord) (t' : OrderTable) : Prop where
  record : ∀ s, t'.record s = if s = slot then r else t.record s
  length : t'.records.length = t.records.length
  head : t'.terminalHead = t.terminalHead
  tail : t'.terminalTail = t.terminalTail
  size : t'.size = t.size + 1

theorem occupy_placed {rest : List Nat} (hb : slot < t.records.length)
    (hfe : t.freeSlots = slot :: rest) (h : t.occupy H sub = (.ok, handle, t')) :
    Placed t slot (freshRecord sub (nextGeneration (t.record slot).generation)) t' := by
  unfold occupy at h
  rw [hfe] at h
  dsimp only at h
  split at h
  next => cases h
  cases h
  refine ⟨fun s => ?_, setRecord_length { t with freeSlots := rest } _ _, rfl, rfl, rfl⟩
  exact record_setRecord (t := { t with freeSlots := rest }) hb _ s

structure Fresh (H : OrderHashes) (t : OrderTable) (submitted : SubmitOrderRequest) : Prop where
  sequence : submitted.order.token.sequence ≠ 0
  clientId : validId submitted.order.clientOrderId
  token : ProbeMap.lookup H.token t.byToken submitted.order.token = none
  client : ProbeMap.lookup H.client t.byClient submitted.order.clientOrderId = none

theorem Valid.unused_of_free (hv : Valid H t) (hs : s ∈ t.freeSlots) : (t.record s).occupied = false := by
  obtain ⟨hb, hno⟩ := (hv.freeIff s).mp hs
  by_contra hocc
  rw [order_of_occupied hb (by simpa using hocc)] at hno
  cases hno

/-- What became of a submission with fresh identifiers: it was put into a free slot, or into the slot
of the oldest finished order, or there was neither. -/
def Placement (H : OrderHashes) (t : OrderTable) (slots : List Nat) (submitted : SubmitOrderRequest)
    (result : Error × OrderHandle × OrderTable) : Prop :=
  (t.freeSlots = [] ∧ slots = [] ∧ result = (.capacityExceeded, {}, t)) ∨
    ∃ slot t' slots', result = (.ok, ⟨slot, 0, nextGeneration (t.record slot).generation⟩, t') ∧
      Turned H t slots t' slots' ∧
      t'.order = update t.order slot (some (freshRecord submitted (nextGeneration (t.record slot).generation))) ∧
      ((slot ∈ t.freeSlots ∧ slots' = slots) ∨ (t.freeSlots = [] ∧ slots = slot :: slots'))

section

variable (hq : Queued H t slots)

include hq

theorem Thinned.refl : Thinned H t slots t slots := by
  refine ⟨hq, rfl, fun _ => rfl, fun _ hs => hs, ?_⟩
  exact (filter_eq_self.mpr fun s hs => (hq.list.finished s hs).1).symm

theorem Queued.not_mem_erase : slot ∉ slots.erase slot := fun hs => (hq.list.nodup.mem_erase_iff.mp hs).1 rfl

theorem Queued.list_erased (hb : slot < t.records.length) (hc : Cleared t slot t')
    (hlen : t'.records.length = t.records.length) : TerminalList t' (slots.erase slot) := by
  have hu := unlinkTerminal_relinked t slot
  have hli := hq.list.unlinkTerminal hb
  have hrec : ∀ s ∈ slots.erase slot, t'.record s = (t.unlinkTerminal slot).record s := by
    intro s hs
    refine hc.other s ?_
    rintro rfl
    exact hq.not_mem_erase hs
  refine hli.congr (hlen.trans hu.length.symm) (fun s => ?_) (fun s hs => ?_) (fun s hs => ?_)
    (fun s hs => ?_) (fun s hs => ?_) hc.head hc.tail
  · by_cases hs : s = slot
    · subst hs
      rw [hc.self.2]
      by_contra hin
      refine hq.not_mem_erase ((hli.mem s).mpr ⟨?_, by simpa using Ne.symm hin⟩)
      rw [hu.length]
      exact hb
    · rw [hc.other s hs]
  · rw [hrec s hs]
  · rw [hrec s hs]
  · rw [hrec s hs]
  · rw [hrec s hs]
    exact hli.finished s hs

theorem Queued.erased (hl : t.lookup handle = some slot) :
    Thinned H t slots (t.erase H handle).2 (slots.erase slot) := by
  obtain ⟨_, _, hb, hocc⟩ := lookup_eq_some hl
  have hc := erase_cleared (H := H) hl
  obtain ⟨t', he, her⟩ := erase_spec (H := H) hl
  rw [he] at hc ⊢
  refine ⟨⟨hq.valid.erased hb hocc her, hq.list_erased hb hc her.length, fun s hs hso hst => ?_, ?_,
    fun {s r} hr => ?_⟩, her.length, her.generation, fun s hs => ?_, ?_⟩
  · rw [hc.occupied] at hso
    split at hso
    next => cases hso
    next hne =>
    rw [hc.status hne] at hst
    rw [her.length] at hs
    exact (mem_erase_of_ne hne).mpr (hq.complete s hs hso hst)
  · have hcnt : t.occupiedCount = t'.occupiedCount + 1 := by
      unfold occupiedCount
      rw [her.length]
      refine countP_range_change hb hocc hc.self.1 fun i hi => ?_
      rw [hc.occupied, if_neg hi]
    rw [hc.size, hq.size, hcnt, Nat.add_sub_cancel]
  · rw [her.order] at hr
    exact hq.ids (of_update_none hr).2
  · rw [hc.occupied] at hs
    split at hs
    next => cases hs
    next => exact hs
  · rw [hq.list.nodup.erase_eq_filter]
    refine filter_congr fun s hs => ?_
    rw [hc.occupied, (hq.list.finished s hs).1]
    by_cases he : s = slot <;> simp [he]

theorem Thinned.erase (hl : t.lookup handle = some slot) :
    ∃ t', t.erase H handle = (.ok, t') ∧ Thinned H t slots t' (slots.erase slot) := by
  obtain ⟨t', he, _⟩ := erase_spec (H := H) hl
  have h := hq.erased hl
  rw [he] at h
  exact ⟨t', he, h⟩

theorem Queued.remember (token : RequestToken) : Thinned H t slots (t.rememberRetiredToken token) slots := by
  have hv := hq.valid.remember token
  have ho := rememberRetiredToken_order t token
  have hrec : ∀ s, (t.rememberRetiredToken token).record s = t.record s := by
    intro s
    unfold rememberRetiredToken
    split <;> rfl
  have hends : (t.rememberRetiredToken token).terminalHead = t.terminalHead ∧
      (t.rememberRetiredToken token).terminalTail = t.terminalTail ∧
      (t.rememberRetiredToken token).size = t.size := by
    unfold rememberRetiredToken
    split <;> exact ⟨rfl, rfl, rfl⟩
  have hlen : (t.rememberRetiredToken token).records.length = t.records.length := by
    rw [rememberRetiredToken_fields.1]
  have hsm : SameSlots t (t.rememberRetiredToken token) := ⟨hlen, fun s => by rw [hrec], fun s => by rw [hrec]⟩
  refine ⟨⟨hv, ?_, fun s hs => ?_, ?_, fun hr => hq.ids (ho ▸ hr)⟩, hlen, hsm.generation,
    fun s hs => by rwa [← hsm.occupied], ?_⟩
  · refine hq.list.congr hlen (fun s => by rw [hrec]) (fun s _ => by rw [hrec])
      (fun s _ => by rw [hrec]) (fun s _ => by rw [hrec]) (fun s hs => ?_) hends.1 hends.2.1
    rw [hrec]
    exact hq.list.finished s hs
  · rw [hrec]
    exact hq.complete s (hlen ▸ hs)
  · rw [hends.2.2, hq.size, hsm.occupiedCount]
  · exact (filter_eq_self.mpr fun s hs => by
      rw [hrec]
      exact (hq.list.finished s hs).1).symm

theorem Queued.placed (hv : Valid H t') (hb : slot < t.records.length)
    (hfe : (t.record slot).occupied = false) (hp : Placed t slot r t') (ho : t'.order slot = some r)
    (hoth : ∀ s, s ≠ slot → t'.order s = t.order s) (hocc : r.occupied) (hin : r.inTerminal = false)
    (hop : isTerminal r.status = false) (hids : ValidIds r) : Queued H t' slots := by
  have hne : ∀ s ∈ slots, s ≠ slot := by
    rintro s hs rfl
    rw [(hq.list.finished s hs).1] at hfe
    cases hfe
  have hrec : ∀ s ∈ slots, t'.record s = t.record s := fun s hs => by rw [hp.record, if_neg (hne s hs)]
  refine ⟨hv, ?_, fun s hs hso hst => ?_, ?_, fun {s x} hx => ?_⟩
  · refine hq.list.congr hp.length (fun s => ?_) (fun s hs => by rw [hrec s hs])
      (fun s hs => by rw [hrec s hs]) (fun s hs => by rw [hrec s hs]) (fun s hs => ?_) hp.head hp.tail
    · rw [hp.record]
      split
      next he =>
        rw [hin, he]
        by_contra hin'
        exact hne slot ((hq.list.mem slot).mpr ⟨hb, by simpa using Ne.symm hin'⟩) rfl
      next => rfl
    · rw [hrec s hs]
      exact hq.list.finished s hs
  · rw [hp.record] at hso hst
    split at hst
    next => rw [hop] at hst; cases hst
    next he =>
    rw [if_neg he] at hso
    exact hq.complete s (hp.length ▸ hs) hso hst
  · rw [hp.size, hq.size]
    unfold occupiedCount
    rw [hp.length]
    refine (countP_range_change hb ?_ hfe fun i hi => ?_).symm
    · rw [hp.record, if_pos rfl]
      exact hocc
    · rw [hp.record, if_neg hi]
  · by_cases hs : s = slot
    · rw [hs, ho] at hx
      cases hx
      exact hids
    · rw [hoth s hs] at hx
      exact hq.ids hx

theorem Queued.occupy (hf : Fresh H t sub) {rest : List Nat}
    (hfe : t.freeSlots = slot :: rest) : ∃ t', t.occupy H sub =
        (.ok, ⟨slot, 0, nextGeneration (t.record slot).generation⟩, t') ∧ Queued H t' slots ∧
      Placed t slot (freshRecord sub (nextGeneration (t.record slot).generation)) t' ∧
      t'.order = update t.order slot (some (freshRecord sub (nextGeneration (t.record slot).generation))) := by
  have hb := ((hq.valid.freeIff slot).mp (by simp [hfe])).1
  obtain ⟨t', he, hv, _, ho⟩ := occupy_spec hq.valid hfe hf.token hf.client hf.sequence
  have hp := occupy_placed hb hfe he
  refine ⟨t', he, hq.placed hv hb (hq.valid.unused_of_free (by simp [hfe])) hp ?_ (fun s hs => ?_) rfl rfl rfl ?_, hp, ho⟩
  · rw [ho, update_self]
  · rw [ho, update_of_ne hs]
  · exact ⟨hf.clientId, fun h => absurd rfl h⟩

theorem Queued.reclaim (hid : ∀ s ∈ slots, (t.record s).inflight = .none) :
    (slots = [] ∧ t.reclaimOldestTerminal H = (.capacityExceeded, t)) ∨
      ∃ slot rest t', slots = slot :: rest ∧ t.reclaimOldestTerminal H = (.ok, t') ∧
        Erased H t slot t' ∧ Thinned H t slots t' rest := by
  unfold reclaimOldestTerminal
  have hhe := hq.list.head
  cases slots with
  | nil => exact .inl ⟨rfl, by rw [hhe]; simp⟩
  | cons slot rest =>
    right
    have hmem : slot ∈ slot :: rest := mem_cons_self
    obtain ⟨hb, hin⟩ := (hq.list.mem slot).mp hmem
    obtain ⟨hocc, htm⟩ := hq.list.finished slot hmem
    have hne : slot ≠ kMissing := ne_of_lt (lt_of_lt_of_le hb hq.list.fits)
    have hl := hq.valid.lookup_of_order (order_of_occupied hb hocc)
    obtain ⟨t', he, her⟩ := erase_spec (H := H) hl
    have hthin := hq.erased hl
    rw [he, erase_cons_head] at hthin
    refine ⟨slot, rest, t', rfl, ?_, her, hthin⟩
    rw [show t.terminalHead = ⟨slot, (t.record slot).generation⟩ from hhe]
    rw [if_neg (by simpa [hne] using hb)]
    rw [if_neg (by simp [hocc, hin, htm, hid slot hmem])]
    exact he

end

theorem Queued.eraseSlots (inst : InstrumentId) (erased : List Nat) (hq : Queued H t slots)
    (hb : ∀ s ∈ erased, s < t.records.length) :
    ∃ slots', Thinned H t slots (t.eraseSlots H inst erased).2 slots' := by
  induction erased generalizing t slots with
  | nil => exact ⟨slots, .refl hq⟩
  | cons slot erased ih =>
    have hb' : ∀ s ∈ erased, s < t.records.length := (forall_mem_cons.mp hb).2
    unfold OrderTable.eraseSlots
    split
    next hhd =>
      have hocc : (t.record slot).occupied := by
        simp only [heldBy, Bool.and_eq_true] at hhd
        exact hhd.1
      have ho : (t.rememberRetiredToken (t.record slot).request.token).order slot = some (t.record slot).core := by
        rw [rememberRetiredToken_order]
        exact order_of_occupied (hb slot mem_cons_self) hocc
      have hr := hq.remember (t.record slot).request.token
      obtain ⟨t₁, he, h₁⟩ := Thinned.erase hr.queued (hr.queued.valid.lookup_of_order ho)
      dsimp only [core] at he ⊢
      rw [he]
      obtain ⟨slots', h'⟩ := ih h₁.queued fun s hs => by
        rw [h₁.length, hr.length]
        exact hb' s hs
      exact ⟨slots', (hr.trans h₁).trans h'⟩
    next => exact ih hq hb'

theorem Queued.eraseTerminalByInstrument (hq : Queued H t slots) (inst : InstrumentId) :
    ∃ slots', Thinned H t slots (t.eraseTerminalByInstrument H inst).2 slots' := by
  unfold OrderTable.eraseTerminalByInstrument
  split
  next => exact ⟨slots, .refl hq⟩
  split
  next => exact ⟨slots, .refl hq⟩
  next => exact hq.eraseSlots inst _ (by simp)

theorem Thinned.placed {t₁ : OrderTable} (h : Thinned H t slots t₁ slots')
    (hfe : (t₁.record slot).occupied = false) (hp : Placed t₁ slot r t') (hq : Queued H t' slots')
    (hgen : r.generation ≠ (t.record slot).generation) : Turned H t slots t' slots' := by
  refine ⟨hq, hp.length.trans h.length, [], ?_, Nat.zero_le 1, by simp⟩
  rw [h.kept, append_nil]
  refine filter_congr fun s _ => Bool.eq_iff_iff.mpr ?_
  rw [decide_eq_true_iff, Stays, hp.record]
  split
  next hs => simp [hs, hfe, hgen]
  next => simp [h.generation]

theorem Queued.insert_fresh (hq : Queued H t slots) (hid : ∀ s ∈ slots, (t.record s).inflight = .none)
    (hf : Fresh H t sub) (hpos : 0 < sub.order.quantity.value) :
    Placement H t slots sub (t.insert H sub) := by
  have harg : ¬(sub.order.token.sequence = 0 ∨ !validId sub.order.clientOrderId ∨ sub.order.quantity.value ≤ 0) := by
    simp [hf.sequence, hf.clientId, hpos]
  have hks : ¬((ProbeMap.lookup H.token t.byToken sub.order.token).isSome ∨
      (ProbeMap.lookup H.client t.byClient sub.order.clientOrderId).isSome) := by
    simp [hf.token, hf.client]
  unfold insert
  rw [if_neg harg, if_neg hks]
  split
  next hfu =>
    rcases hq.reclaim hid with ⟨hnil, he⟩ | ⟨slot, rest, t₁, hsls, he, her, hthin⟩
    · rw [he]
      exact .inl ⟨hfu, hnil, rfl⟩
    · rw [he]
      have hf₁ : Fresh H t₁ sub := by
        refine ⟨hf.sequence, hf.clientId, ?_, ?_⟩
        · rw [her.byToken, hq.valid.token.sound.lookup_remove, hf.token, ite_self]
        · rw [her.byClient, hq.valid.client.sound.lookup_remove, hf.client, ite_self]
      obtain ⟨t', ho, hq', hp, hord⟩ := hthin.queued.occupy hf₁ her.freeSlots
      rw [hthin.generation] at ho hp hord
      refine .inr ⟨slot, t', rest, ho, hthin.placed ?_ hp hq' (nextGeneration_ne_self _), ?_, .inr ⟨hfu, hsls⟩⟩
      · exact hthin.queued.valid.unused_of_free (by simp [her.freeSlots])
      · rw [hord, her.order, update_idem]
  next hrm =>
    obtain ⟨slot, rest, hfe⟩ := exists_cons_of_ne_nil hrm
    obtain ⟨t', ho, hq', hp, hord⟩ := hq.occupy hf hfe
    have hmem : slot ∈ t.freeSlots := by simp [hfe]
    exact .inr ⟨slot, t', slots, ho, (Thinned.refl hq).placed (hq.valid.unused_of_free hmem) hp hq'
      (nextGeneration_ne_self _), hord, .inl ⟨hmem, rfl⟩⟩

theorem Queued.insert (hq : Queued H t slots) (hid : ∀ s ∈ slots, (t.record s).inflight = .none)
    (sub : SubmitOrderRequest) : ∃ slots', Turned H t slots (t.insert H sub).2.2 slots' := by
  by_cases harg : sub.order.token.sequence = 0 ∨ !validId sub.order.clientOrderId ∨ sub.order.quantity.value ≤ 0
  · rw [OrderTable.insert, if_pos harg]
    exact ⟨slots, .refl hq⟩
  by_cases hks : (ProbeMap.lookup H.token t.byToken sub.order.token).isSome ∨
      (ProbeMap.lookup H.client t.byClient sub.order.clientOrderId).isSome
  · rw [OrderTable.insert, if_neg harg, if_pos hks]
    exact ⟨slots, .refl hq⟩
  simp only [not_or, Bool.not_eq_true', Bool.not_eq_false, Int.not_le] at harg
  simp only [not_or, Bool.not_eq_true, Option.isSome_eq_false_iff, Option.isNone_iff_eq_none] at hks
  rcases hq.insert_fresh hid ⟨harg.1, harg.2.1, hks.1, hks.2⟩ harg.2.2 with ⟨_, _, he⟩ | ⟨_, _, slots', he, htn, _⟩
  · rw [he]
    exact ⟨slots, .refl hq⟩
  · rw [he]
    exact ⟨slots', htn⟩

end OrderTable

end SelfQuant.Oms
