import SelfQuant.OmsTerminalList

namespace SelfQuant.Oms

open List Probe Function

def heldOrder (o : OrderMap) (instrumentId : InstrumentId) (slot : Nat) : Option OrderRecord :=
  (o slot).filter fun r => r.request.instrumentId = instrumentId

variable {inst : InstrumentId} {o : OrderMap}

theorem heldOrder_eq_some {slot : Nat}
    {r : OrderRecord} : heldOrder o inst slot = some r ↔ o slot = some r ∧ r.request.instrumentId = inst := by
  simp [heldOrder, Option.filter_eq_some_iff]

theorem heldOrder_update_ne {slot slot' : Nat}
    (h : slot' ≠ slot) (x : Option OrderRecord) :
    heldOrder (update o slot x) inst slot' = heldOrder o inst slot' := by
  simp [heldOrder, h]

def heldTokens (o : OrderMap) (instrumentId : InstrumentId) (slots : List Nat) : List RequestToken :=
  slots.filterMap fun slot => (heldOrder o instrumentId slot).map fun r => r.request.token

def withoutHeld (o : OrderMap) (instrumentId : InstrumentId) (slots : List Nat) : OrderMap :=
  fun slot => if slot ∈ slots ∧ (heldOrder o instrumentId slot).isSome then none else o slot

variable {o : OrderMap} {inst : InstrumentId} {slot : Nat} {slots : List Nat} {x : Option OrderRecord}
  {token : RequestToken}

theorem withoutHeld_cons_none (h : heldOrder o inst slot = none) :
    withoutHeld o inst (slot :: slots) = withoutHeld o inst slots := by
  funext s
  by_cases hs : s = slot
  · subst hs
    simp [withoutHeld, h]
  · simp [withoutHeld, hs]

theorem withoutHeld_cons_some (h : (heldOrder o inst slot).isSome) :
    withoutHeld o inst (slot :: slots) = withoutHeld (update o slot none) inst slots := by
  funext s
  by_cases hs : s = slot
  · subst hs
    simp [withoutHeld, h]
  · simp [withoutHeld, hs, heldOrder_update_ne hs]

theorem heldTokens_update (h : slot ∉ slots) : heldTokens (update o slot x) inst slots = heldTokens o inst slots := by
  refine filterMap_congr fun s hs => ?_
  have hne : s ≠ slot := by rintro rfl; exact h hs
  rw [heldOrder_update_ne hne]

namespace OrderTable

variable {H : OrderHashes} {t t' : OrderTable} {slot : Nat}
  {r : OrderRecord} {inst : InstrumentId} {history : List RequestToken}

def Remembers (t : OrderTable) (history : List RequestToken) : Prop :=
  Recalls retiredTokenCapacity (2 ^ 32) t.retiredTokens t.retiredTokenCount t.retiredTokenNext history

theorem Framed.remembers (h : Framed t t') (hm : t.Remembers history) : t'.Remembers history := by
  unfold Remembers
  rw [h.retiredTokens, h.retiredTokenCount, h.retiredTokenNext]
  exact hm

theorem create_remembers {n : Nat} (h : create n = some t) : t.Remembers [] := by
  obtain ⟨c, _, rfl⟩ := Option.map_eq_some_iff.mp h
  exact ⟨by simp, by simp, by simp, by simp⟩

theorem Remembers.wasRetiredToken (hm : t.Remembers history) (token : RequestToken) :
    t.wasRetiredToken token ↔ token.sequence ≠ 0 ∧ token ∈ history.drop (history.length - retiredTokenCapacity) := by
  rw [OrderTable.wasRetiredToken, Bool.and_eq_true, decide_eq_true_eq, decide_eq_true_eq]
  exact and_congr_right fun _ => hm.mem_take_iff

theorem Remembers.remember (hm : t.Remembers history) {token : RequestToken}
    (h : token.sequence ≠ 0) : (t.rememberRetiredToken token).Remembers (history ++ [token]) := by
  rw [rememberRetiredToken, if_neg h]
  exact Recalls.push hm (by decide) (by decide)

theorem rememberRetiredToken_fields : (t.rememberRetiredToken token).records = t.records ∧
      (t.rememberRetiredToken token).freeSlots = t.freeSlots ∧
      (t.rememberRetiredToken token).byToken = t.byToken ∧
      (t.rememberRetiredToken token).byClient = t.byClient ∧
      (t.rememberRetiredToken token).byVenue = t.byVenue := by
  unfold rememberRetiredToken
  split <;> exact ⟨rfl, rfl, rfl, rfl, rfl⟩

theorem rememberRetiredToken_order (t : OrderTable) (token : RequestToken) :
    (t.rememberRetiredToken token).order = t.order := by
  unfold rememberRetiredToken
  split <;> rfl

theorem Valid.remember (hv : Valid H t) (token : RequestToken) : Valid H (t.rememberRetiredToken token) := by
  obtain ⟨hr, hf, htok, hcl, hve⟩ := rememberRetiredToken_fields
  have ho := rememberRetiredToken_order t token
  constructor
  · rw [hf]; exact hv.freeNodup
  · intro s; rw [hf, hr, ho]; exact hv.freeIff s
  · rw [ho]; exact hv.generationPos
  · rw [ho]; exact hv.tokenPos
  · rw [ho, htok]; exact hv.token
  · rw [ho, hcl]; exact hv.client
  · rw [ho, hve]; exact hv.venue
  · rw [hr, htok, hcl, hve]; exact hv.room

theorem heldBy_iff (hb : slot < t.records.length) (inst : InstrumentId) :
    t.heldBy inst slot ↔ (heldOrder t.order inst slot).isSome := by
  unfold heldBy heldOrder
  by_cases ho : (t.record slot).occupied
  · simp [order_of_occupied hb ho, ho, OrderRecord.core]
  · simp [order, ho]

theorem retire_one (hv : Valid H t) (ho : heldOrder t.order inst slot = some r) :
    ∃ t', (t.rememberRetiredToken (t.record slot).request.token).erase H
        ⟨slot, 0, (t.record slot).generation⟩ = (.ok, t') ∧ Valid H t' ∧
      t'.records.length = t.records.length ∧ t'.order = update t.order slot none ∧
      ∀ history, t.Remembers history → t'.Remembers (history ++ [r.request.token]) := by
  obtain ⟨hord, _⟩ := heldOrder_eq_some.mp ho
  obtain ⟨_, _, hco⟩ := order_eq_some hord
  have htok : (t.record slot).request.token = r.request.token := by rw [hco]; rfl
  have hgen : (t.record slot).generation = r.generation := by rw [hco]; rfl
  rw [htok, hgen]
  have hv₁ := hv.remember r.request.token
  have hlen : (t.rememberRetiredToken r.request.token).records.length = t.records.length := by
    rw [rememberRetiredToken_fields.1]
  have hord₁ : (t.rememberRetiredToken r.request.token).order slot = some r := by
    rw [rememberRetiredToken_order]; exact hord
  obtain ⟨t', he, her⟩ := erase_spec (H := H) (hv₁.lookup_of_order hord₁)
  obtain ⟨hb, hocc, _⟩ := order_eq_some hord₁
  refine ⟨t', he, hv₁.erased hb hocc her, her.length.trans hlen, ?_, ?_⟩
  · rw [her.order, rememberRetiredToken_order]
  · intro history hm
    exact her.framed.remembers (hm.remember (hv.tokenPos hord))

theorem eraseSlots_spec (slots : List Nat) (hv : Valid H t) (hnd : slots.Nodup)
    (hb : ∀ slot ∈ slots, slot < t.records.length) :
    ∃ t', t.eraseSlots H inst slots = (.ok, t') ∧ Valid H t' ∧
      t'.records.length = t.records.length ∧ t'.order = withoutHeld t.order inst slots ∧
      ∀ history, t.Remembers history → t'.Remembers (history ++ heldTokens t.order inst slots) := by
  induction slots generalizing t with
  | nil =>
    refine ⟨t, rfl, hv, rfl, ?_, ?_⟩
    · funext s; simp [withoutHeld]
    · intro history hm; simpa [heldTokens] using hm
  | cons slot slots ih =>
    obtain ⟨hnot, hnd⟩ := nodup_cons.mp hnd
    have hb' : ∀ s ∈ slots, s < t.records.length := (forall_mem_cons.mp hb).2
    unfold eraseSlots
    have hiff := heldBy_iff (hb slot mem_cons_self) inst
    cases hh : heldOrder t.order inst slot with
    | none =>
      have hf : t.heldBy inst slot = false := by
        rw [hh] at hiff; simpa using hiff
      rw [hf]
      obtain ⟨t', he, hv', hl', ho', hm'⟩ := ih hv hnd hb'
      refine ⟨t', he, hv', hl', ?_, ?_⟩
      · rw [ho', withoutHeld_cons_none hh]
      · simpa [heldTokens, hh] using hm'
    | some r =>
      have hf : t.heldBy inst slot = true := by
        rw [hh] at hiff; simpa using hiff
      obtain ⟨t₁, he₁, hv₁, hl₁, ho₁, hm₁⟩ := retire_one hv hh
      rw [hf]
      dsimp only
      rw [he₁]
      obtain ⟨t', he, hv', hl', ho', hm'⟩ := ih hv₁ hnd (by rw [hl₁]; exact hb')
      refine ⟨t', he, hv', hl'.trans hl₁, ?_, ?_⟩
      · rw [ho', ho₁, withoutHeld_cons_some (by simp [hh])]
      · intro history hm
        have := hm' _ (hm₁ history hm)
        rw [ho₁, heldTokens_update hnot] at this
        simpa [heldTokens, hh] using this

theorem eraseTerminalByInstrument_spec (hv : Valid H t) :
    (∃ error, t.eraseTerminalByInstrument H inst = (error, t) ∧ error ≠ .ok) ∨
      ∃ t', t.eraseTerminalByInstrument H inst = (.ok, t') ∧ Valid H t' ∧
        t'.records.length = t.records.length ∧
        t'.order = withoutHeld t.order inst (range t.records.length) ∧
        Dropped t.order t'.order ∧ ∀ history, t.Remembers history → t'.Remembers
          (history ++ heldTokens t.order inst (range t.records.length)) := by
  unfold eraseTerminalByInstrument
  split
  next => exact .inl ⟨_, rfl, by simp⟩
  split
  next => exact .inl ⟨_, rfl, by simp⟩
  next hall =>
  obtain ⟨t', he, hv', hl', ho', hm'⟩ := eraseSlots_spec (range t.records.length) hv nodup_range (by simp)
  refine .inr ⟨t', he, hv', hl', ho', ?_, hm'⟩
  intro s
  rw [ho']
  unfold withoutHeld
  split
  next hs =>
    obtain ⟨r, hr⟩ := Option.isSome_iff_exists.mp hs.2
    obtain ⟨hord, _⟩ := heldOrder_eq_some.mp hr
    obtain ⟨hb, _, hco⟩ := order_eq_some hord
    have hhd := (heldBy_iff hb _).mpr hs.2
    simp only [any_eq_true, mem_range, Bool.and_eq_true, Bool.or_eq_true,
      Bool.not_eq_true', decide_eq_true_eq, not_exists, not_and, not_or, Bool.not_eq_false,
      not_not] at hall
    obtain ⟨htm, hin⟩ := hall s hb hhd
    refine .inr ⟨rfl, r, hord, ?_, ?_⟩
    · rw [hco]; exact htm
    · rw [hco]; exact hin
  next => exact .inl rfl

end OrderTable

namespace OrderTable

variable {H : OrderHashes} {t t' t'' : OrderTable} {slot s : Nat}
  {slots slots' : List Nat} {r r' : OrderRecord} {venueId : VenueOrderId}

def occupiedCount (t : OrderTable) : Nat := (range t.records.length).countP fun s => (t.record s).occupied

structure ValidIds (r : OrderRecord) : Prop where
  client : validId r.request.clientOrderId
  venue : r.venueOrderId.length ≠ 0 → validId r.venueOrderId

/-- A table whose indexes, terminal list and size agree with its records; `slots` are the finished
orders, oldest first. -/
structure Queued (H : OrderHashes) (t : OrderTable) (slots : List Nat) : Prop where
  valid : Valid H t
  list : TerminalList t slots
  complete : ∀ s, s < t.records.length → (t.record s).occupied → isTerminal (t.record s).status → s ∈ slots
  size : t.size = t.occupiedCount
  ids : ∀ {slot r}, t.order slot = some r → ValidIds r

theorem Queued.create {n : Nat} (h : create n = some t) : Queued H t [] := by
  have ho := (create_empty h).1
  have hli := TerminalList.empty h
  obtain ⟨c, _, rfl⟩ := Option.map_eq_some_iff.mp h
  refine ⟨create_valid h, hli, fun s _ hocc => ?_, ?_, fun hr => ?_⟩
  · rw [record_replicate rfl] at hocc
    cases hocc
  · unfold occupiedCount
    rw [countP_eq_zero.mpr]
    intro s _
    rw [record_replicate rfl]
    simp
  · rw [ho] at hr
    cases hr

def Stays (t t' : OrderTable) (s : Nat) : Prop :=
  (t'.record s).occupied ∧ (t'.record s).generation = (t.record s).generation

instance (t t' : OrderTable) (s : Nat) : Decidable (Stays t t' s) := inferInstanceAs (Decidable (_ ∧ _))

/-- What a call does to the finished orders: some leave, the others keep their turn, and at most one
joins at the end. -/
structure Turned (H : OrderHashes) (t : OrderTable) (slots : List Nat) (t' : OrderTable)
    (slots' : List Nat) : Prop where
  queued : Queued H t' slots'
  length : t'.records.length = t.records.length
  turn : ∃ new : List Nat, slots' = slots.filter (fun s => Stays t t' s) ++ new ∧ new.length ≤ 1 ∧
    ∀ s ∈ new, s ∉ slots

/-- The records of both tables are occupied alike and carry the same generations. -/
structure SameSlots (t t' : OrderTable) : Prop where
  length : t'.records.length = t.records.length
  occupied : ∀ s, (t'.record s).occupied = (t.record s).occupied
  generation : ∀ s, (t'.record s).generation = (t.record s).generation

theorem SameSlots.refl : SameSlots t t := ⟨rfl, fun _ => rfl, fun _ => rfl⟩

theorem SameSlots.trans (h : SameSlots t t') (h' : SameSlots t' t'') : SameSlots t t'' :=
  ⟨h'.length.trans h.length, fun s => (h'.occupied s).trans (h.occupied s),
    fun s => (h'.generation s).trans (h.generation s)⟩

theorem SameSlots.occupiedCount (h : SameSlots t t') : t'.occupiedCount = t.occupiedCount := by
  unfold OrderTable.occupiedCount
  rw [h.length]
  exact countP_congr fun s _ => by rw [h.occupied]

theorem Turned.of_stays (hlength : t'.records.length = t.records.length)
    (hs : ∀ s ∈ slots, Stays t t' s) {new : List Nat} (hq' : Queued H t' (slots ++ new))
    (hlen : new.length ≤ 1) (hnew : ∀ s ∈ new, s ∉ slots) : Turned H t slots t' (slots ++ new) := by
  refine ⟨hq', hlength, new, ?_, hlen, hnew⟩
  congr 1
  exact (filter_eq_self.mpr fun s hm => by simpa using hs s hm).symm

theorem Turned.of_quiet (hlen : t'.records.length = t.records.length)
    (hs : ∀ s ∈ slots, Stays t t' s) (hq' : Queued H t' slots) : Turned H t slots t' slots := by
  have h : Turned H t slots t' (slots ++ []) :=
    .of_stays hlen hs (by rw [append_nil]; exact hq') (Nat.zero_le 1) (by simp)
  rwa [append_nil] at h

theorem Queued.stays (hq : Queued H t slots) (h : SameSlots t t') (hs : s ∈ slots) : Stays t t' s :=
  ⟨by rw [h.occupied]; exact (hq.list.finished s hs).1, h.generation s⟩

theorem Turned.refl (hq : Queued H t slots) : Turned H t slots t slots :=
  .of_quiet rfl (fun _ hs => hq.stays SameSlots.refl hs) hq

theorem Turned.after_sameSlots {t₁ : OrderTable} (hs : SameSlots t t₁)
    (h : Turned H t₁ slots t' slots') : Turned H t slots t' slots' := by
  obtain ⟨new, he, hlen, hnew⟩ := h.turn
  refine ⟨h.queued, h.length.trans hs.length, new, he.trans ?_, hlen, hnew⟩
  congr 1
  refine filter_congr fun s _ => decide_eq_decide.mpr ?_
  unfold Stays
  rw [hs.generation]

structure Rewritten (r r' : OrderRecord) : Prop where
  request : r'.request = r.request
  venueOrderId : r'.venueOrderId = r.venueOrderId
  generation : r'.generation = r.generation
  occupied : r'.occupied = r.occupied
  inTerminal : r'.inTerminal = r.inTerminal
  terminalNext : r'.terminalNext = r.terminalNext
  terminalPrev : r'.terminalPrev = r.terminalPrev
  absorbs : isTerminal r.status → isTerminal r'.status

theorem sameSlots_setRecord (hb : slot < t.records.length) (h : Rewritten (t.record slot) r') :
    SameSlots t (t.setRecord slot r') := by
  refine ⟨setRecord_length _ _ _, fun s => ?_, fun s => ?_⟩
  · by_cases hs : slot = s
    · subst hs
      rw [record_setRecord_self hb, h.occupied]
    · rw [record_setRecord_ne hs]
  · by_cases hs : slot = s
    · subst hs
      rw [record_setRecord_self hb, h.generation]
    · rw [record_setRecord_ne hs]

section

variable (hq : Queued H t slots) (hb : slot < t.records.length) (hocc : (t.record slot).occupied)
  (h : Rewritten (t.record slot) r')

include hq hb hocc h

theorem Queued.ids_setRecord (hr : (t.setRecord slot r').order s = some r) : ValidIds r := by
  have ho := order_of_occupied hb hocc
  have hocc' : r'.occupied := by rw [h.occupied]; exact hocc
  rw [order_setRecord_occupied ho hocc'] at hr
  obtain ⟨-, hr⟩ | ⟨-, hr⟩ := update_eq_some.mp hr
  · cases hr
    have hids := hq.ids ho
    exact ⟨by simpa [OrderRecord.core, h.request] using hids.client,
      by simpa [OrderRecord.core, h.venueOrderId] using hids.venue⟩
  · exact hq.ids hr

theorem Queued.setRecord (hop : isTerminal r'.status → slot ∈ slots) : Queued H (t.setRecord slot r') slots := by
  have ho := order_of_occupied hb hocc
  have hocc' : r'.occupied := by rw [h.occupied]; exact hocc
  refine ⟨hq.valid.setRecord ho hocc' h.request h.generation h.venueOrderId,
    hq.list.setRecord hb h.inTerminal h.terminalNext h.terminalPrev h.generation fun hs =>
      ⟨hocc', h.absorbs (hq.list.finished slot hs).2⟩, fun s hs hso hst => ?_, ?_,
    hq.ids_setRecord hb hocc h⟩
  · by_cases he : slot = s
    · subst he
      rw [record_setRecord_self hb] at hst
      exact hop hst
    · rw [record_setRecord_ne he] at hso hst
      rw [setRecord_length] at hs
      exact hq.complete s hs hso hst
  · rw [(sameSlots_setRecord hb h).occupiedCount]
    exact hq.size

end

def observed (t : OrderTable) (handle : OrderHandle) : OrderTable :=
  match t.lookup handle with
  | none => t
  | some slot => if isTerminal (t.record slot).status then (t.markTerminal handle).2 else t

theorem Marked.sameSlots (h : Marked t slot slots t') : SameSlots t t' := by
  refine ⟨h.length, fun s => ?_, h.generation⟩
  rw [h.record]
  split
  next hs => rw [hs]
  next => split <;> rfl

theorem Queued.marked (hv : Valid H t') (hli : TerminalList t slots) (hm : Marked t slot slots t')
    (hcpl : ∀ s, s ≠ slot → s < t.records.length → (t.record s).occupied → isTerminal (t.record s).status → s ∈ slots)
    (hsz : t'.size = t.size) (hcnt : t.size = t.occupiedCount)
    (hids : ∀ {slot r}, t'.order slot = some r → ValidIds r)
    (hb : slot < t.records.length) (hocc : (t.record slot).occupied)
    (ht : isTerminal (t.record slot).status) (hn : (t.record slot).inTerminal = false) :
    Queued H t' (slots ++ [slot]) := by
  refine ⟨hv, hli.marked hm hb hocc ht hn, fun s hs hso hst => ?_, ?_, hids⟩
  · by_cases he : s = slot
    · simp [he]
    · rw [hm.length] at hs
      rw [hm.sameSlots.occupied] at hso
      have hstt : (t'.record s).status = (t.record s).status := by
        rw [hm.record, if_neg he]
        split <;> rfl
      rw [hstt] at hst
      exact mem_append_left _ (hcpl s he hs hso hst)
  · rw [hsz, hcnt, hm.sameSlots.occupiedCount]

theorem Queued.rewrite (hq : Queued H t slots) (hb : slot < t.records.length)
    (hocc : (t.record slot).occupied) (h : Rewritten (t.record slot) r') :
    ∃ slots', Turned H t slots ((t.setRecord slot r').observed (t.handleOf slot)) slots' := by
  have ho := order_of_occupied hb hocc
  have hsm := sameSlots_setRecord hb h
  have hrec := record_setRecord_self hb r'
  have hocc' : r'.occupied := by rw [h.occupied]; exact hocc
  have hv' := hq.valid.setRecord ho hocc' h.request h.generation h.venueOrderId
  have hl : (t.setRecord slot r').lookup (t.handleOf slot) = some slot := by
    have ho' : (t.setRecord slot r').order slot = some r'.core := by
      rw [order_setRecord_occupied ho hocc', update_self]
    have := hv'.lookup_of_order ho'
    rwa [show r'.core.generation = (t.record slot).generation from h.generation] at this
  unfold observed
  rw [hl]
  dsimp only
  rw [hrec]
  by_cases ht : isTerminal r'.status
  · rw [if_pos ht]
    by_cases hin : (t.record slot).inTerminal
    · have hmem : slot ∈ slots := (hq.list.mem slot).mpr ⟨hb, hin⟩
      have hq' := hq.setRecord hb hocc h fun _ => hmem
      have hid : (t.setRecord slot r').markTerminal (t.handleOf slot) = (.ok, t.setRecord slot r') := by
        unfold markTerminal
        rw [hl]
        simp [hrec, ht, h.inTerminal, hin]
      rw [hid]
      exact ⟨slots, .of_quiet hsm.length (fun _ hs => hq.stays hsm hs) hq'⟩
    · have hnot : (t.record slot).inTerminal = false := by simpa using hin
      have hmem : slot ∉ slots := hq.list.not_mem hnot
      have hli := hq.list.setRecord hb h.inTerminal h.terminalNext h.terminalPrev h.generation
        fun hs => absurd hs hmem
      have hin' : ((t.setRecord slot r').record slot).inTerminal = false := by
        rw [hrec, h.inTerminal, hnot]
      obtain ⟨t', he, hm⟩ := markTerminal_marked hli hl (by rw [hrec]; exact ht) hin'
      have hrel : Relinked (t.setRecord slot r') t' := by
        have := markTerminal_relinked (t.setRecord slot r') (t.handleOf slot)
        rwa [he] at this
      rw [he]
      have hmvd := hsm.trans hm.sameSlots
      refine ⟨slots ++ [slot], .of_stays hmvd.length (fun _ hs => hq.stays hmvd hs) ?_ (by simp)
        (by simpa using hmem)⟩
      refine marked (hv'.relinked hrel) hli hm (fun s hs hsb hso hst => ?_) hrel.size ?_
        (fun hr => ?_) (by rw [setRecord_length]; exact hb) (by rw [hrec]; exact hocc')
        (by rw [hrec]; exact ht) hin'
      · rw [record_setRecord_ne (symm hs)] at hso hst
        rw [setRecord_length] at hsb
        exact hq.complete s hsb hso hst
      · rw [hsm.occupiedCount]
        exact hq.size
      · rw [hrel.order] at hr
        exact hq.ids_setRecord hb hocc h hr
  · rw [if_neg ht]
    exact ⟨slots, .of_quiet hsm.length (fun _ hs => hq.stays hsm hs)
      (hq.setRecord hb hocc h fun ht' => absurd ht' ht)⟩

theorem bindVenueId_links (t : OrderTable) (handle : OrderHandle) (venueId : VenueOrderId) :
    (t.bindVenueId H handle venueId).2.terminalHead = t.terminalHead ∧
      (t.bindVenueId H handle venueId).2.terminalTail = t.terminalTail ∧
      (t.bindVenueId H handle venueId).2.size = t.size := by
  unfold bindVenueId
  split
  next => exact ⟨rfl, rfl, rfl⟩
  split
  next => exact ⟨rfl, rfl, rfl⟩
  split
  next => exact ⟨rfl, rfl, rfl⟩
  next => split <;> exact ⟨rfl, rfl, rfl⟩

theorem Bound.sameSlots (h : Bound H t slot venueId t') : SameSlots t t' := by
  refine ⟨h.framed.length, fun s => ?_, fun s => ?_⟩ <;> rw [h.record] <;> split
  next hs => rw [hs]
  next => rfl
  next hs => rw [hs]
  next => rfl

theorem Queued.bound (hq : Queued H t slots) (hid : validId venueId)
    (hb : Bound H t slot venueId t') (ho : t.order slot = some r) (hhe : t'.terminalHead = t.terminalHead)
    (hta : t'.terminalTail = t.terminalTail) (hsz : t'.size = t.size) : Queued H t' slots := by
  have hrec : ∀ s, (t'.record s).inTerminal = (t.record s).inTerminal ∧
      (t'.record s).terminalNext = (t.record s).terminalNext ∧
      (t'.record s).terminalPrev = (t.record s).terminalPrev ∧
      (t'.record s).status = (t.record s).status := by
    intro s
    rw [hb.record]
    split
    next hs => rw [hs]; exact ⟨rfl, rfl, rfl, rfl⟩
    next => exact ⟨rfl, rfl, rfl, rfl⟩
  have hsm := hb.sameSlots
  refine ⟨hb.valid, hq.list.congr hsm.length (fun s => (hrec s).1) (fun s _ => (hrec s).2.1)
    (fun s _ => (hrec s).2.2.1) (fun s _ => hsm.generation s) (fun s hs => ?_) hhe hta,
    fun s hs hso hst => ?_, ?_, fun {s x} hx => ?_⟩
  · rw [hsm.occupied, (hrec s).2.2.2]
    exact hq.list.finished s hs
  · rw [hsm.length] at hs
    rw [hsm.occupied] at hso
    rw [(hrec s).2.2.2] at hst
    exact hq.complete s hs hso hst
  · rw [hsz, hq.size, hsm.occupiedCount]
  · rw [hb.order ho] at hx
    obtain ⟨-, hx⟩ | ⟨-, hx⟩ := update_eq_some.mp hx
    · cases hx
      exact ⟨(hq.ids ho).client, fun _ => hid⟩
    · exact hq.ids hx

end OrderTable

end SelfQuant.Oms
