import SelfQuant.MdsBridgeRun
import SelfQuant.MdsPublishSpec
import SelfQuant.MdsVenueIngest

namespace SelfQuant.Mds

open List WirePublisher Item Function
open BookBridge (Alike InStep Smooth Tolerated oneLevel)

structure Item.About (item : Item) (id generation source : Nat) : Prop where
  id : item.header.instrumentId = id
  generation : item.header.bookGeneration = generation
  source : item.header.sourceSeq = source
  describes : VenueIngest.describes item.body = false

namespace VenueIngest

variable {v v' : VenueIngest} {id gen bus ring source source' start : Nat} {c c' : BookBridge}
  {dirty : Bool} {item : Item} {items : List Item} {ring : Nat} {record : WireRecord}
  {header : EventHeader} {gathered : Side → List Level} {clock : Nat → Nat} {r : ReferenceBook} {now : Nat}
  {result : IngestResult}

/-- Hand the records to the reader, the first one first; `clock` tells when each of them comes in. -/
def deliver (clock : Nat → Nat) (v : VenueIngest) : List Published → List IngestResult × VenueIngest
  | [] => ([], v)
  | p :: rest =>
    let (result, v) := v.consume p.ringSequence p.outerType p.record (clock p.ringSequence)
    let (results, v) := deliver clock v rest
    (result :: results, v)

def Quiet (results : List IngestResult) : Prop := ∀ result ∈ results, result ≠ .needResync ∧ result ≠ .invalid

theorem deliver_append (first second : List Published) : deliver clock v (first ++ second) =
    ((deliver clock v first).1 ++ (deliver clock (deliver clock v first).2 second).1,
      (deliver clock (deliver clock v first).2 second).2) := by
  induction first generalizing v with
  | nil => rfl
  | cons p first ih =>
    simp only [cons_append, deliver]
    rw [ih]

theorem quiet_append {results results' : List IngestResult} :
    Quiet (results ++ results') ↔ Quiet results ∧ Quiet results' := forall_mem_append

structure Handled (clock : Nat → Nat) (v : VenueIngest) (bus ring : Nat) (items : List Item)
    (v' : VenueIngest) : Prop where
  result : (deliver clock v (numbered bus ring items)).2 = v'
  quiet : Quiet (deliver clock v (numbered bus ring items)).1

theorem deliver_items_append (items' : List Item) : deliver clock v (numbered bus ring (items ++ items')) =
      ((deliver clock v (numbered bus ring items)).1 ++
          (deliver clock (deliver clock v (numbered bus ring items)).2
            (numbered (bus + items.length) (ring + items.length) items')).1,
        (deliver clock (deliver clock v (numbered bus ring items)).2
          (numbered (bus + items.length) (ring + items.length) items')).2) := by
  rw [numbered_append, deliver_append]

theorem Handled.nil : Handled clock v bus ring [] v := ⟨rfl, fun _ hmem => absurd hmem not_mem_nil⟩

theorem Handled.one
    (h : v.consume (ring + 1) item.body.type (item.record (bus + 1)) (clock (ring + 1)) = (result, v'))
    (hr : result ≠ .needResync ∧ result ≠ .invalid) : Handled clock v bus ring [item] v' := by
  have hone : deliver clock v (numbered bus ring [item]) = ([result], v') := by
    rw [numbered, deliver, h]
    rfl
  constructor
  · rw [hone]
  · rw [hone]
    intro other hmem
    rw [mem_singleton.mp hmem]
    exact hr

variable {items' : List Item} {v'' : VenueIngest}

theorem Handled.append (h : Handled clock v bus ring items v')
    (h' : Handled clock v' (bus + items.length) (ring + items.length) items' v'') :
    Handled clock v bus ring (items ++ items') v'' := by
  constructor
  · rw [deliver_items_append, h.result]
    exact h'.result
  · rw [deliver_items_append, h.result]
    exact quiet_append.mpr ⟨h.quiet, h'.quiet⟩

theorem Handled.cons (h : Handled clock v bus ring [item] v')
    (h' : Handled clock v' (bus + 1) (ring + 1) items v'') :
    Handled clock v bus ring (item :: items) v'' := h.append h'

def Upset (clock : Nat → Nat) (v : VenueIngest) (bus ring : Nat) (items : List Item) : Prop :=
  ¬Quiet (deliver clock v (numbered bus ring items)).1

theorem Upset.one (items : List Item)
    (h : (v.consume (ring + 1) item.body.type (item.record (bus + 1)) (clock (ring + 1))).1 = result)
    (hr : result = .needResync ∨ result = .invalid) : Upset clock v bus ring (item :: items) := by
  intro hqt
  obtain ⟨⟨hrsy, hinvalid⟩, -⟩ := forall_mem_cons.mp hqt
  obtain rfl | rfl := hr
  · exact hrsy h
  · exact hinvalid h

theorem Upset.append (h : Upset clock v bus ring items) (items' : List Item) :
    Upset clock v bus ring (items ++ items') := by
  intro hqt
  rw [deliver_items_append] at hqt
  exact h (quiet_append.mp hqt).1

theorem Handled.upset (h : Handled clock v bus ring items v')
    (h' : Upset clock v' (bus + items.length) (ring + items.length) items') :
    Upset clock v bus ring (items ++ items') := by
  intro hqt
  rw [deliver_items_append, h.result] at hqt
  exact h' (quiet_append.mp hqt).2

theorem Handled.upset_cons (h : Handled clock v bus ring [item] v')
    (h' : Upset clock v' (bus + 1) (ring + 1) items) : Upset clock v bus ring (item :: items) := h.upset h'

theorem acceptSequence_frame :
    v.acceptSequence ring record = { v with
      lastRingSequence := ring, lastBusSequence := record.header.busSeq, haveSequence := true
      lastSourceSequence := (v.acceptSequence ring record).lastSourceSequence
      sourceGeneration := (v.acceptSequence ring record).sourceGeneration
      haveSourceSequence := (v.acceptSequence ring record).haveSourceSequence } := by
  unfold acceptSequence
  dsimp only
  split <;> rfl

/-- The reader has read the ring and the bus up to the two numbers, and of the instrument nothing that
is newer than `source`. -/
structure Aligned (v : VenueIngest) (id generation bus ring source : Nat) : Prop where
  selected : v.selectedInstrumentId = id
  nonzero : id ≠ 0
  sequence : v.haveSequence → v.lastRingSequence = ring ∧ v.lastBusSequence = bus
  generation : v.sourceGeneration = 0 ∨ v.sourceGeneration = generation
  source : v.haveSourceSequence → v.lastSourceSequence ≤ source

theorem Aligned.consume (h : Aligned v id gen bus ring source) (ha : item.About id gen source)
    (he : item.Encodable) (now : Nat) : v.consume (ring + 1) item.body.type (item.record (bus + 1)) now =
      v.consumeSelected (ring + 1) (item.record (bus + 1)) now := by
  have hid : (item.record (bus + 1)).header.instrumentId = v.selectedInstrumentId := ha.id.trans h.selected.symm
  have hfol : v.follows (ring + 1) (item.record (bus + 1)).header := by
    unfold follows
    cases hs : v.haveSequence with
    | false => rfl
    | true =>
      obtain ⟨hring, hbus⟩ := h.sequence hs
      rw [hring, hbus]
      simp [record, headerFields]
  have hseq : v.sequenceOk (ring + 1) (item.record (bus + 1)) := by
    unfold sequenceOk
    rw [hfol]
    simp only [Bool.not_true, Bool.false_eq_true, if_false]
    rw [if_neg (by rw [hid]; simpa [record] using ha.describes), if_neg]
    · cases hs : v.haveSourceSequence with
      | false => rfl
      | true =>
        have hle := h.source hs
        rw [← ha.source] at hle
        simpa [record, headerFields] using hle
    · rintro ⟨hne, hoth⟩
      obtain hze | heq := h.generation
      · exact hne hze
      · exact hoth (ha.generation.trans heq.symm)
  have hhdr : validateHeader (item.record (bus + 1)) = .ok := by
    unfold validateHeader
    split
    next hu =>
      have hbd : item.body = _ := hu
      have hval := he.2
      rw [hbd] at hval
      cases hval
    next => rw [if_neg (by simpa [record, headerFields] using he.1)]
  have hbd : validBody (item.record (bus + 1)).header.instrumentId (item.record (bus + 1)).body := he.2
  unfold VenueIngest.consume
  rw [hhdr]
  dsimp only
  rw [if_neg (by rw [hseq]; simp [record]), if_neg]
  · have hd := ha.describes
    cases hb : item.body <;> rw [hb] at hd <;> simp_all [record, describes]
  · rintro ⟨-, hze | hne⟩
    · exact h.nonzero (h.selected.symm.trans hze)
    · exact hne hid

theorem Aligned.accept (h : Aligned v id gen bus ring source)
    (hv : v'.selectedInstrumentId = v.selectedInstrumentId) (ha : item.About id gen source) :
    Aligned (v'.acceptSequence (ring + 1) (item.record (bus + 1))) id gen (bus + 1) (ring + 1)
      source := by
  have hid : (item.record (bus + 1)).header.instrumentId = v'.selectedInstrumentId :=
    ha.id.trans (h.selected.symm.trans hv.symm)
  have hd : describes (item.record (bus + 1)).body = false := ha.describes
  unfold acceptSequence
  rw [if_pos ⟨hid, by rw [hd]; rfl⟩]
  exact ⟨hv.trans h.selected, h.nonzero, fun _ => ⟨rfl, rfl⟩, .inr ha.generation, fun _ => ha.source.le⟩

/-- The reader has a bridge; `dirty` says whether its book was changed since it was asked for. -/
structure Attached (v : VenueIngest) (id generation bus ring source : Nat) (c : BookBridge)
    (dirty : Bool) : Prop extends Aligned v id generation bus ring source where
  bridge : v.bridge = some c
  dirty : v.bookDirty = dirty

theorem Attached.mono (h : Attached v id gen bus ring source' c dirty) (hle : source' ≤ source) :
    Attached v id gen bus ring source c dirty :=
  ⟨⟨h.selected, h.nonzero, h.sequence, h.generation, fun hs => le_trans (h.source hs) hle⟩, h.bridge, h.dirty⟩

theorem Attached.accept (h : Attached v id gen bus ring source c dirty)
    (hv : v'.selectedInstrumentId = v.selectedInstrumentId) (hb : v'.bridge = some c')
    (ha : item.About id gen source) :
    Attached (v'.acceptSequence (ring + 1) (item.record (bus + 1))) id gen (bus + 1) (ring + 1)
      source c' v'.bookDirty := by
  refine ⟨h.toAligned.accept hv ha, ?_, ?_⟩
  · rw [acceptSequence_frame]
    exact hb
  · rw [acceptSequence_frame]

theorem Attached.bbo {bid ask : Level} (h : Attached v id gen bus ring source c dirty)
    (ha : item.About id gen source) (he : item.Encodable) (hb : item.body = .bbo bid ask) :
    ∃ v', v.consume (ring + 1) item.body.type (item.record (bus + 1)) now = (.bbo, v') ∧
      Attached v' id gen (bus + 1) (ring + 1) source c dirty := by
  have hbd : (item.record (bus + 1)).body = .bbo bid ask := hb
  rw [h.consume ha he, consumeSelected, hbd, ← h.dirty]
  exact ⟨_, rfl, h.accept (by rfl) h.bridge ha⟩

def deltaItem (header : EventHeader) (delta : Side × Level) : Item := ⟨header, 0, .bookDelta delta.1 delta.2⟩

section

variable (h : Attached v id gen bus ring source c dirty)

include h

theorem Attached.delta {delta : Side × Level}
    (ha : (deltaItem header delta).About id gen source) (hq : 0 ≤ delta.2.quantity) (now : Nat) :
    v.consume (ring + 1) (deltaItem header delta).body.type ((deltaItem header delta).record (bus + 1))
      now = match c.apply (oneLevel (bus + 1) delta.1 delta.2) with
        | (.applied, bridge) => (.book, acceptSequence { v with
            bridge := some bridge, bookIngressNs := now, bookExchangeTsNs := header.exchangeTsNs
            bookDirty := true } (ring + 1) ((deltaItem header delta).record (bus + 1)))
        | (_, bridge) => (.needResync, { v with bridge := some bridge }) := by
  have he : (deltaItem header delta).Encodable := ⟨rfl, by simpa [deltaItem, validBody] using hq⟩
  rw [h.consume ha he, consumeSelected]
  rw [h.bridge]
  rfl

variable {delta : Side × Level} (hc : InStep r c) (hlast : c.lastUpdateId ≤ bus)
  (ha : (deltaItem header delta).About id gen source) (hin : c.inWindow delta.1 delta.2.price ∧ 0 ≤ delta.2.quantity)

include hc hlast ha hin

theorem Attached.tolerated (ht : Tolerated c.book delta) :
    ∃ v' c' r', v.consume (ring + 1) (deltaItem header delta).body.type
        ((deltaItem header delta).record (bus + 1)) now = (.book, v') ∧
      Attached v' id gen (bus + 1) (ring + 1) source c' true ∧ InStep r' c' ∧
      c'.lastUpdateId = bus + 1 ∧ Alike c c' ∧
      c'.book = c.book.after delta := by
  obtain ⟨r', c', happ, hc', hm, hbk, hid⟩ := hc.afterLevel (Nat.lt_succ_of_le hlast) hin.1 hin.2 ht
  have hcn := h.delta ha hin.2 now
  rw [happ] at hcn
  exact ⟨_, c', r', hcn, h.accept rfl rfl ha, hc', hid, hm, hbk⟩

theorem Attached.refused (ht : ¬Tolerated c.book delta) : (v.consume (ring + 1) (deltaItem header delta).body.type
      ((deltaItem header delta).record (bus + 1)) now).1 = .needResync := by
  have hno := mt (hc.oneLevel (Nat.lt_succ_of_le hlast) hin.1 hin.2).mp ht
  rw [h.delta ha hin.2 now]
  split
  next heq => exact absurd (congrArg Prod.fst heq) hno
  next => rfl

end

theorem inWindow_rest {delta : Side × Level} {deltas : List (Side × Level)} (hm : Alike c c')
    (hin : ∀ d ∈ delta :: deltas, c.inWindow d.1 d.2.price ∧ 0 ≤ d.2.quantity) :
    ∀ d ∈ deltas, c'.inWindow d.1 d.2.price ∧ 0 ≤ d.2.quantity := by
  intro d hmem
  have hsm : c'.inWindow = c.inWindow := hm.inWindow
  rw [hsm]
  exact hin d (mem_cons_of_mem _ hmem)

section

variable {ds : List (Side × Level)} (h : Attached v id gen bus ring source c dirty) (hc : InStep r c)
  (hlast : c.lastUpdateId ≤ bus) (ha : ∀ delta ∈ ds, (deltaItem header delta).About id gen source)
  (hin : ∀ delta ∈ ds, c.inWindow delta.1 delta.2.price ∧ 0 ≤ delta.2.quantity)

include h hc hlast ha hin

theorem Attached.deltas (hsmo : Smooth c.book ds) :
    ∃ v' c', Handled clock v bus ring (ds.map (deltaItem header)) v' ∧
      Attached v' id gen (bus + ds.length) (ring + ds.length) source c' (dirty || decide (ds ≠ [])) ∧
      c'.lastUpdateId ≤ bus + ds.length ∧ Alike c c' ∧
      c'.book = c.book.afterAll ds := by
  induction ds generalizing v c r bus ring dirty with
  | nil =>
    refine ⟨v, c, .nil, ?_, hlast, ⟨rfl, rfl⟩, rfl⟩
    rw [decide_eq_false (by simp), Bool.or_false]
    exact h
  | cons delta ds ih =>
    obtain ⟨v1, c1, r1, hcn, h1, hc1, hid1, hm1, hbook1⟩ := h.tolerated hc hlast
      (ha delta (mem_cons_self ..)) (hin delta (mem_cons_self ..)) hsmo.1
    have hfst : Handled clock v bus ring [deltaItem header delta] v1 := .one hcn ⟨by decide, by decide⟩
    obtain ⟨v', c', hrs, hatt, hla', hm', hbk'⟩ := ih h1 hc1 hid1.le
      (forall_mem_cons.mp ha).2 (inWindow_rest hm1 hin)
      (by rw [hbook1]; exact hsmo.2)
    rw [length_cons, ← add_assoc, add_right_comm, ← add_assoc, add_right_comm ring]
    refine ⟨v', c', hfst.cons hrs, ?_, hla', hm1.trans hm', ?_⟩
    · rw [decide_eq_true (cons_ne_nil _ _), Bool.or_true]
      exact hatt
    · rw [hbk', hbook1]
      rfl

theorem Attached.deltas_upset (hsmo : ¬Smooth c.book ds) :
    Upset clock v bus ring (ds.map (deltaItem header)) := by
  induction ds generalizing v c r bus ring dirty with
  | nil => exact absurd trivial hsmo
  | cons delta ds ih =>
    have habout := ha delta (mem_cons_self ..)
    have hdlt := hin delta (mem_cons_self ..)
    by_cases ht : Tolerated c.book delta
    · obtain ⟨v1, c1, r1, hcn, h1, hc1, hid1, hm1, hbook1⟩ := h.tolerated hc hlast habout hdlt ht
      have hfst : Handled clock v bus ring [deltaItem header delta] v1 := .one hcn ⟨by decide, by decide⟩
      refine hfst.upset_cons (ih h1 hc1 hid1.le
        (forall_mem_cons.mp ha).2 (inWindow_rest hm1 hin) ?_)
      rw [hbook1]
      exact fun hrs => hsmo ⟨ht, hrs⟩
    · exact .one _ (h.refused hc hlast habout hdlt ht) (.inl rfl)

end

end VenueIngest

def DepthSnapshot.Small (image : DepthSnapshot) : Prop :=
  image.bids.length ≤ kMaxLadderLevels ∧ image.asks.length ≤ kMaxLadderLevels

instance (image : DepthSnapshot) : Decidable image.Small := inferInstanceAs (Decidable (_ ∧ _))

namespace VenueIngest

variable {v v' : VenueIngest} {id gen bus ring source start : Nat} {c : BookBridge}
  {dirty : Bool} {item : Item} {header : EventHeader} {gathered : Side → List Level}
  (clock : Nat → Nat) {side : Side} {levels bids asks : List Level}

/-- The reader is in the middle of a snapshot and has these levels of it. -/
structure Gathering (v : VenueIngest) (id generation bus ring source : Nat) (c : BookBridge)
    (dirty : Bool) (start : Nat) (gathered : Side → List Level) : Prop
    extends Attached v id generation bus ring source c dirty where
  active : v.snapshotActive
  start : v.snapshotBridgeSequence = start
  bids : v.snapshotBids = gathered .bid
  asks : v.snapshotAsks = gathered .ask

variable {turns index itemCount : Nat}

section

variable (h : Attached v id gen bus ring source c dirty) (ha : item.About id gen source) (he : item.Encodable)

include h ha he

theorem Attached.begin {chunks : Nat} (hb : item.body = .snapshotBegin itemCount chunks)
    (hle : itemCount ≤ kMaxLadderLevels + kMaxLadderLevels) : ∃ v', Handled clock v bus ring [item] v' ∧
      Gathering v' id gen (bus + 1) (ring + 1) source c dirty (bus + 1) fun _ => [] := by
  have hbd : (item.record (bus + 1)).body = .snapshotBegin itemCount chunks := hb
  have hcn := h.consume ha he (clock (ring + 1))
  rw [consumeSelected, hbd] at hcn
  dsimp only at hcn
  rw [if_neg (by rw [h.bridge]; simpa using hle)] at hcn
  refine ⟨_, .one hcn ⟨by decide, by decide⟩, ?_, ?_, ?_, ?_, ?_⟩
  · rw [← h.dirty]
    exact h.accept rfl h.bridge ha
  · rw [acceptSequence_frame]
  · rw [acceptSequence_frame]
    rfl
  · rw [acceptSequence_frame]
  · rw [acceptSequence_frame]

theorem Attached.begin_upset {chunks : Nat} {items : List Item}
    (hb : item.body = .snapshotBegin itemCount chunks)
    (hlt : kMaxLadderLevels + kMaxLadderLevels < itemCount) :
    Upset clock v bus ring (item :: items) := by
  have hbd : (item.record (bus + 1)).body = .snapshotBegin itemCount chunks := hb
  have hcn := h.consume ha he (clock (ring + 1))
  rw [consumeSelected, hbd] at hcn
  dsimp only at hcn
  rw [if_pos (.inr hlt)] at hcn
  exact .one _ (congrArg Prod.fst hcn) (.inr rfl)

end

def gather (gathered : Side → List Level) (side : Side) (levels : List Level) : Side → List Level :=
  update gathered side (gathered side ++ levels)

def added (v : VenueIngest) (side : Side) (levels : List Level) : VenueIngest :=
  match side with
  | .bid => { v with snapshotBids := v.snapshotBids ++ levels }
  | .ask => { v with snapshotAsks := v.snapshotAsks ++ levels }

section

variable (h : Gathering v id gen bus ring source c dirty start gathered)
  (ha : item.About id gen source) (he : item.Encodable)

include h ha he

variable {index : Nat}

section

variable (hb : item.body = .snapshotChunk index side levels)

include hb

theorem Gathering.consume_chunk (now : Nat) :
    v.consume (ring + 1) item.body.type (item.record (bus + 1)) now =
      if kMaxLadderLevels < (gathered side).length + levels.length then (.invalid, { v with snapshotActive := false })
      else (.ignored, (v.added side levels).acceptSequence (ring + 1) (item.record (bus + 1))) := by
  have hbd : (item.record (bus + 1)).body = .snapshotChunk index side levels := hb
  rw [h.consume ha he now, consumeSelected, hbd]
  dsimp only
  rw [if_neg (by rw [h.active]; simp)]
  cases side with
  | bid => simp only [h.bids, added, gt_iff_lt]
  | ask => simp only [h.asks, added, gt_iff_lt]

theorem Gathering.chunk (hle : (gathered side).length + levels.length ≤ kMaxLadderLevels) :
    ∃ v', Handled clock v bus ring [item] v' ∧
      Gathering v' id gen (bus + 1) (ring + 1) source c dirty start (gather gathered side levels) := by
  have hcn := h.consume_chunk ha he hb (clock (ring + 1))
  rw [if_neg (by omega)] at hcn
  refine ⟨_, .one hcn ⟨by decide, by decide⟩, ?_, ?_, ?_, ?_, ?_⟩
  · rw [← h.dirty]
    cases side with
    | bid | ask => exact h.accept rfl h.bridge ha
  all_goals
    rw [acceptSequence_frame]
    cases side with
    | bid | ask => simp [gather, added, h.active, h.start, h.bids, h.asks]

theorem Gathering.chunk_upset {items : List Item}
    (hlt : kMaxLadderLevels < (gathered side).length + levels.length) :
    Upset clock v bus ring (item :: items) := by
  have hcn := h.consume_chunk ha he hb (clock (ring + 1))
  rw [if_pos hlt] at hcn
  exact .one _ (congrArg Prod.fst hcn) (.inr rfl)

end

end

theorem gather_gather (levels' : List Level) :
    gather (gather gathered side levels) side levels' = gather gathered side (levels ++ levels') := by
  unfold gather
  rw [update_idem, update_self, append_assoc]

theorem gather_length : (gather gathered side levels side).length = (gathered side).length + levels.length := by
  unfold gather
  rw [update_self, length_append]

theorem chunk_lengths (h : levels.length ≤ turns + 1) :
    (levels.take kSnapshotLevelsPerChunk).length + (levels.drop kSnapshotLevelsPerChunk).length =
      levels.length ∧ (levels.drop kSnapshotLevelsPerChunk).length ≤ turns := by
  constructor
  · rw [← length_append, take_append_drop]
  · rw [length_drop]
    unfold kSnapshotLevelsPerChunk
    omega

section

variable (h : Gathering v id gen bus ring source c dirty start gathered)
  (ha : ∀ item ∈ chunkItems header side turns index levels, item.About id gen source ∧ item.Encodable)
  (hturns : levels.length ≤ turns)

include h ha hturns

theorem Gathering.chunks (hle : (gathered side).length + levels.length ≤ kMaxLadderLevels) :
    ∃ v', Handled clock v bus ring (chunkItems header side turns index levels) v' ∧
      Gathering v' id gen (bus + (chunkItems header side turns index levels).length)
        (ring + (chunkItems header side turns index levels).length) source c dirty start
        (gather gathered side levels) := by
  induction turns generalizing v bus ring gathered index levels with
  | zero =>
    obtain rfl : levels = [] := length_eq_zero_iff.mp (by omega)
    refine ⟨v, .nil, ?_⟩
    simpa [gather, chunkItems] using h
  | succ turns ih =>
    by_cases hne : levels = []
    · subst hne
      refine ⟨v, .nil, ?_⟩
      simpa [gather, chunkItems] using h
    · rw [chunkItems_step hne] at ha ⊢
      obtain ⟨hlen, hshorter⟩ := chunk_lengths hturns
      obtain ⟨habout, henc⟩ := ha _ (mem_cons_self ..)
      obtain ⟨v1, hfst, h1⟩ := h.chunk clock habout henc rfl (by omega)
      obtain ⟨v', hrs, h'⟩ := ih h1 (forall_mem_cons.mp ha).2
        hshorter (by rw [gather_length]; omega)
      rw [gather_gather, take_append_drop] at h'
      refine ⟨v', hfst.cons hrs, ?_⟩
      rw [length_cons, ← add_assoc, add_right_comm, ← add_assoc, add_right_comm ring]
      exact h'

theorem Gathering.chunks_upset (hkn : (gathered side).length ≤ kMaxLadderLevels)
    (hlt : kMaxLadderLevels < (gathered side).length + levels.length) :
    Upset clock v bus ring (chunkItems header side turns index levels) := by
  induction turns generalizing v bus ring gathered index levels with
  | zero => omega
  | succ turns ih =>
    rw [chunkItems_step (length_pos_iff.mp (by omega))] at ha ⊢
    obtain ⟨hlen, hshorter⟩ := chunk_lengths hturns
    obtain ⟨habout, henc⟩ := ha _ (mem_cons_self ..)
    by_cases hov : kMaxLadderLevels < (gathered side).length + (levels.take kSnapshotLevelsPerChunk).length
    · exact h.chunk_upset clock habout henc rfl hov
    · obtain ⟨v1, hfst, h1⟩ := h.chunk clock habout henc rfl (not_lt.mp hov)
      refine hfst.upset_cons (ih h1 (forall_mem_cons.mp ha).2 hshorter ?_ ?_)
      · rw [gather_length]
        omega
      · rw [gather_length]
        omega

end

theorem forall_snapshotItems {P : Item → Prop} : (∀ item ∈ snapshotItems header bids asks, P item) ↔
    P ⟨header, 0, .snapshotBegin (bids.length + asks.length) (chunkCount bids.length + chunkCount asks.length)⟩ ∧
    (∀ item ∈ chunkItems header .bid bids.length 0 bids, P item) ∧
    (∀ item ∈ chunkItems header .ask asks.length 0 asks, P item) ∧
    P ⟨header, 0, .snapshotEnd (bids.length + asks.length) 0⟩ := by
  unfold snapshotItems
  rw [forall_mem_cons, forall_mem_append, forall_mem_append, forall_mem_singleton, and_assoc]

theorem chunkItems_about (hid : header.instrumentId = id)
    (hg : header.bookGeneration = gen) (hs : header.sourceSeq = source) :
    ∀ item ∈ chunkItems header side turns index levels, item.About id gen source := by
  induction turns generalizing index levels with
  | zero =>
    cases levels with
    | nil | cons => exact fun _ hmem => absurd hmem not_mem_nil
  | succ turns ih =>
    by_cases hne : levels = []
    · subst hne
      exact fun _ hmem => absurd hmem not_mem_nil
    · rw [chunkItems_step hne]
      exact forall_mem_cons.mpr ⟨⟨hid, hg, hs, rfl⟩, ih⟩

theorem Gathering.finish (h : Gathering v id gen bus ring source c dirty start gathered)
    (ha : item.About id gen source) (he : item.Encodable)
    (hb : item.body = .snapshotEnd ((gathered .bid).length + (gathered .ask).length) 0)
    (hl : (c.loadSnapshot ⟨start, gathered .bid, gathered .ask⟩ gen).1.action = .applied) :
    ∃ v', Handled clock v bus ring [item] v' ∧
      Attached v' id gen (bus + 1) (ring + 1) source
        (c.loadSnapshot ⟨start, gathered .bid, gathered .ask⟩ gen).2.setLive true := by
  have hbd : (item.record (bus + 1)).body = .snapshotEnd ((gathered .bid).length + (gathered .ask).length) 0 := hb
  have hgen : (item.record (bus + 1)).header.bookGeneration = gen := ha.generation
  have hreb : v.rebuildBook ((gathered .bid).length + (gathered .ask).length) gen =
      (true, { v with
        bridge := some (c.loadSnapshot ⟨start, gathered .bid, gathered .ask⟩ gen).2.setLive
        bookGeneration := gen }) := by
    unfold rebuildBook
    rw [h.bridge]
    dsimp only
    rw [h.bids, h.asks, h.start, if_neg (by simp), hl, if_neg (by simp)]
  have hcn := h.consume ha he (clock (ring + 1))
  rw [consumeSelected, hbd] at hcn
  dsimp only at hcn
  rw [if_neg (by rw [h.active]; simp), hgen, hreb] at hcn
  exact ⟨_, .one hcn ⟨by decide, by decide⟩, h.accept rfl rfl ha⟩

section

variable (h : Attached v id gen bus ring source c dirty)
  (ha : ∀ item ∈ snapshotItems header bids asks, item.About id gen source ∧ item.Encodable)

include h ha

theorem Attached.image (hsm : bids.length ≤ kMaxLadderLevels ∧ asks.length ≤ kMaxLadderLevels)
    (hl : (c.loadSnapshot ⟨bus + 1, bids, asks⟩ gen).1.action = .applied) :
    ∃ v', Handled clock v bus ring (snapshotItems header bids asks) v' ∧
      Attached v' id gen (bus + (snapshotItems header bids asks).length)
        (ring + (snapshotItems header bids asks).length) source
        (c.loadSnapshot ⟨bus + 1, bids, asks⟩ gen).2.setLive true := by
  obtain ⟨hbg, hbi, has, hend⟩ := forall_snapshotItems.mp ha
  obtain ⟨v1, hh1, h1⟩ := h.begin clock hbg.1 hbg.2 rfl (by omega)
  obtain ⟨v2, hh2, h2⟩ := h1.chunks clock hbi le_rfl (by simpa using hsm.1)
  obtain ⟨v3, hh3, h3⟩ := h2.chunks clock has le_rfl (by simpa [gather] using hsm.2)
  obtain ⟨v4, hh4, h4⟩ := h3.finish clock hend.1 hend.2 rfl hl
  have hlvs := hh2.append hh3
  rw [add_assoc (bus + 1), add_assoc (ring + 1), ← length_append] at hh4 h4
  refine ⟨v4, hh1.cons (hlvs.append hh4), ?_⟩
  have hlen : ∀ n, n + (snapshotItems header bids asks).length = n + 1 +
      (chunkItems header .bid bids.length 0 bids ++ chunkItems header .ask asks.length 0 asks).length +
      1 := by
    simp only [snapshotItems, length_cons, length_append, length_nil]
    omega
  rw [hlen, hlen]
  exact h4

theorem Attached.image_upset (hsm : ¬(bids.length ≤ kMaxLadderLevels ∧ asks.length ≤ kMaxLadderLevels)) :
    Upset clock v bus ring (snapshotItems header bids asks) := by
  obtain ⟨hbg, hbi, has, hend⟩ := forall_snapshotItems.mp ha
  by_cases htot : bids.length + asks.length ≤ kMaxLadderLevels + kMaxLadderLevels
  · obtain ⟨v1, hh1, h1⟩ := h.begin clock hbg.1 hbg.2 rfl htot
    refine hh1.upset_cons (Upset.append ?_ _)
    by_cases hfit : bids.length ≤ kMaxLadderLevels
    · obtain ⟨v2, hh2, h2⟩ := h1.chunks clock hbi le_rfl (by simpa using hfit)
      have hlrg : kMaxLadderLevels < asks.length := by
        by_contra hno
        exact hsm ⟨hfit, not_lt.mp hno⟩
      exact hh2.upset (h2.chunks_upset clock has le_rfl (Nat.zero_le _) (by simpa [gather] using hlrg))
    · exact (h1.chunks_upset clock hbi le_rfl (Nat.zero_le _) (by simpa using hfit)).append _
  · exact h.begin_upset clock hbg.1 hbg.2 rfl (not_le.mp htot)

end

end VenueIngest

end SelfQuant.Mds
