import SelfQuant.MdsRingReader
import Mathlib.Data.List.Forall2

namespace SelfQuant.Mds.Transport

open Function SharedRing RingLog ReaderSlot

variable {r : SharedRing} {records : List RecordView} {view : RecordView} {type : UInt32}
  {payload : List UInt8} {p : Nat} {log : RingLog} {i : Nat}

/-- The ring holds the records that are not more than a lap behind its end. -/
structure Stored (r : SharedRing) (records : List RecordView) : Prop where
  shaped : Shaped r
  cursor : r.writerCursor = cursorAfter r.ringBytes records
  word : r.writerCursor < 2 ^ 64
  sequence : r.nextSequence = records.length + 1
  numbered : ∀ p view, records[p]? = some view → view.sequence = p + 1
  ours : ∀ view ∈ records, view.epoch = r.epoch ∧ view.type ≠ kPaddingType ∧
    recordLength view.payload ≤ r.maxRecordBytes
  data : ∀ p view, records[p]? = some view →
    r.writerCursor ≤ cursorAt r.ringBytes records p + r.ringBytes →
    Written r.data r.ringBytes (cursorAt r.ringBytes records p) view

namespace Stored

section

variable (h : Stored r records)

include h

theorem cursor_le (hp : p ≤ records.length) : cursorAt r.ringBytes records p ≤ r.writerCursor := by
  rw [h.cursor, ← cursorAt_length]
  exact cursorAt_mono hp le_rfl

theorem readable (hp : records[p]? = some view)
    (hkt : r.writerCursor ≤ cursorAt r.ringBytes records p + r.ringBytes) :
    Readable r (cursorAt r.ringBytes records p) view := by
  have hnumber := h.numbered p view hp
  obtain ⟨hep, hty, hlen⟩ := h.ours view (List.mem_of_getElem? hp)
  have hins := h.cursor_le (getElem?_eq_some_iff.mp hp).1
  rw [cursorAt_succ hp] at hins
  exact ⟨hty, by omega, hep, hlen, hins, hkt, h.word, h.data p view hp hkt⟩

theorem readers (f : Nat → ReaderSlot) : Stored { r with readers := f } records :=
  ⟨⟨h.shaped.power, h.shaped.header, h.shaped.eighth, h.shaped.word⟩, h.cursor, h.word, h.sequence,
    h.numbered, h.ours, h.data⟩

theorem append (ht : Takes r type payload)
    (hfit : r.nextStart payload + recordLength payload < 2 ^ 64) : Stored (r.written type payload)
      (records ++ [⟨type, records.length + 1, r.epoch, payload⟩]) := by
  have hsta : r.writerCursor ≤ r.nextStart payload := le_startOf _ _ _
  have hla : cursorAt r.ringBytes records records.length = r.writerCursor := by
    rw [cursorAt_length, h.cursor]
  have hseq : r.nextSequence < 2 ^ 64 := by
    have hcnt := header_le_cursorAt r.ringBytes (le_refl records.length)
    have hsequence := h.sequence
    omega
  refine ⟨⟨h.shaped.power, h.shaped.header, h.shaped.eighth, h.shaped.word⟩, ?_, hfit, ?_, ?_, ?_, ?_⟩
  · show r.nextStart payload + recordLength payload = cursorAfter r.ringBytes _
    rw [cursorAfter, List.foldl_append, ← cursorAfter, ← h.cursor]
    rfl
  · show r.nextSequence + 1 = _
    rw [List.length_append, h.sequence]
    rfl
  · intro p view hp
    obtain ⟨-, hold⟩ | ⟨rfl, rfl⟩ := getElem?_concat_cases hp
    · exact h.numbered p view hold
    · rfl
  · intro view hv
    rcases List.mem_append.mp hv with hold | hnew
    · exact h.ours view hold
    · rw [List.mem_singleton.mp hnew]
      exact ⟨rfl, ht.type, ht.length⟩
  · intro p view hp hkt
    have hkt : r.nextStart payload + recordLength payload ≤ cursorAt r.ringBytes _ p + r.ringBytes := hkt
    show Written (r.written type payload).data r.ringBytes (cursorAt r.ringBytes _ p) view
    obtain ⟨hlt, hold⟩ | ⟨rfl, rfl⟩ := getElem?_concat_cases hp
    · rw [cursorAt_append hlt.le] at hkt ⊢
      have hvw := h.readable hold (by omega)
      have heighth := hvw.length.trans h.shaped.eighth
      refine hvw.written.frame h.shaped.positive (by omega) fun c hc hend => ?_
      exact written_frame h.shaped (lt_of_lt_of_le hend hvw.inside) (by omega)
    · rw [cursorAt_append le_rfl, hla, ← h.sequence]
      exact written_written h.shaped ht hseq

end

end Stored

/-- A reader is at its place of the ring, not more than a lap behind. -/
structure Seated (r : SharedRing) (records : List RecordView) (slot : Nat) (reader : LogReader) : Prop where
  inRange : slot < r.maxReaders
  state : (r.readers slot).state = .active
  token : (r.readers slot).leaseToken = reader.token
  nonzero : reader.token ≠ 0
  position : reader.position ≤ records.length
  cursor : (r.readers slot).cursor = cursorAt r.ringBytes records reader.position
  kept : r.writerCursor ≤ cursorAt r.ringBytes records reader.position + r.ringBytes

structure Attended (r : SharedRing) (log : RingLog) : Prop where
  epoch : log.epoch = r.epoch
  maxReaders : log.maxReaders = r.maxReaders
  free : ∀ i, log.readers i = none → (r.readers i).state = .free
  seated : ∀ i reader, log.readers i = some reader → Seated r log.records i reader

namespace Attended

variable {handle : ReaderHandle} {reader : LogReader}

section

variable (h : Attended r log)

include h

theorem free_iff : (r.readers i).state = .free ↔ (log.readers i).isNone = true := by
  cases hi : log.readers i with
  | none => simp [h.free i hi]
  | some reader =>
    have hst := (h.seated i reader hi).state
    simp [hst]

theorem foldlM_older (slots : List Nat) (cursor : Nat) :
    ∃ oldest, slots.foldlM r.older cursor = some oldest ∧ oldest ≤ cursor ∧
      ∀ i ∈ slots, ∀ reader, log.readers i = some reader →
        oldest ≤ cursorAt r.ringBytes log.records reader.position := by
  induction slots generalizing cursor with
  | nil => exact ⟨cursor, rfl, le_rfl, fun i hi => absurd hi List.not_mem_nil⟩
  | cons slot slots ih =>
    rw [List.foldlM_cons, older]
    cases hsl : log.readers slot with
    | none =>
      obtain ⟨oldest, holdest, hle, hrs⟩ := ih cursor
      rw [h.free slot hsl]
      refine ⟨oldest, holdest, hle, fun i hi reader hr => ?_⟩
      rcases List.mem_cons.mp hi with rfl | hi
      · rw [hsl] at hr
        cases hr
      · exact hrs i hi reader hr
    | some reader =>
      have hseated := h.seated slot reader hsl
      have hcurs := hseated.cursor
      obtain ⟨oldest, holdest, hle, hrs⟩ := ih (min cursor (r.readers slot).cursor)
      rw [hseated.state]
      refine ⟨oldest, holdest, by omega, fun i hi reader' hr => ?_⟩
      rcases List.mem_cons.mp hi with rfl | hi
      · rw [hsl] at hr
        cases hr
        omega
      · exact hrs i hi reader' hr

theorem kept_of_takes (hmd : r.mode = .lossless) (ht : Takes r type payload) {i : Nat}
    (hr : log.readers i = some reader) : r.writerCursor + r.advance (recordLength payload) ≤
      cursorAt r.ringBytes log.records reader.position + r.ringBytes := by
  obtain ⟨oldest, holdest, -, hall⟩ := h.foldlM_older (List.range r.maxReaders) r.writerCursor
  have hrd := hall i (List.mem_range.mpr (h.seated i reader hr).inRange) reader hr
  have hcalm := ht.calm hmd
  unfold backpressure oldestCursor at hcalm
  rw [holdest] at hcalm
  dsimp only at hcalm
  split at hcalm
  next => cases hcalm
  next hrm => omega

theorem validReader_iff : r.validReader handle = true ↔ ∃ reader, log.reader handle = some reader := by
  unfold validReader
  rw [decide_eq_true_iff, ← h.maxReaders, ← h.epoch]
  constructor
  · rintro ⟨hsl, hep, htok, hst⟩
    cases hr : log.readers handle.slot with
    | none =>
      rw [h.free _ hr] at hst
      cases hst
    | some reader =>
      have hse := h.seated _ reader hr
      exact ⟨reader, reader_eq_some.mpr ⟨hep, holder_eq_some.mpr ⟨hsl, hr, hse.token.symm.trans htok⟩⟩⟩
  · rintro ⟨reader, hrd⟩
    obtain ⟨hep, hholder⟩ := reader_eq_some.mp hrd
    obtain ⟨hsl, hr, htok⟩ := holder_eq_some.mp hholder
    have hse := h.seated _ reader hr
    exact ⟨hsl, hep, hse.token.trans htok, hse.state⟩

theorem invalid_of_none (hno : log.reader handle = none) : r.validReader handle = false := by
  by_contra hv
  obtain ⟨reader, hrd⟩ := h.validReader_iff.mp (by simpa using hv)
  rw [hno] at hrd
  cases hrd

theorem seated_of_reader (hrd : log.reader handle = some reader) : Seated r log.records handle.slot reader := by
  obtain ⟨-, hholder⟩ := reader_eq_some.mp hrd
  exact h.seated _ reader (holder_eq_some.mp hholder).2.1

theorem append (hr : Shaped r) (hmd : r.mode = .lossless) (ht : Takes r type payload) :
    Attended (r.written type payload) (log.append type payload) := by
  refine ⟨h.epoch, h.maxReaders, h.free, fun i reader hrd => ?_⟩
  have hse := h.seated i reader hrd
  have hkt := h.kept_of_takes hmd ht hrd
  rw [hr.advance_eq] at hkt
  have hcurs : cursorAt r.ringBytes (log.append type payload).records reader.position =
      cursorAt r.ringBytes log.records reader.position := cursorAt_append hse.position _
  refine ⟨hse.inRange, hse.state, hse.token, hse.nonzero, ?_, hse.cursor.trans hcurs.symm, ?_⟩
  · rw [RingLog.append, List.length_append]
    exact hse.position.trans (Nat.le_add_right _ _)
  · show r.nextStart payload + recordLength payload ≤ cursorAt r.ringBytes _ reader.position + r.ringBytes
    rw [hcurs]
    exact hkt

theorem update (i : Nat) (slot : ReaderSlot) (entry : Option LogReader)
    (hfe : entry = none → slot.state = .free)
    (hseated : ∀ reader, entry = some reader →
      Seated { r with readers := Function.update r.readers i slot } log.records i reader) :
    Attended { r with readers := Function.update r.readers i slot }
      { log with readers := Function.update log.readers i entry } := by
  refine ⟨h.epoch, h.maxReaders, fun j hj => ?_, fun j reader hj => ?_⟩
  · by_cases hji : j = i
    · subst hji
      have hent : entry = none := (update_self j entry log.readers).symm.trans hj
      show (Function.update r.readers j slot j).state = .free
      rw [update_self]
      exact hfe hent
    · have hold : log.readers j = none := (update_of_ne hji entry log.readers).symm.trans hj
      show (Function.update r.readers i slot j).state = .free
      rw [update_of_ne hji]
      exact h.free j hold
  · by_cases hji : j = i
    · subst hji
      exact hseated reader ((update_self j entry log.readers).symm.trans hj)
    · have hold : log.readers j = some reader := (update_of_ne hji entry log.readers).symm.trans hj
      have hse := h.seated j reader hold
      have hsl : Function.update r.readers i slot j = r.readers j := update_of_ne hji _ _
      refine ⟨hse.inRange, ?_, ?_, hse.nonzero, hse.position, ?_, hse.kept⟩
      · exact (congrArg state hsl).trans hse.state
      · exact (congrArg leaseToken hsl).trans hse.token
      · exact (congrArg cursor hsl).trans hse.cursor

end

end Attended

section Forall

variable {α β : Type} {R : α → β → Prop} {l : List α} {l' : List β}

theorem forall₂_getElem? (h : List.Forall₂ R l l') (i : Nat) :
    (l[i]? = none ∧ l'[i]? = none) ∨ ∃ a b, l[i]? = some a ∧ l'[i]? = some b ∧ R a b := by
  induction h generalizing i with
  | nil => exact .inl ⟨rfl, rfl⟩
  | @cons a b _ _ hab _ ih =>
    cases i with
    | zero => exact .inr ⟨a, b, rfl, rfl, hab⟩
    | succ i => exact ih i

theorem forall₂_modify {f : α → α} {g : β → β} (h : List.Forall₂ R l l') (i : Nat)
    (hfg : ∀ a b, R a b → R (f a) (g b)) : List.Forall₂ R (l.modify i f) (l'.modify i g) := by
  induction h generalizing i with
  | nil => cases i <;> exact .nil
  | cons hab hrs ih =>
    cases i with
    | zero => exact .cons (hfg _ _ hab) hrs
    | succ i => exact .cons hab (ih i)

end Forall

theorem newToken_ne_zero (seed : UInt64) : newToken seed ≠ 0 := by
  intro hze
  unfold newToken at hze
  have hnat := congrArg UInt64.toNat hze
  have hbit := congrArg (Nat.testBit · 0) hnat
  simp at hbit

/-- A lease is for the record at its position, and its reader is not behind that. -/
structure Lent (size : Nat) (log : RingLog) (lease : ReadLease) (l : LogLease) : Prop where
  active : lease.active = l.active
  handle : lease.handle = l.handle
  view : lease.view = l.view
  record : log.records[l.position]? = some l.view
  start : lease.recordCursor = startOf size (cursorAt size log.records l.position) (recordLength l.view.payload)
  next : lease.nextCursor = cursorAt size log.records (l.position + 1)
  behind : ∀ reader, log.holder l.handle = some reader → l.position ≤ reader.position

namespace Lent

variable {size : Nat} {lease : ReadLease} {l : LogLease}

section

variable (h : Lent size log lease l)

include h

theorem position_lt : l.position < log.records.length := (getElem?_eq_some_iff.mp h.record).1

theorem append (type : UInt32) (payload : List UInt8) : Lent size (log.append type payload) lease l := by
  have hlt := h.position_lt
  refine ⟨h.active, h.handle, h.view, ?_, ?_, ?_, h.behind⟩
  · rw [RingLog.append, List.getElem?_append_left hlt]
    exact h.record
  · rw [RingLog.append, cursorAt_append hlt.le]
    exact h.start
  · rw [RingLog.append, cursorAt_append hlt]
    exact h.next

theorem update (i : Nat) (entry : Option LogReader)
    (hent : l.handle.slot = i → ∀ reader, entry = some reader → reader.token = l.handle.leaseToken →
      l.position ≤ reader.position) :
    Lent size { log with readers := update log.readers i entry } lease l := by
  refine ⟨h.active, h.handle, h.view, h.record, h.start, h.next, fun reader hr => ?_⟩
  obtain ⟨hsl, hrd, htok⟩ := holder_eq_some.mp hr
  by_cases hi : l.handle.slot = i
  · have hrd : entry = some reader := by
      rw [← hrd, hi]
      exact (update_self i entry log.readers).symm
    exact hent hi reader hrd htok
  · have hrd : log.readers l.handle.slot = some reader := (update_of_ne hi entry log.readers).symm.trans hrd
    exact h.behind reader (holder_eq_some.mpr ⟨hsl, hrd, htok⟩)

theorem spent : Lent size log (RingSession.spent lease) { l with active := false } :=
  ⟨rfl, h.handle, h.view, h.record, h.start, h.next, h.behind⟩

theorem spend (index : Nat) : Lent size (log.spend index) lease l :=
  ⟨h.active, h.handle, h.view, h.record, h.start, h.next, h.behind⟩

theorem lend (handle : ReaderHandle) (pos : Nat) (view : RecordView) : Lent size (log.lend handle pos view) lease l :=
  ⟨h.active, h.handle, h.view, h.record, h.start, h.next, h.behind⟩

end

end Lent

structure Sim (s : RingSession) (log : RingLog) : Prop where
  stored : Stored s.ring log.records
  lossless : s.ring.mode = .lossless
  attended : Attended s.ring log
  leases : List.Forall₂ (Lent s.ring.ringBytes log) s.leases log.leases

end SelfQuant.Mds.Transport
