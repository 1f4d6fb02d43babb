import SelfQuant.MdsSharedRing

namespace SelfQuant.Mds.Transport

open Transport.RecordHeader Memory Nat

variable {size cursor length p q : Nat} {records : List RecordView} {view : RecordView}

theorem recordLength_ge (payload : List UInt8) : kHeaderBytes + payload.length ≤ recordLength payload := by
  unfold recordLength align8
  omega

/-- Where a record starts that is written at a cursor: there, or at the next lap. -/
def startOf (size cursor length : Nat) : Nat :=
  if size - cursor % size < length then cursor + (size - cursor % size) else cursor

theorem le_startOf (size cursor length : Nat) : cursor ≤ startOf size cursor length := by
  unfold startOf
  split
  next => omega
  next => exact le_rfl

theorem startOf_fits (hsz : 0 < size) (hl : length ≤ size) : startOf size cursor length % size + length ≤ size := by
  have hlt := mod_lt cursor hsz
  unfold startOf
  split
  next =>
    rw [mod_next_lap hsz]
    omega
  next => omega

def cursorAfter (size : Nat) (records : List RecordView) : Nat :=
  records.foldl (fun cursor view => startOf size cursor (recordLength view.payload) + recordLength view.payload) 0

/-- The cursor in front of the record at a position, or after the last one. -/
def cursorAt (size : Nat) (records : List RecordView) (p : Nat) : Nat := cursorAfter size (records.take p)

theorem cursorAt_length : cursorAt size records records.length = cursorAfter size records := by
  rw [cursorAt, List.take_length]

theorem cursorAt_succ (h : records[p]? = some view) : cursorAt size records (p + 1) =
    startOf size (cursorAt size records p) (recordLength view.payload) + recordLength view.payload := by
  unfold cursorAt cursorAfter
  rw [List.take_add_one, h, List.foldl_append]
  rfl

theorem cursorAt_append (hp : p ≤ records.length) (views : List RecordView) :
    cursorAt size (records ++ views) p = cursorAt size records p := by
  unfold cursorAt
  rw [List.take_append_of_le_length hp]

theorem cursorAt_le_succ (size : Nat) (h : records[p]? = some view) :
    cursorAt size records p + 40 ≤ cursorAt size records (p + 1) := by
  have hlen := recordLength_ge view.payload
  have hsta := le_startOf size (cursorAt size records p) (recordLength view.payload)
  rw [cursorAt_succ h]
  unfold kHeaderBytes at hlen
  omega

theorem cursorAt_mono (hpq : p ≤ q) (hq : q ≤ records.length) :
    cursorAt size records p ≤ cursorAt size records q := by
  induction q, hpq using le_induction with
  | base => exact le_rfl
  | succ q hpq ih =>
    have hvw := List.getElem?_eq_getElem (show q < records.length by omega)
    have hst := cursorAt_le_succ size hvw
    omega

theorem header_le_cursorAt (size : Nat) (hp : p ≤ records.length) : 40 * p ≤ cursorAt size records p := by
  induction p with
  | zero => exact zero_le _
  | succ p ih =>
    obtain ⟨view, hvw⟩ : ∃ view, records[p]? = some view :=
      ⟨_, List.getElem?_eq_getElem (show p < records.length by omega)⟩
    have hst := cursorAt_le_succ size hvw
    omega

theorem getElem?_concat_cases {last : RecordView} (h : (records ++ [last])[p]? = some view) :
    (p < records.length ∧ records[p]? = some view) ∨ (p = records.length ∧ view = last) := by
  by_cases hlt : p < records.length
  · rw [List.getElem?_append_left hlt] at h
    exact .inl ⟨hlt, h⟩
  · have hbd := (getElem?_eq_some_iff.mp h).1
    rw [List.length_append, List.length_singleton] at hbd
    obtain rfl : p = records.length := by omega
    rw [List.getElem?_concat_length] at h
    exact .inr ⟨rfl, (Option.some.inj h).symm⟩

namespace RecordHeader

variable {m m' : Memory} {a n : Nat} {h : RecordHeader}

structure Bounded (h : RecordHeader) : Prop where
  length : h.length < 2 ^ 32
  type : h.type < 2 ^ 32
  payloadBytes : h.payloadBytes < 2 ^ 32
  payloadCrc32c : h.payloadCrc32c < 2 ^ 32
  epoch : h.epoch < 2 ^ 64
  sequence : h.sequence < 2 ^ 64
  commitSequence : h.commitSequence < 2 ^ 64

@[simp] theorem length_bytes : h.bytes.length = kHeaderBytes := by
  simp [bytes, kHeaderBytes]

theorem load_field {b k : Nat} (hb : b + k ≤ kHeaderBytes) (hpart : (h.bytes.drop b).take k = littleEndian k n)
    (hn : n < 256 ^ k) : (m.store a h.bytes).loadNat (a + b) k = n := by
  rw [← length_bytes] at hb
  rw [loadNat, load_store_part hb, hpart, ofLittleEndian_littleEndian, mod_eq_of_lt hn]

theorem read_store (hb : h.Bounded) : read (m.store a h.bytes) a = h := by
  have hlen : (m.store a h.bytes).loadNat a 4 = h.length := load_field (b := 0) (by decide) rfl hb.length
  have hty : (m.store a h.bytes).loadNat (a + 4) 4 = h.type := load_field (by decide) rfl hb.type
  have hpay : (m.store a h.bytes).loadNat (a + 8) 4 = h.payloadBytes := load_field (by decide) rfl hb.payloadBytes
  have hcrc : (m.store a h.bytes).loadNat (a + 12) 4 = h.payloadCrc32c := load_field (by decide) rfl hb.payloadCrc32c
  have hep : (m.store a h.bytes).loadNat (a + 16) 8 = h.epoch := load_field (by decide) rfl hb.epoch
  have hseq : (m.store a h.bytes).loadNat (a + 24) 8 = h.sequence := load_field (by decide) rfl hb.sequence
  have hcom : (m.store a h.bytes).loadNat (a + 32) 8 = h.commitSequence :=
    load_field (by decide) rfl hb.commitSequence
  unfold read
  rw [hlen, hty, hpay, hcrc, hep, hseq, hcom]

theorem read_congr_commit (hm : ∀ i < 32, m' (a + i) = m (a + i)) (hn : m'.loadNat (a + 32) 8 = n) :
    read m' a = { read m a with commitSequence := n } := by
  have hwd : ∀ b k, b + k ≤ 32 → m'.loadNat (a + b) k = m.loadNat (a + b) k := fun b k hbk =>
    loadNat_congr fun i hi => by
      rw [add_assoc]
      exact hm (b + i) (by omega)
  have hfst : m'.loadNat a 4 = m.loadNat a 4 := hwd 0 4 (by decide)
  unfold read
  rw [hn, hfst, hwd 4 4 (by decide), hwd 8 4 (by decide), hwd 12 4 (by decide),
    hwd 16 8 (by decide), hwd 24 8 (by decide)]

theorem read_congr (hm : ∀ i < kHeaderBytes, m' (a + i) = m (a + i)) : read m' a = read m a := by
  have hcom : m'.loadNat (a + 32) 8 = m.loadNat (a + 32) 8 := loadNat_congr fun i hi => by
    rw [add_assoc]
    exact hm (32 + i) (by unfold kHeaderBytes; omega)
  exact read_congr_commit (fun i hi => hm i (by unfold kHeaderBytes; omega)) hcom

end RecordHeader

section WriteRecord

variable {m m' : Memory} {offset length sequence size cursor : Nat} {type : UInt32}
  {payload : List UInt8} {epoch : UInt64} {view : RecordView}

def headerOf (view : RecordView) : RecordHeader where
  length := recordLength view.payload
  type := view.type.toNat
  payloadBytes := view.payload.length
  payloadCrc32c := (crc32c view.payload).toNat
  epoch := view.epoch.toNat
  sequence := view.sequence
  commitSequence := view.sequence

namespace SharedRing

section

variable {a : Nat} (hl : kHeaderBytes + payload.length ≤ length) (ha : a < offset ∨ offset + length ≤ a)

include hl ha

theorem writeBody_outside :
    writeBody m offset length type payload epoch sequence a = m a := by
  unfold writeBody
  split
  next =>
    rw [store_outside (by rw [List.length_replicate]; omega), store_outside (by omega),
      store_outside (by rw [length_bytes]; omega)]
  next =>
    rw [store_outside (by omega), store_outside (by rw [length_bytes]; omega)]

theorem writeRecord_outside :
    writeRecord m offset length type payload epoch sequence a = m a := by
  have hhdr : kHeaderBytes = 40 := rfl
  unfold writeRecord
  rw [store_outside (by rw [length_littleEndian]; omega), writeBody_outside hl ha]

end

theorem read_writeBody (hl : recordLength view.payload < 2 ^ 32) (hs : view.sequence < 2 ^ 64) :
    read (writeBody m offset (recordLength view.payload) view.type view.payload view.epoch
      view.sequence) offset = { headerOf view with commitSequence := 0 } := by
  have hlen := recordLength_ge view.payload
  have hbdd : Bounded { headerOf view with commitSequence := 0 } :=
    ⟨hl, view.type.toNat_lt, by show view.payload.length < 2 ^ 32; omega,
      (crc32c view.payload).toNat_lt, view.epoch.toNat_lt, hs, Nat.two_pow_pos 64⟩
  rw [← read_store (m := m) (a := offset) hbdd]
  apply read_congr
  intro i hi
  unfold writeBody
  split
  next => rw [store_outside (by omega), store_outside (by omega)]; rfl
  next => rw [store_outside (by omega)]; rfl

theorem read_writeRecord (view : RecordView) (hl : recordLength view.payload < 2 ^ 32)
    (hs : view.sequence < 2 ^ 64) :
    read (writeRecord m offset (recordLength view.payload) view.type view.payload view.epoch
      view.sequence) offset = headerOf view := by
  have hcom : (writeRecord m offset (recordLength view.payload) view.type view.payload view.epoch
      view.sequence).loadNat (offset + 32) 8 = view.sequence := by
    have hwd := loadNat_store (m := writeBody m offset (recordLength view.payload) view.type
      view.payload view.epoch view.sequence) (a := offset + 32) (k := 8) [] [] rfl hs
    exact hwd
  have hrs : ∀ i < 32, writeRecord m offset (recordLength view.payload) view.type view.payload view.epoch
      view.sequence (offset + i) = writeBody m offset (recordLength view.payload) view.type view.payload
        view.epoch view.sequence (offset + i) := fun i hi => store_outside (by omega)
  rw [read_congr_commit hrs hcom, read_writeBody hl hs]
  rfl

theorem load_writeRecord :
    (writeRecord m offset length type payload epoch sequence).load (offset + kHeaderBytes) payload.length =
      payload := by
  unfold writeRecord writeBody
  rw [load_store_of_disjoint (by rw [length_littleEndian]; unfold kHeaderBytes; omega)]
  split
  next => rw [load_store_of_disjoint (by omega), load_store_self]
  next => rw [load_store_self]

end SharedRing

end WriteRecord

section Written

variable {m m' : Memory} {size cursor : Nat} {view : RecordView}

/-- A record that was written at a cursor, with the padding in front of it. -/
structure Written (m : Memory) (size cursor : Nat) (view : RecordView) : Prop where
  padding : size - cursor % size < recordLength view.payload → kHeaderBytes ≤ size - cursor % size →
    (read m (cursor % size)).length = size - cursor % size ∧
    (read m (cursor % size)).type = kPaddingType.toNat
  header : read m (startOf size cursor (recordLength view.payload) % size) = headerOf view
  payload : m.load (startOf size cursor (recordLength view.payload) % size + kHeaderBytes)
    view.payload.length = view.payload

theorem Written.frame (h : Written m size cursor view) (hsz : 0 < size)
    (hl : recordLength view.payload ≤ size)
    (hm : ∀ c, cursor ≤ c →
      c < startOf size cursor (recordLength view.payload) + recordLength view.payload →
      m' (c % size) = m (c % size)) : Written m' size cursor view := by
  have hlen := recordLength_ge view.payload
  have hft : startOf size cursor (recordLength view.payload) % size + recordLength view.payload ≤ size :=
    startOf_fits hsz hl
  have hsta := le_startOf size cursor (recordLength view.payload)
  have hpl : ∀ i < recordLength view.payload,
      m' (startOf size cursor (recordLength view.payload) % size + i) =
        m (startOf size cursor (recordLength view.payload) % size + i) := by
    intro i hi
    rw [← add_mod_of_lt (by omega)]
    exact hm _ (by omega) (by omega)
  refine ⟨fun hpad hrm => ?_, ?_, ?_⟩
  · have hsm : read m' (cursor % size) = read m (cursor % size) := by
      apply read_congr
      intro i hi
      rw [← add_mod_of_lt (by omega)]
      exact hm _ (by omega) (by omega)
    rw [hsm]
    exact h.padding hpad hrm
  · rw [← h.header]
    exact read_congr fun i hi => hpl i (by omega)
  · have hld : m'.load (startOf size cursor (recordLength view.payload) % size + kHeaderBytes)
        view.payload.length = m.load (startOf size cursor (recordLength view.payload) % size + kHeaderBytes)
        view.payload.length := by
      apply load_congr
      intro i hi
      rw [add_assoc]
      exact hpl _ (by omega)
    rw [hld]
    exact h.payload

end Written

namespace SharedRing

variable {r : SharedRing} {type : UInt32} {payload : List UInt8} {cursor c : Nat}

structure Shaped (r : SharedRing) : Prop where
  power : ∃ k, r.ringBytes = 2 ^ k
  header : kHeaderBytes ≤ r.maxRecordBytes
  eighth : r.maxRecordBytes ≤ r.ringBytes / 8
  word : r.maxRecordBytes < 2 ^ 32

def nextStart (r : SharedRing) (payload : List UInt8) : Nat :=
  startOf r.ringBytes r.writerCursor (recordLength payload)

def written (r : SharedRing) (type : UInt32) (payload : List UInt8) : SharedRing :=
  { r with
    nextSequence := r.nextSequence + 1, writerCursor := r.nextStart payload + recordLength payload
    data := writeRecord
      (if r.remaining r.writerCursor < recordLength payload then
        r.writePadding (r.writerCursor % r.ringBytes) (r.remaining r.writerCursor) else r.data)
      (r.nextStart payload % r.ringBytes) (recordLength payload) type payload r.epoch r.nextSequence }

structure Takes (r : SharedRing) (type : UInt32) (payload : List UInt8) : Prop where
  type : type ≠ kPaddingType
  length : recordLength payload ≤ r.maxRecordBytes
  calm : r.mode = .lossless → r.backpressure (r.advance (recordLength payload)) = none

theorem publish_cases : (∃ error, r.publish type payload = (.error error, r)) ∨
      (Takes r type payload ∧ r.publish type payload = (.ok r.nextSequence, r.append type payload)) := by
  unfold publish
  split
  next => exact .inl ⟨_, rfl⟩
  split
  next => exact .inl ⟨_, rfl⟩
  next hbad =>
  split
  next error _ => exact .inl ⟨error, rfl⟩
  next hcalm =>
  refine .inr ⟨⟨fun ht => hbad (.inl ht), by omega, fun hmd => ?_⟩, rfl⟩
  rw [if_pos hmd] at hcalm
  exact hcalm

theorem paddingHeader_bounded (epoch : UInt64) {rest : Nat} (hr : rest < 2 ^ 32) :
    (paddingHeader epoch rest).Bounded :=
  ⟨hr, kPaddingType.toNat_lt, Nat.two_pow_pos 32, Nat.two_pow_pos 32, epoch.toNat_lt, Nat.two_pow_pos 64,
    Nat.one_lt_two_pow (by decide)⟩

section

variable (h : Shaped r)

include h

theorem Shaped.positive : 0 < r.ringBytes := by
  obtain ⟨k, hk⟩ := h.power
  rw [hk]
  exact Nat.two_pow_pos k

theorem Shaped.offset_eq : r.offset cursor = cursor % r.ringBytes := by
  obtain ⟨k, hk⟩ := h.power
  unfold offset
  rw [hk]
  exact and_two_pow_sub_one_eq_mod cursor k

theorem Shaped.remaining_eq (cursor : Nat) : r.remaining cursor = r.ringBytes - cursor % r.ringBytes := by
  rw [remaining, h.offset_eq]

theorem Shaped.advance_eq :
    r.writerCursor + r.advance (recordLength payload) = r.nextStart payload + recordLength payload := by
  unfold advance nextStart startOf
  rw [h.remaining_eq]
  split
  next => omega
  next => rfl

theorem nextStart_padded (hpad : r.remaining r.writerCursor < recordLength payload) :
    r.nextStart payload = r.writerCursor + r.remaining r.writerCursor ∧ r.nextStart payload % r.ringBytes = 0 := by
  rw [h.remaining_eq] at hpad ⊢
  have hsta : r.nextStart payload = r.writerCursor + (r.ringBytes - r.writerCursor % r.ringBytes) := if_pos hpad
  exact ⟨hsta, hsta ▸ mod_next_lap h.positive⟩

theorem append_eq (hcurs : r.writerCursor + r.advance (recordLength payload) < 2 ^ 64)
    (hseq : r.nextSequence + 1 < 2 ^ 64) : r.append type payload = r.written type payload := by
  rw [h.advance_eq] at hcurs
  have hwrap : ∀ n < 2 ^ 64, wrap64 n = n := fun n hn => mod_eq_of_lt hn
  unfold append written
  rw [h.offset_eq, hwrap _ hseq]
  by_cases hpad : r.remaining r.writerCursor < recordLength payload
  · obtain ⟨hsta, hze⟩ := nextStart_padded h hpad
    simp only [hpad, decide_true, if_true, hze]
    have hlap : r.nextStart payload < 2 ^ 64 := by omega
    rw [← hsta, hwrap _ hlap, hwrap _ hcurs]
  · have hsta : r.nextStart payload = r.writerCursor := if_neg (h.remaining_eq _ ▸ hpad)
    simp only [hpad, decide_false, Bool.false_eq_true, if_false, hsta]
    rw [hwrap _ (by omega)]

theorem written_frame (hc : c < r.writerCursor)
    (hlap : r.nextStart payload + recordLength payload ≤ c + r.ringBytes) :
    (r.written type payload).data (c % r.ringBytes) = r.data (c % r.ringBytes) := by
  have hsta := le_startOf r.ringBytes r.writerCursor (recordLength payload)
  have hbeh : c < r.nextStart payload := lt_of_lt_of_le hc hsta
  unfold written
  dsimp only
  rw [writeRecord_outside (recordLength_ge payload) (mod_outside h.positive hbeh hlap)]
  split
  next hpad =>
    obtain ⟨hnx, -⟩ := nextStart_padded h hpad
    unfold writePadding
    split
    next hrm =>
      refine store_outside ?_
      rw [length_bytes]
      exact mod_outside h.positive hc (by omega)
    next => rfl
  next => rfl

theorem written_written (ht : Takes r type payload) (hs : r.nextSequence < 2 ^ 64) :
    Written (r.written type payload).data r.ringBytes r.writerCursor ⟨type, r.nextSequence, r.epoch, payload⟩ := by
  have hlen := ht.length
  have hwd := h.word
  have heighth := h.eighth
  refine ⟨fun hpad hrm => ?_, ?_, ?_⟩
  · have hpad : r.remaining r.writerCursor < recordLength payload := h.remaining_eq _ ▸ hpad
    have hrm : kHeaderBytes ≤ r.remaining r.writerCursor := h.remaining_eq _ ▸ hrm
    have hbdd := paddingHeader_bounded r.epoch (show r.remaining r.writerCursor < 2 ^ 32 by omega)
    have hze := (nextStart_padded h hpad).2
    have hrem := h.remaining_eq r.writerCursor
    -- the record starts at the first place of the ring and does not reach the padding
    have hhdr : read (r.written type payload).data (r.writerCursor % r.ringBytes) =
        paddingHeader r.epoch (r.remaining r.writerCursor) := by
      rw [← read_store (m := r.data) (a := r.writerCursor % r.ringBytes) hbdd]
      apply read_congr
      intro i hi
      unfold written writePadding
      dsimp only
      rw [writeRecord_outside (recordLength_ge payload) (by omega), if_pos hpad, if_pos hrm]
    rw [hhdr]
    exact ⟨hrem, rfl⟩
  · exact read_writeRecord ⟨type, r.nextSequence, r.epoch, payload⟩ (by show recordLength payload < 2 ^ 32; omega) hs
  · exact load_writeRecord

end

end SharedRing

namespace SharedRing

variable {r : SharedRing} {cursor fuel : Nat} {view : RecordView} {handle : ReaderHandle}

def moved (r : SharedRing) (slot cursor : Nat) : SharedRing :=
  { r with readers := Function.update r.readers slot { r.readers slot with cursor := cursor } }

structure Readable (r : SharedRing) (cursor : Nat) (view : RecordView) : Prop where
  type : view.type ≠ kPaddingType
  sequence : view.sequence ≠ 0
  epoch : view.epoch = r.epoch
  length : recordLength view.payload ≤ r.maxRecordBytes
  inside : startOf r.ringBytes cursor (recordLength view.payload) + recordLength view.payload ≤ r.writerCursor
  kept : r.writerCursor ≤ cursor + r.ringBytes
  word : r.writerCursor < 2 ^ 64
  written : Written r.data r.ringBytes cursor view

namespace Readable

def start (r : SharedRing) (cursor : Nat) (view : RecordView) : Nat :=
  startOf r.ringBytes cursor (recordLength view.payload)

def lease (r : SharedRing) (handle : ReaderHandle) (cursor : Nat) (view : RecordView) : ReadLease where
  handle := handle
  recordCursor := start r cursor view
  nextCursor := start r cursor view + recordLength view.payload
  view := view

section

variable (h : Readable r cursor view)

include h

theorem not_overwritten {c : Nat} (hc : cursor ≤ c) (hs : c ≤ start r cursor view) : r.overwritten c = false := by
  have hins := h.inside
  have hkt := h.kept
  have hend : start r cursor view + recordLength view.payload ≤ r.writerCursor := hins
  unfold overwritten
  rw [decide_eq_false_iff_not]
  omega

theorem placed : cursor ≤ start r cursor view ∧ kHeaderBytes + view.payload.length ≤ recordLength view.payload ∧
    start r cursor view + recordLength view.payload ≤ r.writerCursor :=
  ⟨le_startOf _ _ _, recordLength_ge _, h.inside⟩

theorem findRecord_start (hr : Shaped r) :
    r.findRecord handle (fuel + 1) (start r cursor view) = some (.ok (lease r handle cursor view)) := by
  have hpl := h.placed
  have heighth := h.length.trans hr.eighth
  have hft : start r cursor view % r.ringBytes + recordLength view.payload ≤ r.ringBytes :=
    startOf_fits hr.positive (by omega)
  have hwd := h.word
  have hhdr : read r.data (start r cursor view % r.ringBytes) = headerOf view := h.written.header
  have hpay : r.data.load (start r cursor view % r.ringBytes + kHeaderBytes) view.payload.length =
      view.payload := h.written.payload
  have hintact := h.not_overwritten hpl.1 le_rfl
  have hty : view.type.toNat ≠ kPaddingType.toNat := fun heq => h.type (UInt32.toNat_inj.mp heq)
  have hwrap : wrap64 (start r cursor view + recordLength view.payload) =
      start r cursor view + recordLength view.payload := mod_eq_of_lt (by omega)
  unfold findRecord
  simp only [hr.remaining_eq, hr.offset_eq, hhdr, headerOf]
  rw [if_neg (by omega), if_neg (by have := h.length; omega), if_neg hty,
    if_neg (by simp [h.sequence]), if_neg (by rw [h.epoch]; simp; omega), hpay, hintact]
  simp [lease, hwrap]

theorem findRecord_eq (hr : Shaped r) :
    r.findRecord handle (fuel + 2) cursor = some (.ok (lease r handle cursor view)) := by
  have hwd := h.word
  have hlen := h.length
  have hpl := h.placed
  by_cases hpad : r.ringBytes - cursor % r.ringBytes < recordLength view.payload
  · have hsta : start r cursor view = cursor + (r.ringBytes - cursor % r.ringBytes) := if_pos hpad
    have hnx : wrap64 (cursor + (r.ringBytes - cursor % r.ringBytes)) = start r cursor view := by
      rw [← hsta]
      exact mod_eq_of_lt (by omega)
    unfold findRecord
    simp only [hr.remaining_eq, hr.offset_eq]
    split
    next =>
      rw [hnx]
      exact h.findRecord_start hr
    next hrm =>
      obtain ⟨hpadding, hty⟩ := h.written.padding hpad (by omega)
      rw [hpadding, hty, if_neg (by omega), h.not_overwritten le_rfl (by omega), hnx]
      exact h.findRecord_start hr
  · have hsta : start r cursor view = cursor := if_neg hpad
    have hfound : r.findRecord handle (fuel + 1 + 1) (start r cursor view) =
        some (.ok (lease r handle cursor view)) := h.findRecord_start hr
    rw [hsta] at hfound
    exact hfound

theorem tryRead_eq (hr : Shaped r) (hv : r.validReader handle = true)
    (hcurs : (r.readers handle.slot).cursor = cursor) :
    r.tryRead (fuel + 2) handle = some (.ok (lease r handle cursor view)) := by
  have hpl := h.placed
  unfold kHeaderBytes at hpl
  have hwd := h.word
  have hkt := h.kept
  have hsub : sub64 r.writerCursor cursor = r.writerCursor - cursor := by
    unfold sub64 wrap64
    omega
  unfold tryRead
  simp only [hv, Bool.not_true, Bool.false_eq_true, if_false, hcurs]
  rw [if_neg (by omega), if_neg (by omega)]
  exact h.findRecord_eq hr

theorem commitRead_eq {lease : ReadLease} (hr : Shaped r)
    (hv : r.validReader lease.handle = true) (hcurs : (r.readers lease.handle.slot).cursor = cursor)
    (hsta : lease.recordCursor = start r cursor view)
    (hnx : lease.nextCursor = start r cursor view + recordLength view.payload) (hvw : lease.view = view) :
    r.commitRead lease = (.ok (), r.moved lease.handle.slot lease.nextCursor) := by
  have hpl := h.placed
  unfold kHeaderBytes at hpl
  have hkt := h.kept
  have hrec : (read r.data (r.offset lease.recordCursor)).commitSequence = lease.view.sequence := by
    rw [hsta, hr.offset_eq, hvw]
    exact congrArg commitSequence h.written.header
  unfold commitRead
  simp only [hv, Bool.not_true, Bool.false_eq_true, if_false, hrec, ne_eq, not_true_eq_false]
  rw [if_neg (by omega), if_neg (by omega)]
  rfl

end

end Readable

theorem tryRead_end (hv : r.validReader handle = true)
    (hcurs : (r.readers handle.slot).cursor = r.writerCursor) :
    r.tryRead fuel handle = some (.error .quotaExceeded) := by
  unfold tryRead
  simp only [hv, Bool.not_true, Bool.false_eq_true, if_false, hcurs, if_true]

theorem tryRead_invalid (hv : r.validReader handle = false) :
    r.tryRead fuel handle = some (.error .invalidHandle) := by
  unfold tryRead
  simp only [hv, Bool.not_false, if_true]

theorem commitRead_invalid {lease : ReadLease} (hv : r.validReader lease.handle = false) :
    ∃ error, r.commitRead lease = (.error error, r) := by
  unfold commitRead
  simp only [hv]
  exact ⟨_, rfl⟩

theorem commitRead_stale {lease : ReadLease} (hnx : lease.nextCursor ≤ (r.readers lease.handle.slot).cursor) :
    ∃ error, r.commitRead lease = (.error error, r) := by
  unfold commitRead
  dsimp only
  split
  next => exact ⟨_, rfl⟩
  split
  next => exact ⟨_, rfl⟩
  split
  next => exact ⟨_, rfl⟩
  rw [if_pos (.inl hnx)]
  exact ⟨_, rfl⟩

end SharedRing

end SelfQuant.Mds.Transport
