import SelfQuant.ByteMemory

namespace SelfQuant.Mds.Transport

inductive ErrorCode
  | invalidConfig | quotaExceeded | subscriptionRejected | recordOverwritten | invalidHandle | internalError
deriving DecidableEq

structure ApiError where
  code : ErrorCode
  message : String := ""
deriving DecidableEq

inductive RingMode
  | overwriteOldest | lossless
deriving DecidableEq

inductive ReaderState
  | free | initializing | active | suspect
deriving DecidableEq

def kPaddingType : UInt32 := 0

def kMaxReaders : Nat := 64

def kHeaderBytes : Nat := 40

def align8 (value : Nat) : Nat := (value + 7) / 8 * 8

def recordLength (payload : List UInt8) : Nat := align8 (kHeaderBytes + payload.length)

def isPowerOfTwo (value : Nat) : Bool := decide (value ≠ 0 ∧ value &&& (value - 1) = 0)

def wrap64 (value : Nat) : Nat := value % 2 ^ 64

def sub64 (a b : Nat) : Nat := wrap64 (a + 2 ^ 64 - b)

def crc32cBit (crc : UInt32) : UInt32 := (crc >>> 1) ^^^ (0x82f63b78 &&& (0 - (crc &&& 1)))

def crc32c (bytes : List UInt8) : UInt32 :=
  ~~~ bytes.foldl (fun crc byte => Nat.iterate crc32cBit 8 (crc ^^^ byte.toUInt32)) 0xffffffff

/-- A token from a seed made of the clock and the process. -/
def newToken (seed : UInt64) : UInt64 :=
  let x := seed ^^^ (seed >>> 12)
  let x := x ^^^ (x <<< 25)
  let x := x ^^^ (x >>> 27)
  (x * 0x2545F4914F6CDD1D) ||| 1

structure RecordHeader where
  (length type payloadBytes payloadCrc32c epoch sequence commitSequence : Nat)
deriving DecidableEq

namespace RecordHeader

def bytes (h : RecordHeader) : List UInt8 :=
  littleEndian 4 h.length ++ littleEndian 4 h.type ++ littleEndian 4 h.payloadBytes ++
    littleEndian 4 h.payloadCrc32c ++ littleEndian 8 h.epoch ++ littleEndian 8 h.sequence ++
    littleEndian 8 h.commitSequence

def read (m : Memory) (a : Nat) : RecordHeader where
  length := m.loadNat a 4
  type := m.loadNat (a + 4) 4
  payloadBytes := m.loadNat (a + 8) 4
  payloadCrc32c := m.loadNat (a + 12) 4
  epoch := m.loadNat (a + 16) 8
  sequence := m.loadNat (a + 24) 8
  commitSequence := m.loadNat (a + 32) 8

end RecordHeader

structure ReaderSlot where
  state : ReaderState := .free
  leaseToken : UInt64 := 0
  cursor : Nat := 0

structure ReaderHandle where
  slot : Nat
  (leaseToken epoch : UInt64)
deriving DecidableEq

structure RecordView where
  type : UInt32
  sequence : Nat
  epoch : UInt64
  payload : List UInt8
deriving DecidableEq

/-- A record that a reader has got and not consumed yet; `active` until it is committed or released. -/
structure ReadLease where
  active : Bool := true
  handle : ReaderHandle
  (recordCursor nextCursor : Nat)
  view : RecordView

structure RingOptions where
  mode : RingMode
  (ringBytes maxRecordBytes maxReaders : Nat)

structure SharedRing where
  mode : RingMode
  (ringBytes maxRecordBytes maxReaders : Nat)
  epoch : UInt64
  writerCursor : Nat := 0
  nextSequence : Nat := 1
  readers : Nat → ReaderSlot := fun _ => {}
  data : Memory := fun _ => 0

namespace SharedRing

def openRing (options : RingOptions) (seed : UInt64) : Except ApiError SharedRing :=
  if options.maxReaders = 0 ∨ options.maxReaders > kMaxReaders ∨ !isPowerOfTwo options.ringBytes ∨
      options.maxRecordBytes < kHeaderBytes ∨ options.maxRecordBytes > 2 ^ 32 - 1 ∨
      options.maxRecordBytes > options.ringBytes / 8 then
    .error ⟨.invalidConfig, "ring size must be power-of-two and record <= ring/8"⟩
  else .ok
    { mode := options.mode, ringBytes := options.ringBytes, maxRecordBytes := options.maxRecordBytes
      maxReaders := options.maxReaders, epoch := newToken seed }

variable (r : SharedRing)

def older (oldest i : Nat) : Option Nat :=
  match (r.readers i).state with
  | .initializing => none
  | .suspect => none
  | .active => some (min oldest (r.readers i).cursor)
  | .free => some oldest

def oldestCursor : Option Nat := (List.range r.maxReaders).foldlM r.older r.writerCursor

def backpressure (r : SharedRing) (advance : Nat) : Option ApiError :=
  match r.oldestCursor with
  | none => some ⟨.quotaExceeded, "reader state transition applies backpressure"⟩
  | some oldest =>
    if r.writerCursor < oldest ∨ advance > r.ringBytes ∨ r.writerCursor - oldest > r.ringBytes - advance then
      some ⟨.quotaExceeded, "slow reader prevents ring overwrite"⟩
    else none

def paddingHeader (epoch : UInt64) (remaining : Nat) : RecordHeader where
  length := remaining
  type := kPaddingType.toNat
  payloadBytes := 0
  payloadCrc32c := 0
  epoch := epoch.toNat
  sequence := 0
  commitSequence := 1

def writePadding (offset remaining : Nat) : Memory :=
  if remaining ≥ kHeaderBytes then r.data.store offset (paddingHeader r.epoch remaining).bytes
  else r.data

def writeBody (m : Memory) (offset length : Nat) (type : UInt32) (payload : List UInt8)
    (epoch : UInt64) (sequence : Nat) : Memory :=
  let m := m.store offset (RecordHeader.bytes
    { length := length, type := type.toNat, payloadBytes := payload.length
      payloadCrc32c := (crc32c payload).toNat, epoch := epoch.toNat, sequence := sequence
      commitSequence := 0 })
  let m := m.store (offset + kHeaderBytes) payload
  if length > kHeaderBytes + payload.length then
    m.store (offset + kHeaderBytes + payload.length) (List.replicate (length - kHeaderBytes - payload.length) 0)
  else m

def writeRecord (m : Memory) (offset length : Nat) (type : UInt32) (payload : List UInt8)
    (epoch : UInt64) (sequence : Nat) : Memory :=
  (writeBody m offset length type payload epoch sequence).store (offset + 32) (littleEndian 8 sequence)

def offset (cursor : Nat) : Nat := cursor &&& (r.ringBytes - 1)

def remaining (cursor : Nat) : Nat := r.ringBytes - r.offset cursor

def advance (length : Nat) : Nat :=
  if r.remaining r.writerCursor < length then r.remaining r.writerCursor + length else length

/-- Write a record at the cursor, or at the next lap if it does not fit, and go on behind it. -/
def append (type : UInt32) (payload : List UInt8) : SharedRing :=
  let length := recordLength payload
  let offset := r.offset r.writerCursor
  let remaining := r.remaining r.writerCursor
  let padded := decide (remaining < length)
  let data := if padded then r.writePadding offset remaining else r.data
  let cursor := if padded then wrap64 (r.writerCursor + remaining) else r.writerCursor
  let offset := if padded then 0 else offset
  { r with
    nextSequence := wrap64 (r.nextSequence + 1)
    data := writeRecord data offset length type payload r.epoch r.nextSequence
    writerCursor := wrap64 (cursor + length) }

def publish (type : UInt32) (payload : List UInt8) : Except ApiError Nat × SharedRing :=
  let tooLong : ApiError := ⟨.invalidConfig, "record exceeds configured maximum"⟩
  if payload.length > r.maxRecordBytes - kHeaderBytes then (.error tooLong, r)
  else if type = kPaddingType ∨ recordLength payload > r.maxRecordBytes then (.error tooLong, r)
  else
    match if r.mode = .lossless then r.backpressure (r.advance (recordLength payload)) else none with
    | some error => (.error error, r)
    | none => (.ok r.nextSequence, r.append type payload)

def registerReader (seed : UInt64) : Except ApiError ReaderHandle × SharedRing :=
  match (List.range r.maxReaders).find? fun i => (r.readers i).state = .free with
  | none => (.error ⟨.quotaExceeded, "reader registry is full"⟩, r)
  | some i =>
    let token := newToken seed
    (.ok ⟨i, token, r.epoch⟩, { r with readers := Function.update r.readers i ⟨.active, token, r.writerCursor⟩ })

def validReader (handle : ReaderHandle) : Bool :=
  decide (handle.slot < r.maxReaders ∧ handle.epoch = r.epoch ∧
    (r.readers handle.slot).leaseToken = handle.leaseToken ∧
    (r.readers handle.slot).state = .active)

def unregisterReader (handle : ReaderHandle) : Except ApiError Unit × SharedRing :=
  let gone : ApiError := ⟨.invalidHandle, "reader lease is no longer held"⟩
  if handle.slot ≥ r.maxReaders then (.error ⟨.internalError, "reader slot is out of range"⟩, r)
  else if handle.leaseToken = 0 then (.error gone, r)
  else
    let slot := r.readers handle.slot
    if slot.leaseToken ≠ handle.leaseToken then (.error gone, r)
    else
      match slot.state with
      | .suspect => (.error ⟨.quotaExceeded, "reader unregister is in progress"⟩, r)
      | .initializing => (.error ⟨.quotaExceeded, "reader unregister is in progress"⟩, r)
      | .free => (.error gone, r)
      | .active => (.ok (), { r with
          readers := Function.update r.readers handle.slot { slot with state := .free, leaseToken := 0 } })

/-- Within a call the number of a record does not change, so that only the cursors tell. -/
def overwritten (cursor : Nat) : Bool := decide (r.writerCursor < cursor ∨ r.writerCursor - cursor > r.ringBytes)

/-- The record at a cursor, behind padding and the rest of the ring. -/
def findRecord (r : SharedRing) (handle : ReaderHandle) : Nat → Nat → Option (Except ErrorCode ReadLease)
  | 0, _ => none
  | fuel + 1, cursor =>
    let failed (code : ErrorCode) : Option (Except ErrorCode ReadLease) :=
      some (.error (if r.overwritten cursor then .recordOverwritten else code))
    let remaining := r.remaining cursor
    if remaining < kHeaderBytes then findRecord r handle fuel (wrap64 (cursor + remaining))
    else
      let record := RecordHeader.read r.data (r.offset cursor)
      if record.length < kHeaderBytes ∨ record.length > remaining ∨ record.length > r.maxRecordBytes then
        failed .internalError
      else if record.type = kPaddingType.toNat then
        if r.overwritten cursor then some (.error .recordOverwritten)
        else findRecord r handle fuel (wrap64 (cursor + record.length))
      else if record.commitSequence = 0 ∨ record.commitSequence ≠ record.sequence then failed .quotaExceeded
      else if record.epoch ≠ r.epoch.toNat ∨ record.payloadBytes > record.length - kHeaderBytes then
        failed .internalError
      else
        let payload := r.data.load (r.offset cursor + kHeaderBytes) record.payloadBytes
        if r.overwritten cursor then some (.error .recordOverwritten)
        else if (crc32c payload).toNat ≠ record.payloadCrc32c then some (.error .internalError)
        else some (.ok
          { handle := handle, recordCursor := cursor, nextCursor := wrap64 (cursor + record.length)
            view := ⟨UInt32.ofNat record.type, record.sequence, UInt64.ofNat record.epoch, payload⟩ })

/-- The next record of a reader, which is not consumed by this; `none` if the search takes more than
`fuel` rounds. -/
def tryRead (fuel : Nat) (handle : ReaderHandle) : Option (Except ErrorCode ReadLease) :=
  if !r.validReader handle then some (.error .invalidHandle)
  else
    let cursor := (r.readers handle.slot).cursor
    if cursor = r.writerCursor then some (.error .quotaExceeded)
    else if sub64 r.writerCursor cursor > r.ringBytes then some (.error .subscriptionRejected)
    else r.findRecord handle fuel cursor

def commitRead (lease : ReadLease) : Except ApiError Unit × SharedRing :=
  if !r.validReader lease.handle then (.error ⟨.invalidHandle, ""⟩, r)
  else
    let slot := r.readers lease.handle.slot
    let record := RecordHeader.read r.data (r.offset lease.recordCursor)
    if r.writerCursor < lease.recordCursor ∨ r.writerCursor - lease.recordCursor > r.ringBytes then
      (.error ⟨.recordOverwritten, "read lease was overwritten"⟩, r)
    else if record.commitSequence ≠ lease.view.sequence then
      (.error ⟨.recordOverwritten, "read lease sequence changed before commit"⟩, r)
    else if lease.nextCursor ≤ slot.cursor ∨ lease.nextCursor > r.writerCursor ∨
        lease.nextCursor - slot.cursor > r.ringBytes then
      (.error ⟨.invalidHandle, "read lease cursor is stale"⟩, r)
    else (.ok (), { r with
      readers := Function.update r.readers lease.handle.slot { slot with cursor := lease.nextCursor } })

end SharedRing

/-- A call of the ring or of one of the leases it has given out, which are numbered. -/
inductive RingCall
  | publish (type : UInt32) (payload : List UInt8)
  | registerReader (seed : UInt64)
  | tryRead (handle : ReaderHandle)
  | commit (lease : Nat)
  | release (lease : Nat)
  | unregisterReader (handle : ReaderHandle)

inductive RingAnswer
  | sequence (n : Nat)
  | handle (handle : ReaderHandle)
  | view (view : RecordView)
  | done
  | refused (code : ErrorCode)
  | unfinished
deriving DecidableEq

structure RingSession where
  ring : SharedRing
  leases : List ReadLease := []

namespace RingSession

def spent (lease : ReadLease) : ReadLease := { lease with active := false }

def commit (s : RingSession) (index : Nat) : RingAnswer × RingSession :=
  match s.leases[index]? with
  | none => (.refused .invalidHandle, s)
  | some lease =>
    if !lease.active then (.refused .invalidHandle, s)
    else
      match s.ring.commitRead lease with
      | (.error error, ring) => (.refused error.code, ⟨ring, s.leases.modify index spent⟩)
      | (.ok (), ring) => (.done, ⟨ring, s.leases.modify index spent⟩)

def step (fuel : Nat) (s : RingSession) : RingCall → RingAnswer × RingSession
  | .publish type payload =>
    match s.ring.publish type payload with
    | (.error error, ring) => (.refused error.code, { s with ring := ring })
    | (.ok n, ring) => (.sequence n, { s with ring := ring })
  | .registerReader seed =>
    match s.ring.registerReader seed with
    | (.error error, ring) => (.refused error.code, { s with ring := ring })
    | (.ok handle, ring) => (.handle handle, { s with ring := ring })
  | .tryRead handle =>
    match s.ring.tryRead fuel handle with
    | none => (.unfinished, s)
    | some (.error code) => (.refused code, s)
    | some (.ok lease) => (.view lease.view, { s with leases := s.leases ++ [lease] })
  | .commit lease => s.commit lease
  | .release lease => (.done, { s with leases := s.leases.modify lease spent })
  | .unregisterReader handle =>
    match s.ring.unregisterReader handle with
    | (.error error, ring) => (.refused error.code, { s with ring := ring })
    | (.ok (), ring) => (.done, { s with ring := ring })

def run (fuel : Nat) : RingSession → List RingCall → List RingAnswer × RingSession
  | s, [] => ([], s)
  | s, call :: calls =>
    let (answer, s) := s.step fuel call
    let (answers, s) := run fuel s calls
    (answer :: answers, s)

end RingSession

/-- A reader of a log: its token, how much of the log it is through with, how much of that was there
before it came, and the records it has consumed. -/
structure LogReader where
  token : UInt64
  (position since : Nat)
  obtained : List RecordView

structure LogLease where
  active : Bool
  handle : ReaderHandle
  position : Nat
  view : RecordView

structure RingLog where
  epoch : UInt64
  maxReaders : Nat
  records : List RecordView := []
  readers : Nat → Option LogReader := fun _ => none
  leases : List LogLease := []

namespace RingLog

variable {log log' : RingLog}

def holder (log : RingLog) (handle : ReaderHandle) : Option LogReader :=
  if handle.slot < log.maxReaders then (log.readers handle.slot).filter fun reader => reader.token = handle.leaseToken
  else none

def reader (log : RingLog) (handle : ReaderHandle) : Option LogReader :=
  if handle.epoch = log.epoch then log.holder handle else none

def append (log : RingLog) (type : UInt32) (payload : List UInt8) : RingLog :=
  { log with records := log.records ++ [⟨type, log.records.length + 1, log.epoch, payload⟩] }

def place (log : RingLog) : Option Nat := (List.range log.maxReaders).find? fun i => (log.readers i).isNone

def enter (log : RingLog) (slot : Nat) (token : UInt64) : RingLog :=
  { log with readers :=
      Function.update log.readers slot (some ⟨token, log.records.length, log.records.length, []⟩) }

def leave (log : RingLog) (slot : Nat) : RingLog := { log with readers := Function.update log.readers slot none }

def lend (log : RingLog) (handle : ReaderHandle) (position : Nat) (view : RecordView) : RingLog :=
  { log with leases := log.leases ++ [⟨true, handle, position, view⟩] }

def spend (log : RingLog) (index : Nat) : RingLog :=
  { log with leases := log.leases.modify index fun lease => { lease with active := false } }

def consume (log : RingLog) (lease : LogLease) (reader : LogReader) : RingLog :=
  { log with readers := Function.update log.readers lease.handle.slot (some { reader with
      position := reader.position + 1, obtained := reader.obtained ++ [lease.view] }) }

/-- What a call may answer, and the log after it. Only whether a record is taken is left open. -/
def Step (log : RingLog) (call : RingCall) (answer : RingAnswer) (log' : RingLog) : Prop :=
  match call with
  | .publish type payload =>
    (answer = .sequence (log.records.length + 1) ∧ log' = log.append type payload) ∨
    ((∃ code, answer = .refused code) ∧ log' = log)
  | .registerReader seed =>
    match log.place with
    | none => (∃ code, answer = .refused code) ∧ log' = log
    | some slot => answer = .handle ⟨slot, newToken seed, log.epoch⟩ ∧ log' = log.enter slot (newToken seed)
  | .tryRead handle =>
    match log.reader handle with
    | none => answer = .refused .invalidHandle ∧ log' = log
    | some reader =>
      match log.records[reader.position]? with
      | none => answer = .refused .quotaExceeded ∧ log' = log
      | some view => answer = .view view ∧ log' = log.lend handle reader.position view
  | .commit index =>
    -- a lease counts once, for the reader it was given to and only for its next record
    match log.leases[index]?.filter (·.active) with
    | none => (∃ code, answer = .refused code) ∧ log' = log
    | some lease =>
      match (log.reader lease.handle).filter (·.position = lease.position) with
      | none => (∃ code, answer = .refused code) ∧ log' = log.spend index
      | some reader => answer = .done ∧ log' = (log.consume lease reader).spend index
  | .release index => answer = .done ∧ log' = log.spend index
  | .unregisterReader handle =>
    match log.holder handle with
    | none => (∃ code, answer = .refused code) ∧ log' = log
    | some _ => answer = .done ∧ log' = log.leave handle.slot

def Runs : RingLog → List RingCall → List RingAnswer → RingLog → Prop
  | log, [], [], log' => log' = log
  | log, call :: calls, answer :: answers, log' => ∃ next, log.Step call answer next ∧ Runs next calls answers log'
  | _, _, _, _ => False

variable {handle : ReaderHandle} {reader : LogReader} {call : RingCall} {answer : RingAnswer}

theorem holder_eq_some : log.holder handle = some reader ↔
    handle.slot < log.maxReaders ∧ log.readers handle.slot = some reader ∧ reader.token = handle.leaseToken := by
  unfold holder
  split
  next hsl => simp [hsl, Option.filter_eq_some_iff]
  next hsl => simp [hsl]

theorem reader_eq_some : log.reader handle = some reader ↔
    handle.epoch = log.epoch ∧ log.holder handle = some reader := by
  unfold RingLog.reader
  split
  next hep => simp [hep]
  next hep => simp [hep]

/-- A reader has consumed the records since it came, up to its position. -/
structure Abreast (records : List RecordView) (reader : LogReader) : Prop where
  since : reader.since ≤ reader.position
  position : reader.position ≤ records.length
  obtained : reader.obtained = (records.drop reader.since).take (reader.position - reader.since)

/-- Every reader is abreast, and every lease is for the record it says. -/
structure Sound (log : RingLog) : Prop where
  readers : ∀ slot reader, log.readers slot = some reader → Abreast log.records reader
  leases : ∀ lease ∈ log.leases, log.records[lease.position]? = some lease.view

variable {records : List RecordView} {view : RecordView}

theorem Abreast.append (h : Abreast records reader) (views : List RecordView) :
    Abreast (records ++ views) reader := by
  have hsince := h.since
  have hpos := h.position
  refine ⟨hsince, by rw [List.length_append]; omega, ?_⟩
  rw [h.obtained, List.drop_append_of_le_length (by omega), List.take_append_of_le_length]
  rw [List.length_drop]
  omega

theorem Abreast.next (h : Abreast records reader) (hvw : records[reader.position]? = some view) :
    Abreast records { reader with position := reader.position + 1, obtained := reader.obtained ++ [view] } := by
  have hsince := h.since
  have hlt := (getElem?_eq_some_iff.mp hvw).1
  refine ⟨by show reader.since ≤ reader.position + 1; omega, hlt, ?_⟩
  have hix : reader.since + (reader.position - reader.since) = reader.position := by omega
  have hnx : reader.position + 1 - reader.since = reader.position - reader.since + 1 := by omega
  rw [hnx, List.take_add_one, List.getElem?_drop, hix, hvw, h.obtained]
  rfl

/-- Nothing is lost: what was consumed and what is still to come is what was published since. -/
theorem Abreast.obtained_append (h : Abreast records reader) :
    reader.obtained ++ records.drop reader.position = records.drop reader.since := by
  have hsince := h.since
  have hix : records.drop reader.position = (records.drop reader.since).drop (reader.position - reader.since) := by
    rw [List.drop_drop]
    congr 1
    omega
  rw [h.obtained, hix, List.take_append_drop]

section

variable (h : Sound log)

include h

theorem Sound.update (slot : Nat) (entry : Option LogReader)
    (hent : ∀ reader, entry = some reader → Abreast log.records reader) :
    Sound { log with readers := Function.update log.readers slot entry } := by
  refine ⟨fun i reader hi => ?_, h.leases⟩
  have hi : Function.update log.readers slot entry i = some reader := hi
  rw [Function.update_apply] at hi
  split at hi
  next => exact hent reader hi
  next => exact h.readers i reader hi

theorem Sound.spend (index : Nat) : Sound (log.spend index) := by
  refine ⟨h.readers, fun lease hl => ?_⟩
  obtain ⟨i, hi, rfl⟩ := List.mem_iff_getElem.mp hl
  have hmodify := List.getElem_modify (fun lease : LogLease => { lease with active := false }) index log.leases i hi
  have hsm := h.leases _ (List.getElem_mem (show i < log.leases.length by simpa [RingLog.spend] using hi))
  show log.records[((log.leases.modify index _)[i]).position]? = some ((log.leases.modify index _)[i]).view
  rw [hmodify]
  split
  next => exact hsm
  next => exact hsm

theorem Sound.append (type : UInt32) (payload : List UInt8) : Sound (log.append type payload) := by
  refine ⟨fun slot reader hr => (h.readers slot reader hr).append _, fun lease hl => ?_⟩
  have hvw := h.leases lease hl
  have hlt := (getElem?_eq_some_iff.mp hvw).1
  rw [RingLog.append, List.getElem?_append_left hlt]
  exact hvw

theorem Sound.enter (slot : Nat) (token : UInt64) : Sound (log.enter slot token) := by
  refine h.update slot _ fun reader hr => ?_
  cases hr
  refine ⟨le_rfl, le_rfl, ?_⟩
  rw [List.drop_length, List.take_nil]

theorem Sound.lend {pos : Nat} (hvw : log.records[pos]? = some view) : Sound (log.lend handle pos view) := by
  refine ⟨h.readers, fun lease hl => ?_⟩
  rcases List.mem_append.mp hl with hold | hnew
  · exact h.leases lease hold
  · rw [List.mem_singleton.mp hnew]
    exact hvw

theorem Sound.consume {lease : LogLease} (hl : lease ∈ log.leases)
    (hr : log.readers lease.handle.slot = some reader) (hp : reader.position = lease.position) :
    Sound (log.consume lease reader) := by
  refine h.update lease.handle.slot _ fun reader' hr' => ?_
  cases hr'
  exact (h.readers _ _ hr).next (hp ▸ h.leases lease hl)

end

theorem Step.sound (hst : log.Step call answer log') (h : Sound log) : Sound log' := by
  cases call with
  | publish type payload =>
    obtain ⟨-, rfl⟩ | ⟨-, rfl⟩ := hst
    · exact h.append type payload
    · exact h
  | registerReader seed =>
    unfold Step at hst
    dsimp only at hst
    split at hst
    next => exact hst.2 ▸ h
    next slot _ => exact hst.2 ▸ h.enter slot (newToken seed)
  | tryRead handle =>
    unfold Step at hst
    dsimp only at hst
    split at hst
    next => exact hst.2 ▸ h
    next reader _ =>
    split at hst
    next => exact hst.2 ▸ h
    next view hvw => exact hst.2 ▸ h.lend hvw
  | commit index =>
    unfold Step at hst
    dsimp only at hst
    split at hst
    next => exact hst.2 ▸ h
    next lease hlease =>
    split at hst
    next => exact hst.2 ▸ h.spend index
    next reader hrd =>
    have hmem := List.mem_of_getElem? (Option.filter_eq_some_iff.mp hlease).1
    obtain ⟨hholder, hpos⟩ := Option.filter_eq_some_iff.mp hrd
    have hsl := (holder_eq_some.mp (reader_eq_some.mp hholder).2).2.1
    rw [hst.2]
    exact (h.consume hmem hsl (of_decide_eq_true hpos)).spend index
  | release index => exact hst.2 ▸ h.spend index
  | unregisterReader handle =>
    unfold Step at hst
    dsimp only at hst
    split at hst
    next => exact hst.2 ▸ h
    rw [hst.2]
    exact h.update handle.slot none fun reader hr => by cases hr

theorem Runs.sound {calls : List RingCall} {answers : List RingAnswer}
    (hrun : log.Runs calls answers log') (h : Sound log) : Sound log' := by
  induction calls generalizing log answers with
  | nil =>
    cases answers with
    | nil =>
      obtain rfl : log' = log := hrun
      exact h
    | cons answer answers => exact hrun.elim
  | cons call calls ih =>
    cases answers with
    | nil => exact hrun.elim
    | cons answer answers =>
      obtain ⟨next, hst, hrs⟩ := hrun
      exact ih hrs (Step.sound hst h)

end RingLog

end SelfQuant.Mds.Transport
