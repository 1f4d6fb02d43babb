import SelfQuant.MdsRingRefines

namespace SelfQuant.Mds.Transport

open List SharedRing Function RingSession ReaderSlot Option

variable {log : RingLog}

namespace RingSession

/-- The cursor of the writer stays within its word. -/
def Fits (s : RingSession) : RingCall → Prop
  | .publish _ payload => s.ring.writerCursor + s.ring.advance (recordLength payload) < 2 ^ 64
  | _ => True

def AllFit (fuel : Nat) : RingSession → List RingCall → Prop
  | _, [] => True
  | s, call :: calls => Fits s call ∧ AllFit fuel (s.step fuel call).2 calls

end RingSession

namespace Sim

variable {s : RingSession} {fuel : Nat} {handle : ReaderHandle}

def Matched (log : RingLog) (call : RingCall) (result : RingAnswer × RingSession) : Prop :=
  ∃ log', log.Step call result.1 log' ∧ Sim result.2 log'

section

variable (h : Sim s log)

include h

theorem publish (type : UInt32) (payload : List UInt8)
    (hfit : s.ring.writerCursor + s.ring.advance (recordLength payload) < 2 ^ 64) :
    Matched log (.publish type payload) (s.step fuel (.publish type payload)) := by
  have hshp := h.stored.shaped
  rw [step]
  obtain ⟨error, href⟩ | ⟨ht, htaken⟩ := publish_cases
  · rw [href]
    exact ⟨log, .inr ⟨⟨error.code, rfl⟩, rfl⟩, h⟩
  · have hend := hfit
    rw [hshp.advance_eq] at hend
    have hseq : s.ring.nextSequence + 1 < 2 ^ 64 := by
      have hcnt := header_le_cursorAt s.ring.ringBytes (le_refl log.records.length)
      have hcurs := h.stored.cursor
      have hnx := h.stored.sequence
      rw [cursorAt_length] at hcnt
      omega
    have hstd := h.stored.append ht hend
    have hattended := h.attended.append hshp h.lossless ht
    rw [htaken, append_eq hshp hfit hseq, h.stored.sequence]
    refine ⟨log.append type payload, .inl ⟨rfl, rfl⟩, ⟨?_, h.lossless, hattended, ?_⟩⟩
    · rw [RingLog.append, h.attended.epoch]
      exact hstd
    · exact h.leases.imp fun _ _ hl => hl.append type payload

theorem registerReader (seed : UInt64) : Matched log (.registerReader seed) (s.step fuel (.registerReader seed)) := by
  have hpl : (range s.ring.maxReaders).find? (fun i => (s.ring.readers i).state = .free) = log.place := by
    unfold RingLog.place
    rw [h.attended.maxReaders]
    congr 1
    funext i
    rw [Bool.eq_iff_iff, decide_eq_true_iff, h.attended.free_iff]
  unfold Matched RingLog.Step
  rw [step, SharedRing.registerReader, hpl]
  cases hsl : log.place with
  | none => exact ⟨log, ⟨⟨_, rfl⟩, rfl⟩, h⟩
  | some i =>
    have hrg : i < s.ring.maxReaders := by
      rw [← h.attended.maxReaders]
      exact mem_range.mp (mem_of_find?_eq_some hsl)
    have hla : cursorAt s.ring.ringBytes log.records log.records.length = s.ring.writerCursor := by
      rw [cursorAt_length, h.stored.cursor]
    refine ⟨log.enter i (newToken seed), ⟨by rw [h.attended.epoch], rfl⟩,
      ⟨h.stored.readers _, h.lossless, h.attended.update i _ _ (fun hno => by cases hno) ?_, ?_⟩⟩
    · intro reader hrd
      cases hrd
      have hsl : update s.ring.readers i ⟨.active, newToken seed, s.ring.writerCursor⟩ i =
          ⟨.active, newToken seed, s.ring.writerCursor⟩ := update_self _ _ _
      refine ⟨hrg, congrArg state hsl, congrArg leaseToken hsl, newToken_ne_zero seed, le_rfl, ?_, ?_⟩
      · exact (congrArg cursor hsl).trans hla.symm
      · show s.ring.writerCursor ≤ cursorAt s.ring.ringBytes log.records log.records.length + s.ring.ringBytes
        omega
    · exact h.leases.imp fun _ _ hl => hl.update i _ fun _ reader hrd _ => by
        cases hrd
        exact hl.position_lt.le

theorem tryRead : Matched log (.tryRead handle) (s.step (fuel + 2) (.tryRead handle)) := by
  unfold Matched RingLog.Step
  rw [step]
  dsimp only
  cases hrd : log.reader handle with
  | none =>
    rw [tryRead_invalid (h.attended.invalid_of_none hrd)]
    exact ⟨log, ⟨rfl, rfl⟩, h⟩
  | some reader =>
    have hval := h.attended.validReader_iff.mpr ⟨reader, hrd⟩
    have hse := h.attended.seated_of_reader hrd
    cases hvw : log.records[reader.position]? with
    | none =>
      have hend : (s.ring.readers handle.slot).cursor = s.ring.writerCursor := by
        have hla : reader.position = log.records.length := by
          have hbeyond := getElem?_eq_none_iff.mp hvw
          have hpos := hse.position
          omega
        rw [hse.cursor, hla, cursorAt_length, h.stored.cursor]
      rw [tryRead_end hval hend]
      dsimp only
      rw [hvw]
      exact ⟨log, ⟨rfl, rfl⟩, h⟩
    | some view =>
      have hreadable := h.stored.readable hvw hse.kept
      rw [hreadable.tryRead_eq h.stored.shaped hval hse.cursor]
      dsimp only
      rw [hvw]
      have hlent : Lent s.ring.ringBytes log
          (Readable.lease s.ring handle (cursorAt s.ring.ringBytes log.records reader.position) view)
          ⟨true, handle, reader.position, view⟩ := by
        refine ⟨rfl, rfl, rfl, hvw, rfl, (cursorAt_succ hvw).symm, fun reader' hr => ?_⟩
        rw [(RingLog.reader_eq_some.mp hrd).2] at hr
        cases hr
        exact le_rfl
      have hleases := h.leases.imp fun _ _ hl => hl.lend handle reader.position view
      exact ⟨log.lend handle reader.position view, ⟨rfl, rfl⟩, ⟨h.stored, h.lossless,
        ⟨h.attended.epoch, h.attended.maxReaders, h.attended.free, h.attended.seated⟩,
        rel_append hleases (.cons (hlent.lend handle reader.position view) .nil)⟩⟩

theorem spend (index : Nat) : Sim ⟨s.ring, s.leases.modify index spent⟩ (log.spend index) :=
  ⟨h.stored, h.lossless, ⟨h.attended.epoch, h.attended.maxReaders, h.attended.free, h.attended.seated⟩,
    (forall₂_modify h.leases index fun _ _ hl => hl.spent).imp fun _ _ hl => hl.spend index⟩

variable {lease : ReadLease} {reader : LogReader} {l : LogLease}

theorem unregisterReader_refused (hno : log.holder handle = none) :
    ∃ error, s.ring.unregisterReader handle = (.error error, s.ring) := by
  unfold unregisterReader
  dsimp only
  split
  next => exact ⟨_, rfl⟩
  next hsl =>
  split
  next => exact ⟨_, rfl⟩
  split
  next => exact ⟨_, rfl⟩
  next htok =>
  split
  next => exact ⟨_, rfl⟩
  next => exact ⟨_, rfl⟩
  next => exact ⟨_, rfl⟩
  next hst =>
  -- the slot would be that of a reader of the log
  cases hrd : log.readers handle.slot with
  | none =>
    rw [h.attended.free _ hrd] at hst
    cases hst
  | some reader =>
    have hse := h.attended.seated _ reader hrd
    have hsm : reader.token = handle.leaseToken := by
      rw [← hse.token]
      exact not_not.mp htok
    have hrg : handle.slot < log.maxReaders := by
      rw [h.attended.maxReaders]
      omega
    have hholder := RingLog.holder_eq_some.mpr ⟨hrg, hrd, hsm⟩
    rw [hno] at hholder
    cases hholder

theorem unregisterReader : Matched log (.unregisterReader handle) (s.step fuel (.unregisterReader handle)) := by
  unfold Matched RingLog.Step
  rw [step]
  dsimp only
  cases hholder : log.holder handle with
  | none =>
    obtain ⟨error, herr⟩ := h.unregisterReader_refused hholder
    rw [herr]
    exact ⟨log, ⟨⟨_, rfl⟩, rfl⟩, h⟩
  | some reader =>
    obtain ⟨hsl, hrd, htok⟩ := RingLog.holder_eq_some.mp hholder
    have hse := h.attended.seated _ reader hrd
    have hrg := hse.inRange
    have hnonzero : handle.leaseToken ≠ 0 := htok ▸ hse.nonzero
    rw [SharedRing.unregisterReader, if_neg (by omega), if_neg hnonzero,
      if_neg (by rw [hse.token, htok]; simp), hse.state]
    refine ⟨log.leave handle.slot, ⟨rfl, rfl⟩, ⟨h.stored.readers _, h.lossless, ?_, ?_⟩⟩
    · exact h.attended.update _ _ _ (fun _ => rfl) (fun reader' hr => by cases hr)
    · exact h.leases.imp fun _ _ hl => hl.update _ _ (fun _ reader' hr => by cases hr)

section

variable (hl : Lent s.ring.ringBytes log lease l)

include hl

theorem consume (hrd : log.reader l.handle = some reader)
    (hp : reader.position = l.position) :
    Sim { s with ring := s.ring.moved lease.handle.slot lease.nextCursor } (log.consume l reader) := by
  have hse := h.attended.seated_of_reader hrd
  have hholder := (RingLog.reader_eq_some.mp hrd).2
  have hlt := hl.position_lt
  have hnx := cursorAt_le_succ s.ring.ringBytes hl.record
  have hkt := hse.kept
  rw [hl.handle]
  refine ⟨h.stored.readers _, h.lossless, h.attended.update _ _ _ (fun hno => by cases hno) ?_, ?_⟩
  · intro reader' hr
    cases hr
    have hsl := update_self l.handle.slot
      { s.ring.readers l.handle.slot with cursor := lease.nextCursor } s.ring.readers
    refine ⟨hse.inRange, (congrArg state hsl).trans hse.state,
      (congrArg leaseToken hsl).trans hse.token, hse.nonzero, ?_, ?_, ?_⟩
    · show reader.position + 1 ≤ log.records.length
      omega
    · refine (congrArg cursor hsl).trans ?_
      rw [hp]
      exact hl.next
    · show s.ring.writerCursor ≤ cursorAt s.ring.ringBytes log.records (reader.position + 1) + s.ring.ringBytes
      rw [hp] at hkt ⊢
      omega
  · refine h.leases.imp fun lease' l' hl' => hl'.update _ _ fun hsl reader' hr htok => ?_
    cases hr
    obtain ⟨hrg, hrds, htok'⟩ := RingLog.holder_eq_some.mp hholder
    have hbeh := hl'.behind reader (RingLog.holder_eq_some.mpr ⟨hsl ▸ hrg, hsl ▸ hrds, htok⟩)
    show l'.position ≤ reader.position + 1
    omega

theorem commitRead_refused
    (hno : (log.reader l.handle).filter (·.position = l.position) = none) :
    ∃ error, s.ring.commitRead lease = (.error error, s.ring) := by
  cases hrd : log.reader l.handle with
  | none =>
    rw [← hl.handle] at hrd
    exact commitRead_invalid (h.attended.invalid_of_none hrd)
  | some reader =>
    have hse := h.attended.seated_of_reader hrd
    have hbeh := hl.behind reader (RingLog.reader_eq_some.mp hrd).2
    have hne : reader.position ≠ l.position := by
      rw [hrd] at hno
      simpa [filter_some] using hno
    have hmono : cursorAt s.ring.ringBytes log.records (l.position + 1) ≤
        cursorAt s.ring.ringBytes log.records reader.position :=
      cursorAt_mono (by omega) hse.position
    refine commitRead_stale ?_
    rw [hl.next, hl.handle, hse.cursor]
    exact hmono

theorem commitRead_done (hrd : log.reader l.handle = some reader)
    (hp : reader.position = l.position) :
    s.ring.commitRead lease = (.ok (), s.ring.moved lease.handle.slot lease.nextCursor) := by
  have hse := h.attended.seated_of_reader hrd
  have hval := h.attended.validReader_iff.mpr ⟨reader, hrd⟩
  have hkt := hse.kept
  have hcurs := hse.cursor
  rw [hp] at hkt hcurs
  rw [← hl.handle] at hval hcurs
  exact (h.stored.readable hl.record hkt).commitRead_eq h.stored.shaped hval hcurs hl.start
    (hl.next.trans (cursorAt_succ hl.record)) hl.view

end

theorem commit (index : Nat) : Matched log (.commit index) (s.step fuel (.commit index)) := by
  unfold Matched RingLog.Step
  rw [step, RingSession.commit]
  dsimp only
  obtain ⟨hno, hno'⟩ | ⟨lease, l, hlease, hl', hl⟩ := forall₂_getElem? h.leases index
  · rw [hno, hno']
    exact ⟨log, ⟨⟨_, rfl⟩, rfl⟩, h⟩
  · rw [hlease, hl']
    dsimp only
    rw [hl.active]
    cases hact : l.active with
    | false =>
      have hfilt : (some l).filter (·.active) = none := by simp [filter_some, hact]
      rw [hfilt]
      exact ⟨log, ⟨⟨_, rfl⟩, rfl⟩, h⟩
    | true =>
      have hfilt : (some l).filter (·.active) = some l := by simp [filter_some, hact]
      rw [hfilt]
      dsimp only
      cases hrd : (log.reader l.handle).filter (·.position = l.position) with
      | none =>
        obtain ⟨error, herr⟩ := h.commitRead_refused hl hrd
        rw [herr]
        exact ⟨log.spend index, ⟨⟨_, rfl⟩, rfl⟩, h.spend index⟩
      | some reader =>
        obtain ⟨hrd, hpos⟩ := filter_eq_some_iff.mp hrd
        have hpos := of_decide_eq_true hpos
        rw [h.commitRead_done hl hrd hpos]
        exact ⟨(log.consume l reader).spend index, ⟨rfl, rfl⟩, (h.consume hl hrd hpos).spend index⟩

theorem step (call : RingCall) (hft : s.Fits call) : Matched log call (s.step (fuel + 2) call) := by
  cases call with
  | publish type payload => exact h.publish type payload hft
  | registerReader seed => exact h.registerReader seed
  | tryRead => exact h.tryRead
  | commit index => exact h.commit index
  | release index => exact ⟨log.spend index, ⟨rfl, rfl⟩, h.spend index⟩
  | unregisterReader => exact h.unregisterReader

theorem run (calls : List RingCall) (hft : s.AllFit (fuel + 2) calls) :
    ∃ log', log.Runs calls (s.run (fuel + 2) calls).1 log' ∧ Sim (s.run (fuel + 2) calls).2 log' := by
  induction calls generalizing s log with
  | nil => exact ⟨log, rfl, h⟩
  | cons call calls ih =>
    obtain ⟨next, hst, hnx⟩ := h.step call hft.1
    obtain ⟨log', hrn, hsim⟩ := ih hnx hft.2
    exact ⟨log', ⟨next, hst, hrn⟩, hsim⟩

end

end Sim

variable {options : RingOptions} {ring : SharedRing} {seed : UInt64}

theorem openRing_shaped (h : openRing options seed = .ok ring) : Shaped ring := by
  unfold openRing at h
  split at h
  next => cases h
  next hval =>
  cases h
  simp only [not_or, Bool.not_eq_true', Bool.not_eq_false] at hval
  obtain ⟨-, -, hpower, hhdr, hwd, heighth⟩ := hval
  obtain ⟨hne, hand⟩ := of_decide_eq_true hpower
  obtain ⟨k, hk⟩ := (Nat.and_sub_one_eq_zero_iff_isPowerOfTwo hne).mp hand
  exact ⟨⟨k, hk⟩, not_lt.mp hhdr, not_lt.mp heighth, by
    show options.maxRecordBytes < 2 ^ 32
    omega⟩

def SharedRing.emptyLog (r : SharedRing) : RingLog := { epoch := r.epoch, maxReaders := r.maxReaders }

theorem openRing_sim (h : openRing options seed = .ok ring) (hmd : options.mode = .lossless) :
    Sim ⟨ring, []⟩ ring.emptyLog := by
  have hshp := openRing_shaped h
  unfold openRing at h
  split at h
  next => cases h
  cases h
  refine ⟨⟨hshp, rfl, Nat.two_pow_pos 64, rfl, fun p view hp => ?_, fun view hv => ?_,
    fun p view hp => ?_⟩, hmd, ⟨rfl, rfl, fun _ _ => rfl, fun i reader hr => ?_⟩, .nil⟩
  · cases hp
  · cases hv
  · cases hp
  · cases hr

/-- A ring in lossless mode answers as a log of all records with a position for each reader would,
as long as its cursor stays within its word. -/
theorem ring_refines_log (options : RingOptions) (seed : UInt64) (ring : SharedRing)
    (hopen : openRing options seed = .ok ring) (hmode : options.mode = .lossless) (fuel : Nat)
    (calls : List RingCall) (hfits : AllFit (fuel + 2) ⟨ring, []⟩ calls) :
    ∃ log, ring.emptyLog.Runs calls ((⟨ring, []⟩ : RingSession).run (fuel + 2) calls).1 log ∧
      ∀ slot, ((((⟨ring, []⟩ : RingSession).run (fuel + 2) calls).2.ring.readers slot).state = .active ↔
          ∃ reader, log.readers slot = some reader) ∧
        ∀ reader, log.readers slot = some reader →
          reader.obtained ++ log.records.drop reader.position = log.records.drop reader.since := by
  obtain ⟨log, hruns, hsim⟩ := (openRing_sim hopen hmode).run calls hfits
  have hempty : ring.emptyLog.Sound := ⟨(fun _ _ hr => by cases hr), (fun _ hl => by cases hl)⟩
  have hsound := RingLog.Runs.sound hruns hempty
  refine ⟨log, hruns, fun slot => ⟨⟨fun hact => ?_, fun ⟨reader, hreader⟩ => ?_⟩, fun reader hreader => ?_⟩⟩
  · cases hreader : log.readers slot with
    | none =>
      rw [hsim.attended.free slot hreader] at hact
      cases hact
    | some reader => exact ⟨reader, rfl⟩
  · exact (hsim.attended.seated slot reader hreader).state
  · exact (hsound.readers slot reader hreader).obtained_append

def smallRing : SharedRing :=
  { mode := .lossless, ringBytes := 512, maxRecordBytes := 64, maxReaders := 1, epoch := newToken 0 }

def smallHandle : ReaderHandle := ⟨0, newToken 1, newToken 0⟩

def smallCalls : List RingCall :=
  [.registerReader 1, .publish 5 [1, 2, 3], .tryRead smallHandle, .commit 0, .tryRead smallHandle]

theorem ring_refines_log_sample :
    ((⟨smallRing, []⟩ : RingSession).run 2 smallCalls).1 =
      [.handle smallHandle, .sequence 1, .view ⟨5, 1, newToken 0, [1, 2, 3]⟩, .done, .refused .quotaExceeded] ∧
    ∃ log, smallRing.emptyLog.Runs smallCalls ((⟨smallRing, []⟩ : RingSession).run 2 smallCalls).1 log := by
  have hfits : AllFit 2 ⟨smallRing, []⟩ smallCalls :=
    ⟨trivial, by unfold Fits; decide, trivial, trivial, trivial, trivial⟩
  obtain ⟨log, hlog, -⟩ := ring_refines_log ⟨.lossless, 512, 64, 1⟩ 0 smallRing rfl rfl 0 smallCalls hfits
  exact ⟨by decide +kernel, log, hlog⟩

def block : List UInt8 := replicate 24 0

structure Blocks (s : RingSession) (n : Nat) : Prop where
  mode : s.ring.mode = .lossless
  ringBytes : s.ring.ringBytes = 512
  maxRecordBytes : s.ring.maxRecordBytes = 64
  maxReaders : s.ring.maxReaders = 1
  epoch : s.ring.epoch = newToken 0
  cursor : s.ring.writerCursor = 64 * n % 2 ^ 64

namespace Blocks

variable {s : RingSession} {n : Nat}

section

variable (h : Blocks s n)

include h

theorem offset_eq : s.ring.offset s.ring.writerCursor = 64 * n % 512 := by
  unfold offset
  rw [h.ringBytes, h.cursor]
  show 64 * n % 2 ^ 64 &&& 2 ^ 9 - 1 = _
  rw [Nat.and_two_pow_sub_one_eq_mod]
  omega

theorem remaining_ge : 64 ≤ s.ring.remaining s.ring.writerCursor := by
  unfold remaining
  rw [h.offset_eq, h.ringBytes]
  omega

theorem publish (fuel : Nat) {oldest : Nat} (holdest : s.ring.oldestCursor = some oldest)
    (hle : oldest ≤ s.ring.writerCursor) (hrm : s.ring.writerCursor ≤ oldest + 448) :
    (s.step fuel (.publish 1 block)).1 = .sequence s.ring.nextSequence ∧
      Blocks (s.step fuel (.publish 1 block)).2 (n + 1) ∧
      (s.step fuel (.publish 1 block)).2.ring.readers = s.ring.readers := by
  have hrem := h.remaining_ge
  have hlen : recordLength block = 64 := by decide
  have hadvance : s.ring.advance (recordLength block) = 64 := by
    unfold advance
    rw [hlen, if_neg (by omega)]
  have hcalm : s.ring.backpressure (s.ring.advance (recordLength block)) = none := by
    unfold backpressure
    rw [holdest, h.ringBytes]
    dsimp only
    rw [if_neg (by omega)]
  have hpublish : s.ring.publish 1 block = (.ok s.ring.nextSequence, s.ring.append 1 block) := by
    unfold SharedRing.publish
    rw [h.maxRecordBytes, if_pos h.mode, ← hlen, hcalm]
    rfl
  have hcurs : (s.ring.append 1 block).writerCursor = 64 * (n + 1) % 2 ^ 64 := by
    have hwriter := h.cursor
    unfold append wrap64
    simp only [hlen, decide_eq_true_eq, if_neg (show ¬s.ring.remaining s.ring.writerCursor < 64 by omega)]
    omega
  rw [step, hpublish]
  exact ⟨rfl, ⟨h.mode, h.ringBytes, h.maxRecordBytes, h.maxReaders, h.epoch, hcurs⟩, rfl⟩

theorem oldestCursor_eq : s.ring.oldestCursor = s.ring.older s.ring.writerCursor 0 := by
  unfold oldestCursor
  rw [h.maxReaders]
  exact bind_pure _

theorem run_free (fuel : Nat) (hfe : (s.ring.readers 0).state = .free) (k : Nat) :
    Blocks (s.run fuel (replicate k (.publish 1 block))).2 (n + k) ∧
      (s.run fuel (replicate k (.publish 1 block))).2.ring.readers = s.ring.readers := by
  induction k generalizing s n with
  | zero => exact ⟨h, rfl⟩
  | succ k ih =>
    have holdest : s.ring.oldestCursor = some s.ring.writerCursor := by
      rw [h.oldestCursor_eq, older, hfe]
    obtain ⟨-, hnx, hrds⟩ := h.publish fuel holdest le_rfl (by omega)
    have hrs := ih hnx (by rw [hrds]; exact hfe)
    rw [hrds] at hrs
    rw [show n + (k + 1) = n + 1 + k by omega]
    exact hrs

end

/-- A reader that came eight blocks before the cursor starts anew: the blocks are taken, one more too
than there is room for. -/
theorem run_reader {k : Nat} (h : Blocks s (2 ^ 58 - 8 + k)) (fuel : Nat) {token : UInt64}
    (hrd : s.ring.readers 0 = ⟨.active, token, 2 ^ 64 - 512⟩) {m : Nat} (hm : k + m = 9) :
    (∀ answer ∈ (s.run fuel (replicate m (.publish 1 block))).1, ∃ sequence, answer = .sequence sequence) ∧
      Blocks (s.run fuel (replicate m (.publish 1 block))).2 (2 ^ 58 + 1) ∧
      (s.run fuel (replicate m (.publish 1 block))).2.ring.readers = s.ring.readers := by
  induction m generalizing s k with
  | zero =>
    obtain rfl : k = 9 := by omega
    exact ⟨(fun answer ha => by cases ha), h, rfl⟩
  | succ m ih =>
    have hwriter := h.cursor
    have holdest : s.ring.oldestCursor = some (min s.ring.writerCursor (2 ^ 64 - 512)) := by
      rw [h.oldestCursor_eq, older, hrd]
    obtain ⟨hanswer, hnx, hrds⟩ := h.publish fuel holdest (min_le_left _ _) (by omega)
    have hnx : Blocks (s.step fuel (.publish 1 block)).2 (2 ^ 58 - 8 + (k + 1)) := hnx
    obtain ⟨hanswers, hla, hsm⟩ := ih hnx (by rw [hrds]; exact hrd) (by omega)
    rw [hrds] at hsm
    refine ⟨fun answer ha => ?_, hla, hsm⟩
    rcases mem_cons.mp ha with rfl | ha
    · exact ⟨_, hanswer⟩
    · exact hanswers answer ha

end Blocks

theorem RingSession.run_append (fuel : Nat) (s : RingSession) (calls calls' : List RingCall) :
    (s.run fuel (calls ++ calls')).2 = ((s.run fuel calls).2.run fuel calls').2 := by
  induction calls generalizing s with
  | nil => rfl
  | cons call calls ih => exact ih (s.step fuel call).2

theorem lateReader_reached (n : Nat) (hn : n = 2 ^ 58 - 8) : ∃ s : RingSession,
    ((⟨smallRing, []⟩ : RingSession).run 2 (replicate n (.publish 1 block) ++ [.registerReader 1])).2 = s ∧
      Blocks s n ∧ s.ring.readers 0 = ⟨.active, newToken 1, 2 ^ 64 - 512⟩ := by
  have hsta : Blocks ⟨smallRing, []⟩ 0 := ⟨rfl, rfl, rfl, rfl, rfl, rfl⟩
  obtain ⟨hblk, hrds⟩ := hsta.run_free 2 rfl n
  rw [zero_add] at hblk
  rw [run_append]
  generalize ((⟨smallRing, []⟩ : RingSession).run 2 (replicate n (.publish 1 block))).2 = s at *
  have hfe : (s.ring.readers 0).state = .free := by
    rw [hrds]
    rfl
  have hpl : (range s.ring.maxReaders).find? (fun i => (s.ring.readers i).state = .free) = some 0 := by
    rw [hblk.maxReaders, range_one, find?_cons_of_pos (by simpa using hfe)]
  have hcurs : s.ring.writerCursor = 2 ^ 64 - 512 := by
    have hwriter := hblk.cursor
    omega
  refine ⟨_, rfl, ?_⟩
  show Blocks (s.step 2 (.registerReader 1)).2 n ∧ (s.step 2 (.registerReader 1)).2.ring.readers 0 = _
  rw [step, registerReader, hpl, ← hcurs]
  dsimp only
  exact ⟨⟨hblk.mode, hblk.ringBytes, hblk.maxRecordBytes, hblk.maxReaders, hblk.epoch,
    hblk.cursor⟩, update_self _ _ _⟩

/-- When the cursor of the writer starts anew, a record that a reader has not read is overwritten. -/
theorem cursor_wrap_overruns_reader : ∃ s : RingSession,
    ((⟨smallRing, []⟩ : RingSession).run 2 (replicate (2 ^ 58 - 8) (.publish 1 block) ++ [.registerReader 1])).2 = s ∧
    (∀ answer ∈ (s.run 2 (replicate 9 (.publish 1 block))).1, ∃ sequence, answer = .sequence sequence) ∧
    ((s.run 2 (replicate 9 (.publish 1 block))).2.step 2 (.tryRead smallHandle)).1 =
      .refused .subscriptionRejected := by
  obtain ⟨s, hs, hblocks, hreader⟩ := lateReader_reached (2 ^ 58 - 8) rfl
  obtain ⟨hanswers, hlast, hsame⟩ := Blocks.run_reader (k := 0) hblocks 2 hreader (m := 9) rfl
  refine ⟨s, hs, hanswers, ?_⟩
  generalize (s.run 2 (replicate 9 (.publish 1 block))).2 = s' at *
  have hslot : s'.ring.readers 0 = ⟨.active, newToken 1, 2 ^ 64 - 512⟩ := by
    rw [hsame, hreader]
  have hvalid : s'.ring.validReader smallHandle = true := by
    unfold validReader smallHandle
    rw [hlast.maxReaders, hlast.epoch, hslot]
    rfl
  have hcurs : s'.ring.writerCursor = 64 := by
    have hwriter := hlast.cursor
    omega
  rw [step, tryRead, hvalid, hcurs, hlast.ringBytes]
  have hread : (s'.ring.readers smallHandle.slot).cursor = 2 ^ 64 - 512 := congrArg cursor hslot
  rw [hread]
  rfl

end SelfQuant.Mds.Transport
