import SelfQuant.OmsSchedulerOps
import SelfQuant.BinaryHeap

namespace SelfQuant.Oms.DeadlineScheduler

open BinaryHeap DeadlineQueue Nat List

variable {s s' : DeadlineScheduler} {type : DeadlineType} {slot index lhs rhs time data k : Nat} {free : List Nat}

/-- Deadlines are taken by their time, and those for one time as they were scheduled. -/
def nodeKey (n : DeadlineNode) : Nat ×ₗ Nat := toLex (n.deadline.monotonicNs, n.sequence)

def keyAt (s : DeadlineScheduler) (index : Nat) : Nat ×ₗ Nat := nodeKey (s.node (s.heapAt index))

def InOrder (s : DeadlineScheduler) : Prop := Ordered s.keyAt s.heap.length

theorem earlier_iff : s.earlier lhs rhs ↔ nodeKey (s.node lhs) < nodeKey (s.node rhs) := by
  unfold earlier nodeKey
  rw [Prod.Lex.toLex_lt_toLex]
  split
  next h => simp [h]
  next h =>
  rw [not_not] at h
  simp [h]

theorem earlier_at : s.earlier (s.heapAt lhs) (s.heapAt rhs) ↔ s.keyAt lhs < s.keyAt rhs := earlier_iff

theorem not_earlier_at : (!s.earlier (s.heapAt lhs) (s.heapAt rhs)) = true ↔ s.keyAt rhs ≤ s.keyAt lhs := by
  rw [← not_lt, ← earlier_at]
  simp

theorem Shuffled.nodeKey (h : Shuffled s s') (x : Nat) : nodeKey (s'.node x) = nodeKey (s.node x) := by
  obtain ⟨place, hx⟩ := h.node x
  rw [hx]
  rfl

theorem swapHeap_heapAt (hl : lhs < s.heap.length) (hr : rhs < s.heap.length) (k : Nat) :
    (s.swapHeap lhs rhs).heapAt k = s.heapAt (Equiv.swap lhs rhs k) := by
  rw [heapAt, swapHeap_heap, exchange_getElem? (heapAt_eq hl) (heapAt_eq hr), Equiv.swap_apply_def]
  by_cases hk : k = lhs
  · by_cases hkr : k = rhs
    · simp [hk, ← hkr]
    · simp [hk, show lhs ≠ rhs from fun he => hkr (hk.trans he)]
  · by_cases hkr : k = rhs
    · simp [hkr, show rhs ≠ lhs from fun he => hk (hkr.trans he)]
    · simp [hk, hkr, heapAt]

theorem swapHeap_keyAt (h : Indexed s) (hl : lhs < s.heap.length) (hr : rhs < s.heap.length) :
    (s.swapHeap lhs rhs).keyAt = s.keyAt ∘ Equiv.swap lhs rhs := by
  funext k
  rw [keyAt, (swapHeap_shuffled h hl hr).2.nodeKey, swapHeap_heapAt hl hr]
  rfl

theorem siftUpLoop_inOrder (fuel : Nat) (h : Indexed s) (hi : index < s.heap.length)
    (hf : index ≤ fuel) (ho : OrderedBut s.keyAt s.heap.length index)
    (hb : Below s.keyAt s.heap.length index) : InOrder (siftUpLoop fuel s index) := by
  induction fuel generalizing s index with
  | zero => exact ho.ordered (fun hpos => absurd hpos (by omega)) hb
  | succ fuel ih =>
    unfold siftUpLoop
    split
    next hz => exact ho.ordered (fun hpos => absurd hpos (by omega)) hb
    next hz =>
    have hpos : 0 < index := Nat.pos_of_ne_zero hz
    have hp : parent index < s.heap.length := by
      have := parent_lt hpos
      omega
    show InOrder (if !s.earlier (s.heapAt index) (s.heapAt (parent index)) then s
      else siftUpLoop fuel (s.swapHeap index (parent index)) (parent index))
    split
    next he => exact ho.ordered (fun _ => not_earlier_at.mp he) hb
    next he =>
      have hlt : s.keyAt index < s.keyAt (parent index) := by rwa [not_earlier_at, not_le] at he
      obtain ⟨hsi, hss⟩ := swapHeap_shuffled h hi hp
      obtain ⟨ho', hb'⟩ := ho.swap_up hb hpos hlt
      rw [← swapHeap_keyAt h hi hp, ← hss.perm.length_eq] at ho' hb'
      exact ih hsi (by rw [hss.perm.length_eq]; exact hp) (by have := parent_lt hpos; omega) ho' hb'

theorem parent_eq_iff {j : Nat} (hj : 0 < j) : parent j = index ↔ j = index * 2 + 1 ∨ j = index * 2 + 1 + 1 := by
  unfold parent
  omega

theorem siftDownLoop_inOrder (fuel : Nat) (h : Indexed s) (hi : index < s.heap.length)
    (hf : s.heap.length ≤ index + fuel) (ho : OrderedBut s.keyAt s.heap.length index)
    (ha : Above s.keyAt index) : InOrder (siftDownLoop fuel s index) := by
  induction fuel generalizing s index with
  | zero => omega
  | succ fuel ih =>
    -- whichever child is looked at, it is the first of the two
    have hnx : ∀ child, index < child → child < s.heap.length → parent child = index →
        (∀ j, 0 < j → j < s.heap.length → parent j = index → s.keyAt child ≤ s.keyAt j) →
        InOrder (if !s.earlier (s.heapAt child) (s.heapAt index) then s
          else siftDownLoop fuel (s.swapHeap index child) child) := by
      intro child hic hc hp hfst
      split
      next he => exact ho.ordered ha fun j hj hjn hpj => (not_earlier_at.mp he).trans (hfst j hj hjn hpj)
      next he =>
        have hlt : s.keyAt child < s.keyAt index := by rwa [not_earlier_at, not_le] at he
        obtain ⟨hsi, hss⟩ := swapHeap_shuffled h hi hc
        obtain ⟨ho', ha'⟩ := ho.swap_down hc (by omega) hp hfst hlt
        rw [← swapHeap_keyAt h hi hc] at ho' ha'
        rw [← hss.perm.length_eq] at ho'
        exact ih hsi (by rw [hss.perm.length_eq]; exact hc) (by rw [hss.perm.length_eq]; omega) ho' ha'
    unfold siftDownLoop
    dsimp only
    split
    next hlen =>
      refine ho.ordered ha fun j hj hjn hpj => ?_
      have := (parent_eq_iff hj).mp hpj
      omega
    next hlen =>
      split
      next hrgt =>
        rw [earlier_at] at hrgt
        refine hnx _ (by omega) hrgt.1 ((parent_eq_iff (by omega)).mpr (.inr rfl)) fun j hj hjn hpj => ?_
        obtain rfl | rfl := (parent_eq_iff hj).mp hpj
        · exact hrgt.2.le
        · exact le_rfl
      next hrgt =>
        rw [earlier_at] at hrgt
        refine hnx _ (by omega) (by omega) ((parent_eq_iff (by omega)).mpr (.inl rfl)) fun j hj hjn hpj => ?_
        obtain rfl | rfl := (parent_eq_iff hj).mp hpj
        · exact le_rfl
        · exact not_lt.mp fun hlt => hrgt ⟨hjn, hlt⟩

theorem release_keyAt (hb : slot < s.nodes.length) (hk : k + 1 < s.heap.length) :
    (s.release slot).keyAt k = s.keyAt k := by
  have hat : (s.release slot).heapAt k = s.heapAt k := by
    show (s.heap.dropLast[k]?).getD 0 = _
    rw [getElem?_dropLast, if_pos (by omega)]
    rfl
  rw [keyAt, keyAt, hat, release_node hb]
  split
  next he => rw [he]; rfl
  next => rfl

theorem release_length : (s.release slot).heap.length = s.heap.length - 1 := by
  show s.heap.dropLast.length = _
  rw [length_dropLast]

theorem moveLast_keyAt (h : Indexed s) (hi : index < s.heap.length)
    (hk : k + 1 < s.heap.length) (hne : k ≠ index) : (s.moveLast index).keyAt k = s.keyAt k := by
  unfold moveLast
  split
  next =>
    rw [swapHeap_keyAt h hi (by omega), swap_cases, if_neg hne, if_neg (by omega)]
  next => rfl

theorem settle_inOrder (h : Indexed s) (ho : OrderedBut s.keyAt s.heap.length index) : InOrder (s.settle index) := by
  unfold settle
  split
  next hlen => exact ho.ordered_of_le hlen
  next hlen =>
  rw [not_le] at hlen
  split
  next hup =>
    have hlt : s.keyAt index < s.keyAt (parent index) := earlier_at.mp hup.2
    refine siftUpLoop_inOrder _ h hlen le_rfl ho fun j hj hjn hp => ?_
    exact hlt.le.trans (ho.around (Nat.pos_of_ne_zero hup.1) j hj hjn hp)
  next hup =>
    refine siftDownLoop_inOrder _ h hlen (by omega) ho fun hpos => ?_
    refine not_lt.mp fun hlt => hup ⟨by omega, ?_⟩
    exact earlier_at.mpr hlt

theorem removeAt_inOrder (h : Indexed s) (ho : InOrder s) (hi : index < s.heap.length) :
    InOrder (s.removeAt index) := by
  obtain ⟨hmi, hms, hml⟩ := moveLast_shuffled h hi
  have hr := release_removed hmi hml
  have hb : s.heapAt index < (s.moveLast index).nodes.length := by
    rw [hms.length]
    exact h.heapAt_lt hi
  have hlen := hms.perm.length_eq
  rw [removeAt_eq]
  refine settle_inOrder hr.indexed (ho.replace hi ?_ fun j hj hne => ?_)
  · rw [release_length]
    omega
  · rw [release_length] at hj
    rw [release_keyAt hb (by omega), moveLast_keyAt h hi (by omega) hne]

theorem appended_keyAt (hb : slot < s.nodes.length) (hout : slot ∉ s.heap) (hk : k < s.heap.length) :
    (s.appended type time data slot free).keyAt k = s.keyAt k := by
  have hat : (s.appended type time data slot free).heapAt k = s.heapAt k := by
    show ((s.heap ++ [slot])[k]?).getD 0 = _
    rw [getElem?_append_left hk]
    rfl
  have hne : s.heapAt k ≠ slot := by
    rintro rfl
    exact hout (mem_of_getElem? (heapAt_eq hk))
  rw [keyAt, keyAt, hat, appended_node hb, if_neg hne]

theorem appended_inOrder (hw : WF s) (ho : InOrder s) (hf : s.freeSlots = slot :: free) :
    InOrder ((s.appended type time data slot free).siftUp s.heap.length) := by
  obtain ⟨hb, hid⟩ := (hw.freeIff slot).mp (by rw [hf]; exact mem_cons_self ..)
  have hout : slot ∉ s.heap := fun hin => hid ((hw.heapIff slot).mp hin)
  have hlen : (s.appended type time data slot free).heap.length = s.heap.length + 1 := by
    simp [appended]
  obtain ⟨ho', hb'⟩ := ho.push fun j hj => appended_keyAt hb hout hj
  rw [← hlen] at ho' hb'
  exact siftUpLoop_inOrder _ (appended_wf type time data hw hf).indexed (by omega) le_rfl ho' hb'

theorem InOrder.root_le (h : InOrder s) (hw : WF s) (ha : (s.node slot).active) :
    nodeKey (s.node (s.heapAt 0)) ≤ nodeKey (s.node slot) := by
  obtain ⟨hi, hat⟩ := heapAt_heapIndex hw ha
  have hle := Ordered.root_le h hi
  rwa [keyAt, keyAt, hat] at hle

def perform (s : DeadlineScheduler) : SchedulerCall → SchedulerReply × DeadlineScheduler
  | .schedule type monotonicNs userData =>
    let (error, handle, s) := s.schedule type monotonicNs userData
    (.scheduled error handle, s)
  | .cancel handle =>
    let (error, s) := s.cancel handle
    (.cancelled error, s)
  | .popDue now =>
    let (due, s) := s.popDue now
    (.popped due, s)

theorem perform_popDue (now : Nat) : s.perform (.popDue now) = (.popped (s.popDue now).1, (s.popDue now).2) := rfl

theorem perform_cancel (handle : DeadlineHandle) :
    s.perform (.cancel handle) = (.cancelled (s.cancel handle).1, (s.cancel handle).2) := rfl

/-- A cancel names a deadline by the slot and the generation of its handle only, although handles
have a third word, which is zero in all that were given out. -/
def Genuine (s : DeadlineScheduler) : SchedulerCall → Prop
  | .cancel handle => handle.reserved = 0 ∨ ∀ deadline sequence,
      s.pending handle.slot = some (deadline, sequence) → deadline.handle.generation ≠ handle.generation
  | _ => True

/-- The calls made so far with their replies, and the scheduler they led to; the timer never fails
and no cancel was given a handle that only looks like one of a waiting deadline. -/
inductive SchedulerRun (capacity : Nat) :
    List (SchedulerCall × SchedulerReply) → DeadlineScheduler → Prop
  | start {timerErrors s} (h : create capacity timerErrors = some s) (hq : Quiet s) :
      SchedulerRun capacity [] s
  | next {history s} (h : SchedulerRun capacity history s) (call : SchedulerCall)
      (hg : Genuine s call) :
      SchedulerRun capacity (history ++ [(call, (s.perform call).1)]) (s.perform call).2

structure Serves (capacity : Nat) (s : DeadlineScheduler) (q : DeadlineQueue) : Prop where
  wf : WF s
  sized : s.capacity = capacity
  quiet : Quiet s
  inOrder : InOrder s
  members : ∀ deadline, deadline ∈ q.pending ↔ ∃ slot, (s.node slot).active ∧ (s.node slot).deadline = deadline
  sorted : q.pending.Pairwise fun a b => (s.node a.handle.slot).sequence < (s.node b.handle.slot).sequence
  recent : ∀ slot, (s.node slot).active → (s.node slot).sequence < s.nextSequence
  counted : q.issued.length = s.nextSequence
  bounded : s.nextSequence ≤ 2 ^ 64 - 1
  generation : ∀ slot, (s.node slot).generation ≤ s.nextSequence
  issued : ∀ handle ∈ q.issued, handle.generation ≤ (s.node handle.slot).generation
  armed : s.armedDeadline = s.earliestDeadline

variable {s'' : DeadlineScheduler} {q q' : DeadlineQueue} {now capacity : Nat} {handle : DeadlineHandle}
  {deadline : Deadline} {call : SchedulerCall} {timerErrors : List Nat} {n : DeadlineNode}

theorem WF.slot_of_active (h : WF s) (ha : (s.node slot).active) : (s.node slot).deadline.handle.slot = slot := by
  rw [(h.handle slot ha).1]

theorem Serves.create (h : create capacity timerErrors = some s) (hq : Quiet s) : Serves capacity s {} := by
  obtain ⟨hwf, _, _, hcap, _⟩ := create_wf h
  have hno := create_node h
  unfold DeadlineScheduler.create at h
  split at h
  next => cases h
  cases h
  refine ⟨hwf, hcap, hq, fun i _ hi => ?_, fun deadline => ?_, .nil, fun slot ha => ?_, rfl,
    zero_le _, fun slot => ?_, fun handle hm => ?_, rfl⟩
  · cases hi
  · simp [hno]
  · rw [hno] at ha
    cases ha
  · simp [hno]
  · cases hm

def Armed (s s' : DeadlineScheduler) : Prop :=
  s' = { s with armedDeadline := s.earliestDeadline, timerErrors := s'.timerErrors }

theorem Armed.node (h : Armed s s') (x : Nat) : s'.node x = s.node x := by
  rw [h]
  rfl

theorem Armed.inOrder (h : Armed s s') (ho : InOrder s) : InOrder s' := by
  rw [h]
  exact ho

theorem Armed.armed (h : Armed s s') : s'.armedDeadline = s'.earliestDeadline := by
  rw [h]
  rfl

/-- `n` was put into the slot, and the other nodes differ only in their places. -/
structure Entered (s s' : DeadlineScheduler) (slot : Nat) (n : DeadlineNode) : Prop where
  self : ∃ place, s'.node slot = { n with heapIndex := place }
  other : ∀ x, x ≠ slot → ∃ place, s'.node x = { s.node x with heapIndex := place }
  nextSequence : s'.nextSequence = s.nextSequence + 1
  capacity : s'.capacity = s.capacity

theorem Entered.active_iff (h : Entered s s' slot n) (hn : n.active)
    (hid : ¬(s.node slot).active) (d : Deadline) : (∃ x, (s'.node x).active ∧ (s'.node x).deadline = d) ↔
      (∃ x, (s.node x).active ∧ (s.node x).deadline = d) ∨ d = n.deadline := by
  obtain ⟨place, hsf⟩ := h.self
  constructor
  · rintro ⟨x, hx, rfl⟩
    by_cases hxs : x = slot
    · rw [hxs, hsf]
      exact .inr rfl
    · obtain ⟨_, hxn⟩ := h.other x hxs
      rw [hxn] at hx ⊢
      exact .inl ⟨x, hx, rfl⟩
  · rintro (⟨x, hx, rfl⟩ | rfl)
    · obtain ⟨_, hxn⟩ := h.other x (by rintro rfl; exact hid hx)
      exact ⟨x, by rw [hxn]; exact hx, by rw [hxn]⟩
    · exact ⟨slot, by rw [hsf]; exact hn, by rw [hsf]⟩

theorem Entered.keeps (h : Entered s s' slot n) {P : Nat → DeadlineNode → Prop}
    (hP : ∀ x m place, P x m → P x { m with heapIndex := place }) (hn : P slot n)
    (ho : ∀ x, P x (s.node x)) (x : Nat) : P x (s'.node x) := by
  by_cases hxs : x = slot
  · obtain ⟨place, hsf⟩ := h.self
    rw [hxs, hsf]
    exact hP _ _ _ hn
  · obtain ⟨place, hoth⟩ := h.other x hxs
    rw [hoth]
    exact hP _ _ _ (ho x)

theorem appended_entered (hw : WF s) (hf : s.freeSlots = slot :: free)
    (he : Armed ((s.appended type time data slot free).siftUp s.heap.length) s') :
    WF s' ∧ Entered s s' slot (s.enteredNode type time data slot) := by
  obtain ⟨hb, _⟩ := (hw.freeIff slot).mp (by rw [hf]; exact mem_cons_self ..)
  obtain ⟨hwu, hus⟩ := siftUp_appended hw hf
  refine ⟨hwu.of_eq he, ?_, fun x hne => ?_, ?_, ?_⟩
  · obtain ⟨place, hx⟩ := hus.node slot
    rw [appended_node hb, if_pos rfl] at hx
    exact ⟨place, (he.node slot).trans hx⟩
  · obtain ⟨place, hx⟩ := hus.node x
    rw [appended_node hb, if_neg hne] at hx
    exact ⟨place, (he.node x).trans hx⟩
  · rw [he, hus.frame]
    rfl
  · rw [he]
    exact hus.length.trans (by simp [appended, capacity])

def Names (s : DeadlineScheduler) (handle : DeadlineHandle) : Prop :=
  (s.node handle.slot).active ∧ (s.node handle.slot).generation = handle.generation

theorem cancel_unknown (h : ¬s.Names handle) : s.cancel handle = (.invalidHandle, s) := by
  unfold cancel
  split
  next => rfl
  rw [if_pos]
  by_cases ha : (s.node handle.slot).active
  · exact .inr fun he => h ⟨ha, he⟩
  · exact .inl (by simpa using ha)

section

variable (h : Serves capacity s q)

include h

theorem Serves.active_of_mem (hm : deadline ∈ q.pending) :
    (s.node deadline.handle.slot).active ∧ (s.node deadline.handle.slot).deadline = deadline := by
  obtain ⟨slot, ha, rfl⟩ := (h.members deadline).mp hm
  rw [h.wf.slot_of_active ha]
  exact ⟨ha, rfl⟩

theorem Serves.slots_perm : (q.pending.map (·.handle.slot)).Perm s.heap := by
  have hnd : (q.pending.map (·.handle.slot)).Nodup := by
    rw [Nodup, pairwise_map]
    refine h.sorted.imp fun hlt he => ?_
    rw [he] at hlt
    omega
  refine (perm_ext_iff_of_nodup hnd h.wf.tracks.nodup).mpr fun slot => ?_
  rw [h.wf.heapIff, mem_map]
  constructor
  · rintro ⟨deadline, hm, rfl⟩
    exact (h.active_of_mem hm).1
  · intro ha
    exact ⟨_, (h.members _).mpr ⟨slot, ha, rfl⟩, h.wf.slot_of_active ha⟩

theorem Serves.length_eq : q.pending.length = s.heap.length := by
  have := h.slots_perm.length_eq
  rwa [length_map] at this

theorem Serves.earliest (hne : s.heap ≠ []) : q.earliest = some (s.node (s.heapAt 0)).deadline := by
  have hroot : (s.node (s.heapAt 0)).active :=
    (h.wf.heapIff _).mp (mem_of_getElem? (heapAt_eq (length_pos_iff.mpr hne)))
  refine argmin_of_first h.sorted ((h.members _).mpr ⟨_, hroot, rfl⟩) fun other hoth => ?_
  obtain ⟨slot, ha, rfl⟩ := (h.members other).mp hoth
  rw [h.wf.slot_of_active hroot, h.wf.slot_of_active ha]
  exact h.inOrder.root_le h.wf ha

theorem Serves.earliest_none (he : s.heap = []) : q.earliest = none := by
  have hlen := h.length_eq
  rw [he, length_nil, length_eq_zero_iff] at hlen
  rw [DeadlineQueue.earliest, hlen]
  rfl

theorem Serves.earliestDeadline_eq : s.earliestDeadline = q.earliest.map (·.monotonicNs) := by
  unfold earliestDeadline
  split
  next he =>
    rw [h.earliest_none he]
    rfl
  next hne =>
    rw [h.earliest hne]
    rfl

theorem Serves.removed (hr : Removed s s' slot) (ho : InOrder s')
    (ha : (s.node slot).active) (he : Armed s' s'') (hq : Quiet s'') :
    Serves capacity s'' (q.withdraw (s.node slot).deadline.handle) := by
  have hke : ∀ x, (s''.node x).deadline = (s.node x).deadline ∧
      (s''.node x).sequence = (s.node x).sequence ∧
      (s''.node x).generation = (s.node x).generation := by
    intro x
    obtain ⟨place, hx⟩ := hr.node x
    rw [he.node, hx]
    exact ⟨rfl, rfl, rfl⟩
  have hact : ∀ x, (s''.node x).active ↔ x ≠ slot ∧ (s.node x).active := by
    intro x
    rw [he.node]
    exact hr.active
  have hnx : s''.nextSequence = s.nextSequence := by rw [he, hr.frame]
  have hcap : s''.capacity = s.capacity := by
    rw [he]
    exact hr.length
  refine ⟨(hr.wf h.wf).of_eq he, hcap.trans h.sized, hq, he.inOrder ho, fun deadline => ?_, ?_, fun x hx => ?_, ?_, ?_,
    fun x => ?_, fun handle hm => ?_, he.armed⟩
  · rw [withdraw, mem_filter, h.members]
    constructor
    · rintro ⟨⟨x, hx, rfl⟩, hne⟩
      refine ⟨x, (hact x).mpr ⟨?_, hx⟩, (hke x).1⟩
      rintro rfl
      simp at hne
    · rintro ⟨x, hx, rfl⟩
      obtain ⟨hne, hxa⟩ := (hact x).mp hx
      refine ⟨⟨x, hxa, (hke x).1.symm⟩, ?_⟩
      rw [(hke x).1, decide_eq_true_iff]
      intro hsm
      have := h.wf.slot_of_active hxa
      rw [hsm, h.wf.slot_of_active ha] at this
      exact hne this.symm
  · refine (h.sorted.filter _).imp fun hlt => ?_
    rw [(hke _).2.1, (hke _).2.1]
    exact hlt
  · rw [(hke x).2.1, hnx]
    exact h.recent x ((hact x).mp hx).2
  · rw [hnx]
    exact h.counted
  · rw [hnx]
    exact h.bounded
  · rw [(hke x).2.2, hnx]
    exact h.generation x
  · rw [(hke _).2.2]
    exact h.issued handle hm

theorem Serves.removeAt (hi : index < s.heap.length) :
    ∃ s', (s.removeAt index).syncResult = (.ok, s') ∧
      Serves capacity s' (q.withdraw (s.node (s.heapAt index)).deadline.handle) := by
  have hr := removeAt_removed h.wf.indexed hi
  have hqt : Quiet (s.removeAt index) := by
    rw [hr.frame]
    exact h.quiet
  obtain ⟨s', hs, he, hq⟩ := syncResult_quiet hqt
  have ha := (h.wf.heapIff _).mp (mem_of_getElem? (heapAt_eq hi))
  exact ⟨s', hs, h.removed hr (removeAt_inOrder h.wf.indexed h.inOrder hi) ha he hq⟩

theorem Serves.entered (hf : s.freeSlots = slot :: free) (hs : s.nextSequence ≠ 2 ^ 64 - 1)
    (he : Armed ((s.appended type time data slot free).siftUp s.heap.length) s')
    (hq : Quiet s') : (s.enteredNode type time data slot).deadline.handle ∉ q.issued ∧
      Serves capacity s' (q.enqueue (s.enteredNode type time data slot).deadline) := by
  obtain ⟨_, hid⟩ := (h.wf.freeIff slot).mp (by rw [hf]; exact mem_cons_self ..)
  obtain ⟨hwf, hent⟩ := appended_entered h.wf hf he
  have hbdd := h.bounded
  have hgen : (s.enteredNode type time data slot).generation = (s.node slot).generation + 1 := by
    have := h.generation slot
    show OrderTable.nextGeneration _ = _
    rw [OrderTable.nextGeneration, mod_eq_of_lt (by omega), if_neg (by omega)]
  have hgrow : ∀ x, (s.node x).generation ≤ (s'.node x).generation :=
    hent.keeps (P := fun x n => (s.node x).generation ≤ n.generation) (fun _ _ _ hx => hx) (by omega) fun _ => le_rfl
  -- the deadlines that wait already are in other slots
  have hold : ∀ d ∈ q.pending, (s'.node d.handle.slot).sequence = (s.node d.handle.slot).sequence := by
    intro d hd
    obtain ⟨_, hx⟩ := hent.other d.handle.slot (by rintro rfl; exact hid (h.active_of_mem hd).1)
    rw [hx]
  refine ⟨fun hm => ?_, hwf, hent.capacity.trans h.sized, hq,
    he.inOrder (appended_inOrder h.wf h.inOrder hf), fun d => ?_, ?_, ?_, ?_, ?_, ?_, fun handle hm => ?_,
    he.armed⟩
  · have hle : (s.enteredNode type time data slot).generation ≤ (s.node slot).generation := h.issued _ hm
    omega
  · rw [enqueue, mem_append, mem_singleton, h.members]
    exact (hent.active_iff rfl hid d).symm
  · refine pairwise_append.mpr ⟨?_, pairwise_singleton _ _, fun a ha b hb => ?_⟩
    · refine h.sorted.imp_of_mem fun ha hb hlt => ?_
      rw [hold _ ha, hold _ hb]
      exact hlt
    · obtain ⟨_, hsf⟩ := hent.self
      rw [mem_singleton.mp hb, hold _ ha]
      show _ < (s'.node slot).sequence
      rw [hsf]
      exact h.recent _ (h.active_of_mem ha).1
  · rw [hent.nextSequence]
    exact hent.keeps (P := fun _ n => n.active → n.sequence < s.nextSequence + 1)
      (fun _ _ _ hx => hx) (fun _ => lt_succ_self _) fun x hx => lt_succ_of_lt (h.recent x hx)
  · rw [hent.nextSequence, ← h.counted]
    rfl
  · rw [hent.nextSequence]
    omega
  · rw [hent.nextSequence]
    have hsl := h.generation slot
    exact hent.keeps (P := fun _ n => n.generation ≤ s.nextSequence + 1) (fun _ _ _ hx => hx)
      (by omega) fun x => (h.generation x).trans (le_succ _)
  · obtain rfl | hm := mem_cons.mp hm
    · obtain ⟨_, hsf⟩ := hent.self
      show (s.enteredNode type time data slot).generation ≤ (s'.node slot).generation
      rw [hsf]
    · exact (h.issued handle hm).trans (hgrow _)

end

theorem WF.lengths (h : WF s) : s.heap.length + s.freeSlots.length = s.capacity := by
  have hpm : (s.heap ++ s.freeSlots).Perm (range s.capacity) := by
    refine (perm_ext_iff_of_nodup (nodup_append.mpr ⟨h.tracks.nodup, h.freeNodup, ?_⟩) nodup_range).mpr fun slot => ?_
    · rintro a ha _ hb rfl
      exact ((h.freeIff a).mp hb).2 ((h.heapIff a).mp ha)
    · rw [mem_append, h.heapIff, h.freeIff, mem_range]
      constructor
      · rintro (ha | ⟨hb, _⟩)
        · exact lt_length_of_active ha
        · exact hb
      · intro hb
        by_cases ha : (s.node slot).active
        · exact .inl ha
        · exact .inr ⟨hb, ha⟩
  have := hpm.length_eq
  rwa [length_append, length_range] at this

theorem Serves.schedule (h : Serves capacity s q) :
    ∃ q', q.Step capacity (.schedule type time data) (s.perform (.schedule type time data)).1 q' ∧
      Serves capacity (s.perform (.schedule type time data)).2 q' := by
  have hlen := h.length_eq
  have hlens := h.wf.lengths
  rw [h.sized] at hlens
  unfold perform DeadlineScheduler.schedule
  cases hf : s.freeSlots with
  | nil =>
    rw [hf, length_nil] at hlens
    exact ⟨q, .full (by omega), h⟩
  | cons slot free =>
    rw [hf, length_cons] at hlens
    by_cases hs : s.nextSequence = 2 ^ 64 - 1
    · dsimp only
      rw [if_pos hs]
      exact ⟨q, .exhausted (by omega) (h.counted.trans hs), h⟩
    · have hqt : Quiet ((s.appended type time data slot free).siftUp
          s.heap.length) := by
        rw [(siftUp_appended h.wf hf).2.frame]
        exact h.quiet
      obtain ⟨s', hs', he, hq⟩ := syncResult_quiet hqt
      obtain ⟨hnew, hsrv⟩ := h.entered hf hs he hq
      have hbdd := h.bounded
      have hctd := h.counted
      dsimp only
      rw [if_neg hs, enter_eq]
      rw [hs']
      exact ⟨_, .scheduled (by omega) (by omega) hnew, hsrv⟩

section

variable (h : Serves capacity s q)

include h

theorem Serves.cancel_named (hn : s.Names handle) : ∃ s', s.cancel handle = (.ok, s') ∧
      Serves capacity s' (q.withdraw (s.node handle.slot).deadline.handle) := by
  obtain ⟨ha, hg⟩ := hn
  obtain ⟨hi, hat⟩ := heapAt_heapIndex h.wf ha
  have hr := h.removeAt hi
  rw [hat] at hr
  have hb := lt_length_of_active ha
  unfold cancel
  rw [if_neg (by omega), if_neg (by simp [ha, hg])]
  exact hr

theorem Serves.waiting_iff : q.Waiting handle ↔ s.Names handle ∧ handle.reserved = 0 := by
  unfold Waiting
  rw [mem_map]
  constructor
  · rintro ⟨d, hd, rfl⟩
    obtain ⟨ha, hdl⟩ := h.active_of_mem hd
    have hh := (h.wf.handle _ ha).1
    rw [hdl] at hh
    exact ⟨⟨ha, (congrArg DeadlineHandle.generation hh).symm⟩, congrArg DeadlineHandle.reserved hh⟩
  · rintro ⟨⟨ha, hg⟩, hz⟩
    refine ⟨_, (h.members _).mpr ⟨handle.slot, ha, rfl⟩, ?_⟩
    rw [(h.wf.handle _ ha).1, hg, ← hz]

theorem Serves.genuine_iff : Genuine s (.cancel handle) ↔ (s.Names handle → handle.reserved = 0) := by
  constructor
  · rintro (hz | hp) ⟨ha, hg⟩
    · exact hz
    · refine absurd ?_ (hp _ _ (pending_eq_some.mpr ⟨ha, rfl, rfl⟩))
      rw [(h.wf.handle _ ha).1]
      exact hg
  · intro hz
    by_cases hz' : handle.reserved = 0
    · exact .inl hz'
    · refine .inr fun deadline sequence hp hg => hz' (hz ?_)
      obtain ⟨ha, rfl, _⟩ := pending_eq_some.mp hp
      rw [(h.wf.handle _ ha).1] at hg
      exact ⟨ha, hg⟩

theorem Serves.cancel (hg : Genuine s (.cancel handle)) :
    ∃ q', q.Step capacity (.cancel handle) (s.perform (.cancel handle)).1 q' ∧
      Serves capacity (s.perform (.cancel handle)).2 q' := by
  rw [perform_cancel]
  by_cases hn : s.Names handle
  · have hw := h.waiting_iff.mpr ⟨hn, h.genuine_iff.mp hg hn⟩
    obtain ⟨s', hs, hsrv⟩ := h.cancel_named hn
    have hhandle : (s.node handle.slot).deadline.handle = handle := by
      rw [(h.wf.handle _ hn.1).1, hn.2, ← h.genuine_iff.mp hg hn]
    rw [hhandle] at hsrv
    rw [hs]
    exact ⟨_, .cancelled hw, hsrv⟩
  · rw [cancel_unknown hn]
    exact ⟨q, .unknown fun hw => hn (h.waiting_iff.mp hw).1, h⟩

theorem Serves.popDue : ∃ q', q.Step capacity (.popDue now) (s.perform (.popDue now)).1 q' ∧
      Serves capacity (s.perform (.popDue now)).2 q' := by
  rw [perform_popDue]
  unfold DeadlineScheduler.popDue
  by_cases he : s.heap = []
  · rw [if_pos (.inl he)]
    refine ⟨q, .idle fun deadline hd => ?_, h⟩
    rw [h.earliest_none he] at hd
    cases hd
  · by_cases hnow : now < (s.node (s.heapAt 0)).deadline.monotonicNs
    · rw [if_pos (.inr hnow)]
      refine ⟨q, .idle fun deadline hd => ?_, h⟩
      rw [h.earliest he] at hd
      cases hd
      exact hnow
    · rw [if_neg (not_or.mpr ⟨he, hnow⟩)]
      obtain ⟨s', hs, hsrv⟩ := h.removeAt (length_pos_iff.mpr he)
      rw [hs]
      exact ⟨_, .due (h.earliest he) (not_lt.mp hnow), hsrv⟩

theorem Serves.perform (hg : Genuine s call) :
    ∃ q', q.Step capacity call (s.perform call).1 q' ∧ Serves capacity (s.perform call).2 q' := by
  cases call with
  | schedule type time data => exact h.schedule
  | cancel handle => exact h.cancel hg
  | popDue now => exact h.popDue

theorem Serves.genuine_of_step (hs : q.Step capacity call (s.perform call).1 q') : Genuine s call := by
  cases call with
  | schedule | popDue => trivial
  | cancel handle =>
    rw [h.genuine_iff]
    intro hn
    obtain ⟨s', hc, _⟩ := h.cancel_named hn
    rw [perform_cancel, hc] at hs
    cases hs with
    | cancelled hw => exact (h.waiting_iff.mp hw).2

end

variable {history : List (SchedulerCall × SchedulerReply)}

theorem SchedulerRun.serves (h : SchedulerRun capacity history s) :
    ∃ q, Run capacity history q ∧ Serves capacity s q := by
  induction h with
  | start h hq => exact ⟨{}, .start, Serves.create h hq⟩
  | next _ call hg ih =>
    obtain ⟨q, hrun, hs⟩ := ih
    obtain ⟨q', hst, hs'⟩ := hs.perform hg
    exact ⟨q', hrun.next hst, hs'⟩

/-- The scheduler is a stable priority queue: what it replied is what the queue replies, the timer
is set for the queue's earliest deadline, and the next call is answered as the queue answers it
unless it cancels with a handle that only looks like that of a waiting deadline. -/
theorem scheduler_stableQueue (h : SchedulerRun capacity history s) :
    ∃ q, Run capacity history q ∧ q.Conserved ∧
      s.armedDeadline = s.earliestDeadline ∧ s.earliestDeadline = q.earliest.map (·.monotonicNs) ∧
      ∀ call, (∃ q', q.Step capacity call (s.perform call).1 q') ↔ Genuine s call := by
  obtain ⟨q, hrun, hs⟩ := h.serves
  refine ⟨q, hrun, hrun.conserved, hs.armed, hs.earliestDeadline_eq, fun call => ⟨?_, fun hg => ?_⟩⟩
  · rintro ⟨q', hstep⟩
    exact hs.genuine_of_step hstep
  · obtain ⟨q', hstep, _⟩ := hs.perform hg
    exact ⟨q', hstep⟩

def samplePair : DeadlineScheduler := { nodes := replicate 2 {}, freeSlots := [0, 1] }

def sampleCalls : List SchedulerCall := [.schedule .gtd 50 1, .schedule .fakeHeartbeat 50 2, .cancel ⟨1, 0, 1⟩]

def samplePairAfter (calls : List SchedulerCall) : DeadlineScheduler :=
  calls.foldl (fun s call => (s.perform call).2) samplePair

theorem scheduler_stableQueue_sample :
    ∃ q, Run 2 [(.schedule .gtd 50 1, .scheduled .ok ⟨0, 0, 1⟩),
        (.schedule .fakeHeartbeat 50 2, .scheduled .ok ⟨1, 0, 1⟩),
        (.cancel ⟨1, 0, 1⟩, .cancelled .ok)] q ∧ q.Conserved ∧
      (samplePairAfter sampleCalls).armedDeadline = (samplePairAfter sampleCalls).earliestDeadline ∧
      (samplePairAfter sampleCalls).earliestDeadline = q.earliest.map (·.monotonicNs) ∧
      ∀ call, (∃ q', q.Step 2 call ((samplePairAfter sampleCalls).perform call).1 q') ↔
        Genuine (samplePairAfter sampleCalls) call := by
  have hstart : SchedulerRun 2 [] samplePair := .start (show create 2 [] = some samplePair from rfl) (by decide)
  have hrun := ((hstart.next (.schedule .gtd 50 1) trivial).next
    (.schedule .fakeHeartbeat 50 2) trivial).next (.cancel ⟨1, 0, 1⟩) (.inl rfl)
  exact scheduler_stableQueue hrun

/-- The handle given out is `⟨0, 0, 1⟩`, but `⟨0, 5, 1⟩`, which was never given out, cancels its
deadline. -/
theorem forged_handle_cancels :
    (samplePair.schedule .gtd 50 1).1 = .ok ∧ (samplePair.schedule .gtd 50 1).2.1 = ⟨0, 0, 1⟩ ∧
      ((samplePair.schedule .gtd 50 1).2.2.cancel ⟨0, 5, 1⟩).1 = .ok ∧
      ((samplePair.schedule .gtd 50 1).2.2.cancel ⟨0, 5, 1⟩).2.size = 0 := by
  decide

end SelfQuant.Oms.DeadlineScheduler
