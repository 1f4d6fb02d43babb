import SelfQuant.OmsDeadlineQueue
import SelfQuant.BackPointers
import SelfQuant.OmsTableSpec

namespace SelfQuant.Oms.DeadlineScheduler

open List Function OrderTable

variable {s s' s'' : DeadlineScheduler} {f : DeadlineNode → DeadlineNode} {slot index lhs rhs : Nat} {x : Nat}

theorem node_modifyNode (hb : slot < s.nodes.length) (x : Nat) :
    (s.modifyNode slot f).node x = if x = slot then f (s.node slot) else s.node x := by
  unfold modifyNode
  by_cases hx : x = slot
  · subst hx
    simp [node, hb]
  · simp [node, Ne.symm hx, hx]

theorem length_modifyNode : (s.modifyNode slot f).nodes.length = s.nodes.length := by
  simp [modifyNode]

theorem heapAt_eq (h : index < s.heap.length) : s.heap[index]? = some (s.heapAt index) := by
  simp [heapAt, h]

theorem lt_length_of_active (h : (s.node slot).active) : slot < s.nodes.length := by
  by_contra hb
  rw [node, getElem?_eq_none (by omega)] at h
  cases h

/-- Every slot of the heap exists and knows its place. -/
structure Indexed (s : DeadlineScheduler) : Prop where
  tracks : Tracks s.heap fun slot => (s.node slot).heapIndex
  bounded : ∀ slot ∈ s.heap, slot < s.nodes.length

/-- The heap was put in another order; the nodes differ only in their places. -/
structure Shuffled (s s' : DeadlineScheduler) : Prop where
  perm : s'.heap.Perm s.heap
  node : ∀ x, ∃ place, s'.node x = { s.node x with heapIndex := place }
  length : s'.nodes.length = s.nodes.length
  frame : s' = { s with heap := s'.heap, nodes := s'.nodes }

theorem Shuffled.refl : Shuffled s s := ⟨.rfl, fun _ => ⟨_, rfl⟩, rfl, rfl⟩

theorem Shuffled.trans (h : Shuffled s s') (h' : Shuffled s' s'') : Shuffled s s'' := by
  refine ⟨h'.perm.trans h.perm, fun x => ?_, h'.length.trans h.length, ?_⟩
  · obtain ⟨place, hx⟩ := h'.node x
    obtain ⟨_, hy⟩ := h.node x
    exact ⟨place, by rw [hx, hy]⟩
  · rw [h'.frame, h.frame]

theorem node_setPlace (hb : slot < s.nodes.length) (place x : Nat) :
    (s.modifyNode slot fun n => { n with heapIndex := place }).node x = { s.node x with
      heapIndex := update (fun y => (s.node y).heapIndex) slot place x } := by
  rw [node_modifyNode hb]
  by_cases hx : x = slot
  · rw [if_pos hx, hx, update_self]
  · rw [if_neg hx, update_of_ne hx]

theorem swapHeap_heap : (s.swapHeap lhs rhs).heap = exchange s.heap lhs rhs (s.heapAt lhs) (s.heapAt rhs) := rfl

/-- The slot is taken from the heap and is free again. -/
structure Removed (s s' : DeadlineScheduler) (slot : Nat) : Prop where
  indexed : Indexed s'
  perm : (slot :: s'.heap).Perm s.heap
  node : ∀ x, ∃ place, s'.node x = { s.node x with
    heapIndex := place, active := if x = slot then false else (s.node x).active }
  length : s'.nodes.length = s.nodes.length
  frame : s' = { s with heap := s'.heap, nodes := s'.nodes, freeSlots := slot :: s.freeSlots }

theorem Removed.shuffled (h : Removed s s' slot) (hi : Indexed s'') (h' : Shuffled s' s'') : Removed s s'' slot := by
  refine ⟨hi, (h'.perm.cons slot).trans h.perm, fun x => ?_, h'.length.trans h.length, ?_⟩
  · obtain ⟨place, hx⟩ := h'.node x
    obtain ⟨_, hy⟩ := h.node x
    exact ⟨place, by rw [hx, hy]⟩
  · rw [h'.frame, h.frame]

theorem Removed.after (h : Removed s' s'' slot) (h' : Shuffled s s') : Removed s s'' slot := by
  refine ⟨h.indexed, h.perm.trans h'.perm, fun x => ?_, h.length.trans h'.length, ?_⟩
  · obtain ⟨place, hx⟩ := h.node x
    obtain ⟨_, hy⟩ := h'.node x
    exact ⟨place, by rw [hx, hy]⟩
  · rw [h.frame, h'.frame]

def moveLast (s : DeadlineScheduler) (index : Nat) : DeadlineScheduler :=
  if index ≠ s.heap.length - 1 then s.swapHeap index (s.heap.length - 1) else s

def release (s : DeadlineScheduler) (slot : Nat) : DeadlineScheduler :=
  let s := { s with heap := s.heap.dropLast }
  let s := s.modifyNode slot fun n => { n with active := false, heapIndex := kNotInHeap }
  { s with freeSlots := slot :: s.freeSlots }

def settle (s : DeadlineScheduler) (index : Nat) : DeadlineScheduler :=
  if s.heap.length ≤ index then s
  else if index ≠ 0 ∧ s.earlier (s.heapAt index) (s.heapAt ((index - 1) / 2)) then s.siftUp index
  else s.siftDown index

theorem removeAt_eq : s.removeAt index = ((s.moveLast index).release (s.heapAt index)).settle index := rfl

theorem release_node (hb : slot < s.nodes.length) (x : Nat) : (s.release slot).node x =
    if x = slot then { s.node slot with active := false, heapIndex := kNotInHeap } else s.node x := by
  have h := node_modifyNode (s := { s with heap := s.heap.dropLast })
    (f := fun n => { n with active := false, heapIndex := kNotInHeap }) hb x
  exact h

section

variable (h : Indexed s)

include h

theorem Indexed.heapAt_lt (hi : index < s.heap.length) : s.heapAt index < s.nodes.length :=
  h.bounded _ (mem_of_getElem? (heapAt_eq hi))

theorem swapHeap_node (hl : lhs < s.heap.length) (hr : rhs < s.heap.length) :
    (s.swapHeap lhs rhs).node x = { s.node x with
      heapIndex := update (update (fun slot => (s.node slot).heapIndex)
        (s.heapAt rhs) lhs) (s.heapAt lhs) rhs x } := by
  have hfst := node_setPlace
    (s := { s with heap := (s.heap.set lhs (s.heapAt rhs)).set rhs (s.heapAt lhs) })
    (h.heapAt_lt hr) lhs
  unfold swapHeap
  rw [node_setPlace (by rw [length_modifyNode]; exact h.heapAt_lt hl)]
  simp only [hfst]
  rfl

theorem swapHeap_shuffled (hl : lhs < s.heap.length) (hr : rhs < s.heap.length) :
    Indexed (s.swapHeap lhs rhs) ∧ Shuffled s (s.swapHeap lhs rhs) := by
  have hpm : (s.swapHeap lhs rhs).heap.Perm s.heap := exchange_perm (heapAt_eq hl) (heapAt_eq hr)
  have hlen : (s.swapHeap lhs rhs).nodes.length = s.nodes.length := by
    simp [swapHeap, length_modifyNode]
  refine ⟨⟨?_, fun slot hs => ?_⟩, hpm, fun x => ⟨_, swapHeap_node h hl hr⟩, hlen, rfl⟩
  · simp only [swapHeap_node h hl hr]
    exact h.tracks.exchange (heapAt_eq hl) (heapAt_eq hr)
  · rw [hlen]
    exact h.bounded slot (hpm.mem_iff.mp hs)

theorem moveLast_shuffled (hi : index < s.heap.length) :
    Indexed (s.moveLast index) ∧ Shuffled s (s.moveLast index) ∧
      (s.moveLast index).heap.getLast? = some (s.heapAt index) := by
  have hla : s.heap.length - 1 < s.heap.length := by omega
  unfold moveLast
  split
  next hne =>
    obtain ⟨hsi, hss⟩ := swapHeap_shuffled h hi hla
    refine ⟨hsi, hss, ?_⟩
    rw [getLast?_eq_getElem?, hss.perm.length_eq, swapHeap_heap,
      exchange_getElem? (heapAt_eq hi) (heapAt_eq hla), if_pos rfl]
  next he =>
    rw [not_not] at he
    exact ⟨h, .refl, by rw [getLast?_eq_getElem?, ← he, heapAt_eq hi]⟩

theorem release_removed (hla : s.heap.getLast? = some slot) : Removed s (s.release slot) slot := by
  have hheap : s.heap.dropLast ++ [slot] = s.heap := dropLast_append_getLast? _ hla
  have hpm : (slot :: s.heap.dropLast).Perm s.heap := by
    have := perm_append_singleton slot s.heap.dropLast
    rw [hheap] at this
    exact this.symm
  have hno := fun x => release_node (h.bounded slot (hpm.mem_iff.mp (mem_cons_self ..))) x
  have hlen : (s.release slot).nodes.length = s.nodes.length := by simp [release, length_modifyNode]
  refine ⟨⟨h.tracks.dropLast.congr fun x hx => ?_, fun x hx => ?_⟩, hpm, fun x => ?_, hlen, rfl⟩
  · have hne : x ≠ slot := by
      rintro rfl
      exact (nodup_cons.mp (hpm.nodup_iff.mpr h.tracks.nodup)).1 hx
    rw [hno, if_neg hne]
  · rw [hlen]
    exact h.bounded x (hpm.mem_iff.mp (mem_cons_of_mem slot hx))
  · refine ⟨if x = slot then kNotInHeap else (s.node x).heapIndex, (hno x).trans ?_⟩
    split
    next hx => rw [hx]
    next => rfl

end

theorem siftUpLoop_shuffled (fuel : Nat) (h : Indexed s) (hi : index < s.heap.length) :
    Indexed (siftUpLoop fuel s index) ∧ Shuffled s (siftUpLoop fuel s index) := by
  induction fuel generalizing s index with
  | zero => exact ⟨h, .refl⟩
  | succ fuel ih =>
    unfold siftUpLoop
    split
    next => exact ⟨h, .refl⟩
    dsimp only
    split
    next => exact ⟨h, .refl⟩
    have hp : (index - 1) / 2 < s.heap.length := by omega
    obtain ⟨hsi, hss⟩ := swapHeap_shuffled h hi hp
    obtain ⟨hli, hls⟩ := ih hsi (by rw [hss.perm.length_eq]; exact hp)
    exact ⟨hli, hss.trans hls⟩

theorem siftDownLoop_shuffled (fuel : Nat) (h : Indexed s) (hi : index < s.heap.length) :
    Indexed (siftDownLoop fuel s index) ∧ Shuffled s (siftDownLoop fuel s index) := by
  induction fuel generalizing s index with
  | zero => exact ⟨h, .refl⟩
  | succ fuel ih =>
    have hnx : ∀ child < s.heap.length,
        Indexed (if !s.earlier (s.heapAt child) (s.heapAt index) then s
          else siftDownLoop fuel (s.swapHeap index child) child) ∧
        Shuffled s (if !s.earlier (s.heapAt child) (s.heapAt index) then s
          else siftDownLoop fuel (s.swapHeap index child) child) := by
      intro child hc
      split
      next => exact ⟨h, .refl⟩
      obtain ⟨hsi, hss⟩ := swapHeap_shuffled h hi hc
      obtain ⟨hli, hls⟩ := ih hsi (by rw [hss.perm.length_eq]; exact hc)
      exact ⟨hli, hss.trans hls⟩
    unfold siftDownLoop
    dsimp only
    split
    next => exact ⟨h, .refl⟩
    next hlen =>
    refine hnx _ ?_
    split
    next hb => exact hb.1
    next => omega

theorem settle_shuffled (h : Indexed s) : Indexed (s.settle index) ∧ Shuffled s (s.settle index) := by
  unfold settle
  split
  next => exact ⟨h, .refl⟩
  next hlen =>
  rw [not_le] at hlen
  split
  next => exact siftUpLoop_shuffled _ h hlen
  next => exact siftDownLoop_shuffled _ h hlen

theorem removeAt_removed (h : Indexed s) (hi : index < s.heap.length) :
    Removed s (s.removeAt index) (s.heapAt index) := by
  obtain ⟨hmi, hms, hml⟩ := moveLast_shuffled h hi
  have hr := (release_removed hmi hml).after hms
  obtain ⟨hsi, hss⟩ := settle_shuffled hr.indexed
  exact hr.shuffled hsi hss

variable {type : DeadlineType} {now time data : Nat} {free : List Nat}
  {handle : DeadlineHandle} {deadline : Deadline} {sequence : Nat}

/-- What the scheduler is about: the deadline that waits in a slot, and when it was scheduled. -/
def pending (s : DeadlineScheduler) (slot : Nat) : Option (Deadline × Nat) :=
  if (s.node slot).active then some ((s.node slot).deadline, (s.node slot).sequence) else none

/-- The heap holds the slots in use, the free list the others, and the handle of a deadline
names its slot. -/
structure WF (s : DeadlineScheduler) : Prop where
  tracks : Tracks s.heap fun slot => (s.node slot).heapIndex
  heapIff : ∀ slot, slot ∈ s.heap ↔ (s.node slot).active
  freeIff : ∀ slot, slot ∈ s.freeSlots ↔ slot < s.nodes.length ∧ ¬(s.node slot).active
  freeNodup : s.freeSlots.Nodup
  handle : ∀ slot, (s.node slot).active →
    (s.node slot).deadline.handle = ⟨slot, 0, (s.node slot).generation⟩ ∧ (s.node slot).generation ≠ 0

def Quiet (s : DeadlineScheduler) : Prop := ∀ error ∈ s.timerErrors, error = 0

instance : Decidable (Quiet s) := inferInstanceAs (Decidable (∀ error ∈ s.timerErrors, error = 0))

theorem pending_eq_some : s.pending slot = some (deadline, sequence) ↔
    (s.node slot).active ∧ (s.node slot).deadline = deadline ∧ (s.node slot).sequence = sequence := by
  unfold pending
  split
  next h => simp [h]
  next h => simp [h]

theorem WF.indexed (h : WF s) : Indexed s := ⟨h.tracks, fun slot hs => lt_length_of_active ((h.heapIff slot).mp hs)⟩

theorem WF.mem_heap (h : WF s) : slot ∈ s.heap ↔ s.pending slot ≠ none := by
  rw [h.heapIff]
  unfold pending
  split
  next ha => simp [ha]
  next ha => simp [ha]

theorem WF.pending_handle (h : WF s) (hp : s.pending slot = some (deadline, sequence)) :
    deadline.handle = ⟨slot, 0, (s.node slot).generation⟩ ∧ (s.node slot).generation ≠ 0 := by
  obtain ⟨ha, rfl, _⟩ := pending_eq_some.mp hp
  exact h.handle slot ha

theorem WF.size_le (h : WF s) : s.size ≤ s.capacity := by
  have hsub := Nodup.subperm h.tracks.nodup (fun slot hs => mem_range.mpr (h.indexed.bounded slot hs))
  simpa [size, capacity] using hsub.length_le

structure Changed (s s' : DeadlineScheduler) (slot : Nat) (entry : Option (Deadline × Nat)) :
    Prop where
  wf : WF s'
  quiet : Quiet s'
  pending : s'.pending = update s.pending slot entry
  capacity : s'.capacity = s.capacity

theorem syncResult_quiet (hq : Quiet s) : ∃ s', s.syncResult = (.ok, s') ∧
    s' = { s with armedDeadline := s.earliestDeadline, timerErrors := s'.timerErrors } ∧ Quiet s' := by
  by_cases h : s.earliestDeadline = s.armedDeadline
  · exact ⟨s, by simp [syncResult, syncTimer, h], by rw [h], hq⟩
  · have hze : s.timerErrors.headD 0 = 0 := by
      cases he : s.timerErrors with
      | nil => rfl
      | cons error errors => exact hq error (by rw [he]; exact mem_cons_self ..)
    exact ⟨{ s with armedDeadline := s.earliestDeadline, timerErrors := s.timerErrors.tail },
      by simp only [syncResult, syncTimer, if_neg h, hze]; rfl, rfl, fun error he => hq error (mem_of_mem_tail he)⟩

theorem WF.of_eq (h : WF s) {armed : Option Nat} {errors : List Nat}
    (he : s' = { s with armedDeadline := armed, timerErrors := errors }) : WF s' := by
  subst he
  exact ⟨h.tracks, h.heapIff, h.freeIff, h.freeNodup, h.handle⟩

theorem Removed.active (h : Removed s s' slot) : (s'.node x).active ↔ x ≠ slot ∧ (s.node x).active := by
  obtain ⟨place, hx⟩ := h.node x
  rw [hx]
  by_cases he : x = slot <;> simp [he]

theorem Removed.wf (h : Removed s s' slot) (hw : WF s) : WF s' := by
  have hnd := nodup_cons.mp (h.perm.nodup_iff.mpr hw.indexed.tracks.nodup)
  have hmem : slot ∈ s.heap := h.perm.mem_iff.mp (mem_cons_self ..)
  have hfe : s'.freeSlots = slot :: s.freeSlots := by rw [h.frame]
  refine ⟨h.indexed.tracks, fun x => ?_, fun x => ?_, ?_, fun x hx => ?_⟩
  · rw [h.active, ← hw.heapIff, ← h.perm.mem_iff, mem_cons]
    constructor
    · intro hin
      exact ⟨fun he => hnd.1 (he ▸ hin), .inr hin⟩
    · rintro ⟨hne, he | hin⟩
      · exact absurd he hne
      · exact hin
  · rw [hfe, mem_cons, hw.freeIff, h.active, h.length]
    have hb := hw.indexed.bounded slot hmem
    by_cases he : x = slot
    · simp [he, hb]
    · simp [he]
  · rw [hfe, nodup_cons, hw.freeIff]
    exact ⟨fun hin => hin.2 ((hw.heapIff slot).mp hmem), hw.freeNodup⟩
  · obtain ⟨place, hn⟩ := h.node x
    rw [hn]
    exact hw.handle x (h.active.mp hx).2

theorem Removed.pending (h : Removed s s' slot) : s'.pending = update s.pending slot none := by
  funext x
  obtain ⟨place, hx⟩ := h.node x
  unfold DeadlineScheduler.pending
  rw [hx]
  by_cases he : x = slot
  · subst he
    simp
  · simp [he]

theorem removeAt_changed (hw : WF s) (hq : Quiet s) (hi : index < s.heap.length) :
    ∃ s', (s.removeAt index).syncResult = (.ok, s') ∧ Changed s s' (s.heapAt index) none ∧
      s'.size + 1 = s.size ∧ s'.nextSequence = s.nextSequence := by
  have hr := removeAt_removed hw.indexed hi
  have hframe := hr.frame
  have hqt : Quiet (s.removeAt index) := by
    rw [hframe]
    exact hq
  obtain ⟨s', hs, he, hq'⟩ := syncResult_quiet hqt
  have hsz : (s.removeAt index).heap.length + 1 = s.heap.length := by
    rw [← hr.perm.length_eq, length_cons]
  refine ⟨s', hs, ⟨(hr.wf hw).of_eq he, hq', ?_, ?_⟩, ?_, ?_⟩
  · rw [← hr.pending, he]
    rfl
  · rw [he]
    exact hr.length
  · rw [he]
    exact hsz
  · rw [he, hframe]

variable {capacity : Nat} {errors : List Nat}

theorem create_node (h : create capacity errors = some s) (slot : Nat) : s.node slot = {} := by
  unfold create at h
  split at h
  next => cases h
  rw [← Option.some.inj h, node]
  simp only [getElem?_replicate]
  split <;> rfl

theorem create_wf (h : create capacity errors = some s) :
    WF s ∧ s.pending = (fun _ => none) ∧ s.size = 0 ∧ s.capacity = capacity ∧ capacity ≤ 2 ^ 32 - 1 := by
  have hno := create_node h
  unfold create at h
  split at h
  next => cases h
  next hc =>
  cases h
  refine ⟨⟨fun i x hx => by simp at hx, fun slot => ?_, fun slot => ?_, nodup_range, ?_⟩,
    ?_, rfl, by simp [DeadlineScheduler.capacity], by omega⟩
  · simp [hno]
  · simp [hno]
  · simp [hno]
  · funext slot
    simp [pending, hno]

theorem Shuffled.active (h : Shuffled s s') : (s'.node x).active = (s.node x).active := by
  obtain ⟨place, hx⟩ := h.node x
  rw [hx]

theorem Shuffled.pending (h : Shuffled s s') : s'.pending = s.pending := by
  funext x
  obtain ⟨place, hx⟩ := h.node x
  unfold DeadlineScheduler.pending
  rw [hx]

theorem Shuffled.wf (h : Shuffled s s') (hi : Indexed s') (hw : WF s) : WF s' := by
  have hfe : s'.freeSlots = s.freeSlots := by rw [h.frame]
  refine ⟨hi.tracks, fun x => ?_, fun x => ?_, hfe ▸ hw.freeNodup, fun x hx => ?_⟩
  · rw [h.perm.mem_iff, hw.heapIff, h.active]
  · rw [hfe, hw.freeIff, h.length, h.active]
  · obtain ⟨place, hn⟩ := h.node x
    rw [h.active] at hx
    rw [hn]
    exact hw.handle x hx

/-- A node that waits in `slot` under the generation its handle carries. -/
def enteredNode (s : DeadlineScheduler) (type : DeadlineType) (monotonicNs userData slot : Nat) : DeadlineNode :=
  { deadline := ⟨type, monotonicNs, userData,
      ⟨slot, 0, nextGeneration (s.node slot).generation⟩⟩
    sequence := s.nextSequence, heapIndex := s.heap.length
    generation := nextGeneration (s.node slot).generation, active := true }

def appended (s : DeadlineScheduler) (type : DeadlineType) (monotonicNs userData slot : Nat)
    (freeSlots : List Nat) : DeadlineScheduler :=
  { s with
    nodes := s.nodes.set slot (s.enteredNode type monotonicNs userData slot)
    heap := s.heap ++ [slot], freeSlots := freeSlots, nextSequence := s.nextSequence + 1 }

theorem enter_eq : s.enter type time data slot free =
    (⟨slot, 0, nextGeneration (s.node slot).generation⟩,
      (s.appended type time data slot free).siftUp s.heap.length) := rfl

theorem appended_node (hb : slot < s.nodes.length) : (s.appended type time data slot free).node x =
      if x = slot then s.enteredNode type time data slot else s.node x := by
  by_cases hx : x = slot
  · subst hx
    simp [node, appended, hb]
  · simp [node, appended, Ne.symm hx, hx]

theorem appended_wf (type : DeadlineType) (time data : Nat) (hw : WF s)
    (hf : s.freeSlots = slot :: free) : WF (s.appended type time data slot free) := by
  obtain ⟨hb, hid⟩ := (hw.freeIff slot).mp (by rw [hf]; exact mem_cons_self ..)
  have hout : slot ∉ s.heap := fun hin => hid ((hw.heapIff slot).mp hin)
  have hnd := hw.freeNodup
  rw [hf, nodup_cons] at hnd
  have hfe := hw.freeIff
  rw [hf] at hfe
  have hpl : (fun x => ((s.appended type time data slot free).node x).heapIndex) =
      update (fun x => (s.node x).heapIndex) slot s.heap.length := by
    funext x
    rw [appended_node hb]
    by_cases hx : x = slot
    · rw [if_pos hx, hx, update_self]
      rfl
    · rw [if_neg hx, update_of_ne hx]
  refine ⟨?_, fun x => ?_, fun x => ?_, hnd.2, fun x hx => ?_⟩
  · rw [hpl]
    exact hw.tracks.push hout
  · rw [appended_node hb]
    by_cases hx : x = slot
    · simp [hx, appended, enteredNode]
    · simp [hx, appended, hw.heapIff]
  · rw [appended_node hb]
    by_cases hx : x = slot
    · simpa [hx, appended, enteredNode] using hnd.1
    · have := hfe x
      simpa [hx, appended] using this
  · rw [appended_node hb] at hx ⊢
    split at hx
    next he =>
      subst he
      rw [if_pos rfl]
      exact ⟨rfl, nextGeneration_ne_zero _⟩
    next he =>
      rw [if_neg he]
      exact hw.handle x hx

theorem appended_pending (hb : slot < s.nodes.length) :
    (s.appended type time data slot free).pending = update s.pending slot
      (some ((s.enteredNode type time data slot).deadline, s.nextSequence)) := by
  funext x
  unfold pending
  rw [appended_node hb]
  by_cases hx : x = slot
  · rw [if_pos hx, hx, update_self]
    rfl
  · rw [if_neg hx, update_of_ne hx]

theorem siftUp_appended (hw : WF s) (hf : s.freeSlots = slot :: free) :
    WF ((s.appended type time data slot free).siftUp s.heap.length) ∧
      Shuffled (s.appended type time data slot free)
        ((s.appended type time data slot free).siftUp s.heap.length) := by
  have hwa := appended_wf type time data hw hf
  obtain ⟨hui, hus⟩ := siftUpLoop_shuffled s.heap.length hwa.indexed (show s.heap.length < _ by simp [appended])
  exact ⟨hus.wf hui hwa, hus⟩

inductive Scheduled (s : DeadlineScheduler) (type : DeadlineType) (monotonicNs userData : Nat) :
    DeadlineError × DeadlineHandle × DeadlineScheduler → Prop
  | full (h : s.freeSlots = []) : Scheduled s type monotonicNs userData (.capacityExceeded, {}, s)
  | exhausted (h : s.nextSequence = 2 ^ 64 - 1) :
      Scheduled s type monotonicNs userData (.sequenceExhausted, {}, s)
  | entered {handle : DeadlineHandle} {s' : DeadlineScheduler} (hb : handle.slot < s.capacity)
      (hn : s.pending handle.slot = none) (hg : handle.generation ≠ 0)
      (hc : Changed s s' handle.slot (some (⟨type, monotonicNs, userData, handle⟩, s.nextSequence)))
      (hs : s'.size = s.size + 1) : Scheduled s type monotonicNs userData (.ok, handle, s')

theorem schedule_scheduled (hw : WF s) (hq : Quiet s) : Scheduled s type time data (s.schedule type time data) := by
  unfold schedule
  split
  next hf => exact .full hf
  next slot free hf =>
  split
  next he => exact .exhausted he
  next he =>
  obtain ⟨hb, hid⟩ := (hw.freeIff slot).mp (by rw [hf]; exact mem_cons_self ..)
  obtain ⟨hwu, hus⟩ := siftUp_appended hw hf
  have hqt : Quiet ((s.appended type time data slot free).siftUp s.heap.length) := by
    rw [hus.frame]
    exact hq
  obtain ⟨s', hs, hs', hq'⟩ := syncResult_quiet hqt
  rw [enter_eq]
  dsimp only
  rw [hs]
  refine .entered hb (by simp [pending, hid]) (nextGeneration_ne_zero _) ⟨hwu.of_eq hs', hq', ?_, ?_⟩ ?_
  · rw [hs']
    exact hus.pending.trans (appended_pending hb)
  · rw [hs']
    exact hus.length.trans (by simp [appended, capacity])
  · rw [hs']
    exact hus.perm.length_eq.trans (by simp [appended, size])

theorem heapAt_heapIndex (hw : WF s) (ha : (s.node slot).active) :
    (s.node slot).heapIndex < s.heap.length ∧ s.heapAt (s.node slot).heapIndex = slot := by
  obtain ⟨i, hi⟩ := getElem?_of_mem ((hw.heapIff slot).mpr ha)
  have hpl : (s.node slot).heapIndex = i := hw.tracks i slot hi
  rw [hpl]
  exact ⟨(List.getElem?_eq_some_iff.mp hi).1, by rw [heapAt, hi, Option.getD_some]⟩

theorem cancel_changed (hw : WF s) (hq : Quiet s) (hp : s.pending slot = some (deadline, sequence)) :
    ∃ s', s.cancel deadline.handle = (.ok, s') ∧ Changed s s' slot none ∧ s'.size + 1 = s.size ∧
      s'.nextSequence = s.nextSequence := by
  obtain ⟨ha, _, _⟩ := pending_eq_some.mp hp
  obtain ⟨hi, hat⟩ := heapAt_heapIndex hw ha
  have hr := removeAt_changed hw hq hi
  rw [hat] at hr
  rw [(hw.pending_handle hp).1]
  have hb : ¬s.nodes.length ≤ slot := by
    have := lt_length_of_active ha
    omega
  simp only [cancel, if_neg hb, ha]
  simpa using hr

inductive Popped (s : DeadlineScheduler) (now : Nat) :
    Option (Deadline × DeadlineError) × DeadlineScheduler → Prop
  | idle : Popped s now (none, s)
  | due {slot sequence : Nat} {deadline : Deadline} {s' : DeadlineScheduler}
      (hp : s.pending slot = some (deadline, sequence)) (hc : Changed s s' slot none)
      (hs : s'.size + 1 = s.size) (hn : s'.nextSequence = s.nextSequence) :
      Popped s now (some (deadline, .ok), s')

theorem popDue_popped (hw : WF s) (hq : Quiet s) : Popped s now (s.popDue now) := by
  unfold popDue
  split
  next => exact .idle
  next h =>
  have hi : 0 < s.heap.length := by
    rw [not_or] at h
    exact length_pos_iff.mpr h.1
  obtain ⟨s', hs, hc, hsz, hn⟩ := removeAt_changed hw hq hi
  rw [hs]
  exact .due (pending_eq_some.mpr ⟨(hw.heapIff _).mp (mem_of_getElem? (heapAt_eq hi)), rfl, rfl⟩) hc hsz hn

end SelfQuant.Oms.DeadlineScheduler
