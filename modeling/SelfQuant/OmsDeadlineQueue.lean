import SelfQuant.OmsOrderTable
import Mathlib.Data.List.MinMax
import Mathlib.Data.Prod.Lex

namespace SelfQuant.Oms

inductive DeadlineType
  | gtd | fakeHeartbeat | fakeReconnect | futureListenKey | futureReconcile
deriving DecidableEq

structure DeadlineHandle where
  (slot reserved generation : Nat := 0)
deriving DecidableEq

structure Deadline where
  type : DeadlineType := .gtd
  (monotonicNs userData : Nat := 0)
  handle : DeadlineHandle := {}
deriving DecidableEq

inductive DeadlineError
  | ok | capacityExceeded | invalidHandle | sequenceExhausted | timerFailure
deriving DecidableEq

def kNotInHeap : Nat := 0xffffffff

structure DeadlineNode where
  deadline : Deadline := {}
  sequence : Nat := 0
  heapIndex : Nat := kNotInHeap
  generation : Nat := 0
  active : Bool := false
deriving DecidableEq

/-- The deadline heap. `heap` holds the slots in use, the free list is kept top first, and
`timerErrors` are the errors the timer will report when it is set, zero once they run out. -/
structure DeadlineScheduler where
  nodes : List DeadlineNode
  heap : List Nat := []
  freeSlots : List Nat
  nextSequence : Nat := 0
  armedDeadline : Option Nat := none
  timerErrors : List Nat := []
deriving DecidableEq

namespace DeadlineScheduler

def create (capacity : Nat) (timerErrors : List Nat) : Option DeadlineScheduler :=
  if capacity > 2 ^ 32 - 1 then none
  else some { nodes := List.replicate capacity {}, freeSlots := List.range capacity
              timerErrors := timerErrors }

variable (s : DeadlineScheduler)

def capacity : Nat := s.nodes.length

def size : Nat := s.heap.length

def node (slot : Nat) : DeadlineNode := (s.nodes[slot]?).getD {}

variable (index : Nat)

def heapAt : Nat := (s.heap[index]?).getD 0

def modifyNode (slot : Nat) (f : DeadlineNode → DeadlineNode) : DeadlineScheduler :=
  { s with nodes := s.nodes.set slot (f (s.node slot)) }

def earliestDeadline : Option Nat := if s.heap = [] then none else some (s.node (s.heapAt 0)).deadline.monotonicNs

def earlier (lhs rhs : Nat) : Bool :=
  if (s.node lhs).deadline.monotonicNs ≠ (s.node rhs).deadline.monotonicNs then
    decide ((s.node lhs).deadline.monotonicNs < (s.node rhs).deadline.monotonicNs)
  else decide ((s.node lhs).sequence < (s.node rhs).sequence)

def swapHeap (lhs rhs : Nat) : DeadlineScheduler :=
  let lhsSlot := s.heapAt lhs
  let rhsSlot := s.heapAt rhs
  let s := { s with heap := (s.heap.set lhs rhsSlot).set rhs lhsSlot }
  let s := s.modifyNode rhsSlot fun n => { n with heapIndex := lhs }
  s.modifyNode lhsSlot fun n => { n with heapIndex := rhs }

/-- The loop of `siftUp`; the index falls at each turn, so it never uses up `index` turns. -/
def siftUpLoop : Nat → DeadlineScheduler → Nat → DeadlineScheduler
  | 0, s, _ => s
  | fuel + 1, s, index =>
    if index = 0 then s
    else
      let parent := (index - 1) / 2
      if !s.earlier (s.heapAt index) (s.heapAt parent) then s
      else siftUpLoop fuel (s.swapHeap index parent) parent

def siftUp : DeadlineScheduler := siftUpLoop index s index

/-- The loop of `siftDown`; the index grows at each turn and stays below the heap size. -/
def siftDownLoop : Nat → DeadlineScheduler → Nat → DeadlineScheduler
  | 0, s, _ => s
  | fuel + 1, s, index =>
    let left := index * 2 + 1
    if s.heap.length ≤ left then s
    else
      let right := left + 1
      let child := if right < s.heap.length ∧ s.earlier (s.heapAt right) (s.heapAt left) then right
        else left
      if !s.earlier (s.heapAt child) (s.heapAt index) then s
      else siftDownLoop fuel (s.swapHeap index child) child

def siftDown : DeadlineScheduler := siftDownLoop s.heap.length s index

def removeAt : DeadlineScheduler :=
  let removed := s.heapAt index
  let last := s.heap.length - 1
  let s := if index ≠ last then s.swapHeap index last else s
  let s := { s with heap := s.heap.dropLast }
  let s := s.modifyNode removed fun n => { n with active := false, heapIndex := kNotInHeap }
  let s := { s with freeSlots := removed :: s.freeSlots }
  if s.heap.length ≤ index then s
  else if index ≠ 0 ∧ s.earlier (s.heapAt index) (s.heapAt ((index - 1) / 2)) then s.siftUp index
  else s.siftDown index

def syncTimer : Nat × DeadlineScheduler :=
  if s.earliestDeadline = s.armedDeadline then (0, s)
  else
    let error := s.timerErrors.headD 0
    let s' := { s with timerErrors := s.timerErrors.tail }
    (error, if error = 0 then { s' with armedDeadline := s.earliestDeadline } else s')

def syncResult : DeadlineError × DeadlineScheduler :=
  let (error, s) := s.syncTimer
  (if error ≠ 0 then .timerFailure else .ok, s)

def enter (type : DeadlineType) (monotonicNs userData slot : Nat)
    (freeSlots : List Nat) : DeadlineHandle × DeadlineScheduler :=
  let generation := OrderTable.nextGeneration (s.node slot).generation
  let handle : DeadlineHandle := ⟨slot, 0, generation⟩
  let entered : DeadlineNode :=
    { deadline := ⟨type, monotonicNs, userData, handle⟩, sequence := s.nextSequence
      heapIndex := s.heap.length, generation := generation, active := true }
  let s' := { s with
    nodes := s.nodes.set slot entered, heap := s.heap ++ [slot], freeSlots := freeSlots
    nextSequence := s.nextSequence + 1 }
  (handle, s'.siftUp s.heap.length)

def schedule (type : DeadlineType) (monotonicNs userData : Nat) :
    DeadlineError × DeadlineHandle × DeadlineScheduler :=
  match s.freeSlots with
  | [] => (.capacityExceeded, {}, s)
  | slot :: freeSlots =>
    if s.nextSequence = 2 ^ 64 - 1 then (.sequenceExhausted, {}, s)
    else
      let (handle, s) := s.enter type monotonicNs userData slot freeSlots
      let (error, s) := s.syncResult
      (error, handle, s)

def cancel (handle : DeadlineHandle) : DeadlineError × DeadlineScheduler :=
  if s.nodes.length ≤ handle.slot then (.invalidHandle, s)
  else if !(s.node handle.slot).active ∨ (s.node handle.slot).generation ≠ handle.generation then (.invalidHandle, s)
  else (s.removeAt (s.node handle.slot).heapIndex).syncResult

def popDue (nowMonotonicNs : Nat) : Option (Deadline × DeadlineError) × DeadlineScheduler :=
  if s.heap = [] ∨ nowMonotonicNs < (s.node (s.heapAt 0)).deadline.monotonicNs then (none, s)
  else
    let deadline := (s.node (s.heapAt 0)).deadline
    let (error, s) := (s.removeAt 0).syncResult
    (some (deadline, error), s)

end DeadlineScheduler

open List

inductive SchedulerCall
  | schedule (type : DeadlineType) (monotonicNs userData : Nat)
  | cancel (handle : DeadlineHandle)
  | popDue (now : Nat)
deriving DecidableEq

inductive SchedulerReply
  | scheduled (error : DeadlineError) (handle : DeadlineHandle)
  | cancelled (error : DeadlineError)
  | popped (due : Option (Deadline × DeadlineError))
deriving DecidableEq

/-- What the scheduler is for: a queue of deadlines. `pending` are those that wait, in the order
they were scheduled; `issued` are the handles given out and `finished` those whose deadline was
taken or cancelled, the last first. -/
structure DeadlineQueue where
  pending : List Deadline := []
  (issued finished : List DeadlineHandle := [])

namespace DeadlineQueue

variable (q : DeadlineQueue)

/-- The deadline of the least time, and of those for that time the one scheduled first. -/
def earliest : Option Deadline := q.pending.argmin (·.monotonicNs)

def Waiting (handle : DeadlineHandle) : Prop := handle ∈ q.pending.map (·.handle)

def enqueue (deadline : Deadline) : DeadlineQueue :=
  { q with pending := q.pending ++ [deadline], issued := deadline.handle :: q.issued }

def withdraw (handle : DeadlineHandle) : DeadlineQueue :=
  { q with pending := q.pending.filter (·.handle ≠ handle), finished := handle :: q.finished }

/-- What a stable priority queue of `capacity` deadlines replies. The handle of a new deadline is
one that was never given out. -/
inductive Step (capacity : Nat) (q : DeadlineQueue) :
    SchedulerCall → SchedulerReply → DeadlineQueue → Prop
  | full {type monotonicNs userData} (h : q.pending.length = capacity) :
      Step capacity q (.schedule type monotonicNs userData) (.scheduled .capacityExceeded {}) q
  | exhausted {type monotonicNs userData} (h : q.pending.length < capacity)
      (hs : q.issued.length = 2 ^ 64 - 1) :
      Step capacity q (.schedule type monotonicNs userData) (.scheduled .sequenceExhausted {}) q
  | scheduled {type monotonicNs userData handle} (h : q.pending.length < capacity)
      (hs : q.issued.length < 2 ^ 64 - 1) (hn : handle ∉ q.issued) :
      Step capacity q (.schedule type monotonicNs userData) (.scheduled .ok handle)
        (q.enqueue ⟨type, monotonicNs, userData, handle⟩)
  | cancelled {handle} (h : q.Waiting handle) :
      Step capacity q (.cancel handle) (.cancelled .ok) (q.withdraw handle)
  | unknown {handle} (h : ¬q.Waiting handle) :
      Step capacity q (.cancel handle) (.cancelled .invalidHandle) q
  | due {deadline now} (h : q.earliest = some deadline) (hd : deadline.monotonicNs ≤ now) :
      Step capacity q (.popDue now) (.popped (some (deadline, .ok))) (q.withdraw deadline.handle)
  | idle {now} (h : ∀ deadline, q.earliest = some deadline → now < deadline.monotonicNs) :
      Step capacity q (.popDue now) (.popped none) q

inductive Run (capacity : Nat) : List (SchedulerCall × SchedulerReply) → DeadlineQueue → Prop
  | start : Run capacity [] {}
  | next {history q call reply q'} (h : Run capacity history q)
      (hs : Step capacity q call reply q') :
      Run capacity (history ++ [(call, reply)]) q'

/-- Every deadline scheduled waits, or was taken or cancelled once. -/
structure Conserved (q : DeadlineQueue) : Prop where
  issuedOnce : q.issued.Nodup
  accounted : (q.pending.map (·.handle) ++ q.finished).Perm q.issued

variable {q q' : DeadlineQueue} {cap : Nat} {handle : DeadlineHandle} {deadline : Deadline}
  {call : SchedulerCall} {reply : SchedulerReply} {history : List (SchedulerCall × SchedulerReply)}
  {l : List Deadline}

theorem Conserved.enqueue (h : Conserved q) (hn : deadline.handle ∉ q.issued) : Conserved (q.enqueue deadline) := by
  refine ⟨nodup_cons.mpr ⟨hn, h.issuedOnce⟩, ?_⟩
  have hpm : ((q.pending ++ [deadline]).map (·.handle) ++ q.finished).Perm
      (deadline.handle :: (q.pending.map (·.handle) ++ q.finished)) := by
    rw [map_append, append_assoc]
    exact perm_middle
  exact hpm.trans (h.accounted.cons _)

theorem Conserved.nodup (h : Conserved q) : (q.pending.map (·.handle)).Nodup :=
  (nodup_append.mp (h.accounted.nodup_iff.mpr h.issuedOnce)).1

theorem filter_handle_perm (hn : (l.map (·.handle)).Nodup)
    (hm : handle ∈ l.map (·.handle)) :
    (handle :: (l.filter (·.handle ≠ handle)).map (·.handle)).Perm (l.map (·.handle)) := by
  have hfilt : (l.filter (·.handle ≠ handle)).map (·.handle) = (l.map (·.handle)).erase handle := by
    rw [Nodup.erase_eq_filter hn, filter_map]
    congr 2
    funext d
    exact decide_not
  rw [hfilt]
  exact (perm_cons_erase hm).symm

theorem Conserved.withdraw (h : Conserved q) (hw : q.Waiting handle) : Conserved (q.withdraw handle) := by
  refine ⟨h.issuedOnce, ?_⟩
  have hpm := (filter_handle_perm h.nodup hw).append_right q.finished
  exact (perm_middle.trans hpm).trans h.accounted

theorem Step.conserved (hs : Step cap q call reply q') (h : Conserved q) : Conserved q' := by
  cases hs with
  | full | exhausted | unknown | idle => exact h
  | scheduled _ _ hn => exact h.enqueue hn
  | cancelled hw => exact h.withdraw hw
  | due he _ => exact h.withdraw (mem_map_of_mem (argmin_mem he))

/-- Over any history a deadline is taken at most once, and never after it was cancelled. -/
theorem Run.conserved (h : Run cap history q) : Conserved q := by
  induction h with
  | start => exact ⟨nodup_nil, .nil⟩
  | next _ hs ih => exact hs.conserved ih

theorem argmin_of_first {rank : Deadline → Nat}
    (hs : l.Pairwise fun a b => rank a < rank b) (hm : deadline ∈ l)
    (hf : ∀ a ∈ l, toLex (deadline.monotonicNs, rank deadline) ≤ toLex (a.monotonicNs, rank a)) :
    l.argmin (·.monotonicNs) = some deadline := by
  rw [argmin_eq_some_iff]
  have hfst : ∀ a ∈ l, deadline.monotonicNs < a.monotonicNs ∨
      deadline.monotonicNs = a.monotonicNs ∧ rank deadline ≤ rank a := by
    intro a ha
    have := hf a ha
    rwa [Prod.Lex.toLex_le_toLex] at this
  refine ⟨hm, fun a ha => ?_, fun a ha hle => ?_⟩
  · have := hfst a ha
    omega
  · by_contra hlt
    rw [not_le] at hlt
    have hrk := pairwise_iff_getElem.mp hs _ _ (idxOf_lt_length_iff.mpr ha) (idxOf_lt_length_iff.mpr hm) hlt
    rw [getElem_idxOf, getElem_idxOf] at hrk
    have := hfst a ha
    omega

end DeadlineQueue

end SelfQuant.Oms
