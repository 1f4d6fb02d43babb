import SelfQuant.RecentRing

namespace SelfQuant.Mds.Redundancy

inductive Feed
  | a | b
deriving DecidableEq

inductive ArbiterAction
  | publish | duplicate | bufferedGap | divergence | regression | resync
deriving DecidableEq

structure NativeEvent where
  (sequence payloadHash : Nat := 0)
  feed : Feed := .a
deriving DecidableEq

structure ArbiterDecision where
  action : ArbiterAction
  event : NativeEvent
  filledGap : Bool := false
deriving DecidableEq

structure PendingSlot where
  sequence : Nat
  first : NativeEvent
  hasSecond : Bool := false
  secondHash : Nat := 0
deriving DecidableEq

structure HistorySlot where
  (sequence payloadHash : Nat)
deriving DecidableEq

/-- The two rings have `maxGap + 1` and `2 * maxGap + 1` places; a place is empty or occupied. -/
structure SequenceArbiter where
  maxGap : Nat
  nextSequence : Nat := 0
  divergent : Bool := false
  pending : Nat → Option PendingSlot := fun _ => none
  publishedHashes : Nat → Option HistorySlot := fun _ => none

namespace SequenceArbiter

def create (maxGap : Nat) : SequenceArbiter := { maxGap := if maxGap = 0 then 1 else maxGap }

variable (s : SequenceArbiter)

def reset (nextSequence : Nat) : SequenceArbiter := { maxGap := s.maxGap, nextSequence := nextSequence }

def pendingIndex (sequence : Nat) : Nat := sequence % (s.maxGap + 1)

def historyIndex (sequence : Nat) : Nat := sequence % (s.maxGap * 2 + 1)

def release (publish : NativeEvent) : SequenceArbiter :=
  { s with
    publishedHashes := Function.update s.publishedHashes (s.historyIndex s.nextSequence)
      (some ⟨s.nextSequence, publish.payloadHash⟩)
    pending := Function.update s.pending (s.pendingIndex s.nextSequence) none
    nextSequence := (s.nextSequence + 1) % 2 ^ 64 }

/-- The loop that publishes what is due, with a bound on its turns. -/
def drain (gapFilled : Bool) : Nat → SequenceArbiter → List ArbiterDecision × SequenceArbiter
  | 0, s => ([], s)
  | turns + 1, s =>
    match s.pending (s.pendingIndex s.nextSequence) with
    | none => ([], s)
    | some current =>
      if current.sequence ≠ s.nextSequence then ([], s)
      else
        let (decisions, final) := drain gapFilled turns (s.release current.first)
        (⟨.publish, current.first, gapFilled⟩ :: decisions, final)

def holdsLater : Bool :=
  (List.range (s.maxGap + 1)).any fun i =>
    match s.pending i with
    | none => false
    | some slot => decide (slot.sequence > s.nextSequence)

variable (event : NativeEvent)

def start : SequenceArbiter :=
  { s with nextSequence := if s.nextSequence = 0 then event.sequence else s.nextSequence }

def Collides : Prop :=
  s.nextSequence ≤ event.sequence ∧ event.sequence - s.nextSequence ≤ s.maxGap ∧
    ∃ slot, s.pending (s.pendingIndex event.sequence) = some slot ∧ slot.sequence ≠ event.sequence

def occupy (slot : PendingSlot) : SequenceArbiter :=
  { s with pending := Function.update s.pending (s.pendingIndex slot.sequence) (some slot) }

def accept : List ArbiterDecision × SequenceArbiter :=
  let s := s.occupy { sequence := event.sequence, first := event }
  if event.sequence ≠ s.nextSequence then ([⟨.bufferedGap, event, false⟩], s)
  else drain s.holdsLater (s.maxGap + 2) s

/-- An event at or behind the one that is due, within the window. -/
def submitWindow : List ArbiterDecision × SequenceArbiter :=
  match s.pending (s.pendingIndex event.sequence) with
  | none => s.accept event
  | some position =>
    if position.sequence ≠ event.sequence then ([⟨.resync, event, false⟩], { s with divergent := true })
    else if position.first.payloadHash ≠ event.payloadHash then
      ([⟨.divergence, event, false⟩], { s with divergent := true })
    else ([⟨.duplicate, event, false⟩], s.occupy { position with hasSecond := true, secondHash := event.payloadHash })

def submitOld : List ArbiterDecision × SequenceArbiter :=
  match s.publishedHashes (s.historyIndex event.sequence) with
  | none => ([⟨.regression, event, false⟩], s)
  | some history =>
    if history.sequence ≠ event.sequence then ([⟨.regression, event, false⟩], s)
    else if history.payloadHash = event.payloadHash then ([⟨.duplicate, event, false⟩], s)
    else ([⟨.divergence, event, false⟩], { s with divergent := true })

def submitStarted : List ArbiterDecision × SequenceArbiter :=
  if event.sequence < s.nextSequence then s.submitOld event
  else if event.sequence - s.nextSequence > s.maxGap then ([⟨.resync, event, false⟩], { s with divergent := true })
  else s.submitWindow event

/-- `submit_each` with a sink that takes every decision. -/
def submit : List ArbiterDecision × SequenceArbiter :=
  if s.divergent then ([⟨.resync, event, false⟩], s) else (s.start event).submitStarted event

def run (s : SequenceArbiter) : List NativeEvent → List ArbiterDecision × SequenceArbiter
  | [] => ([], s)
  | event :: events =>
    let (decisions, s) := s.submit event
    let (rest, s) := s.run events
    (decisions ++ rest, s)

def published (decisions : List ArbiterDecision) : List NativeEvent :=
  (decisions.filter (·.action = .publish)).map (·.event)

end SequenceArbiter

open List Function

open SequenceArbiter (accept drain pendingIndex submitOld submitStarted submitWindow)

variable {first gap k : Nat} {submitted out : List NativeEvent} {e p : NativeEvent} {s : SequenceArbiter}

def firstOf (submitted : List NativeEvent) (sequence : Nat) : Option NativeEvent :=
  submitted.find? (·.sequence = sequence)

theorem firstOf_sequence (h : firstOf submitted k = some p) : p.sequence = k := by
  have hsm := find?_some h
  exact of_decide_eq_true hsm

theorem firstOf_mem (h : firstOf submitted k = some p) : p ∈ submitted := mem_of_find?_eq_some h

theorem firstOf_append (h : firstOf submitted k = some p) : firstOf (submitted ++ [e]) k = some p := by
  unfold firstOf at h ⊢
  rw [find?_append, h]
  rfl

theorem firstOf_new (h : ∀ p ∈ submitted, p.sequence ≠ e.sequence) :
    firstOf (submitted ++ [e]) e.sequence = some e := by
  have hno : submitted.find? (·.sequence = e.sequence) = none :=
    find?_eq_none.mpr fun p hp hsm => h p hp (of_decide_eq_true hsm)
  unfold firstOf
  rw [find?_append, hno]
  simp

/-- The events that went out have consecutive numbers, and are the first ones submitted for them. -/
structure Exact (first : Nat) (submitted out : List NativeEvent) : Prop where
  numbers : out.map (·.sequence) = range' first out.length
  firsts : ∀ p ∈ out, firstOf submitted p.sequence = some p

theorem Exact.submit (h : Exact first submitted out) (e : NativeEvent) : Exact first (submitted ++ [e]) out :=
  ⟨h.numbers, fun p hp => firstOf_append (h.firsts p hp)⟩

/-- What an arbiter that has not stopped knows: the events that went out, by their hashes, and those behind
them, in their places. -/
structure Tracks (gap first : Nat) (submitted out : List NativeEvent) (s : SequenceArbiter) : Prop where
  exact : Exact first submitted out
  maxGap : s.maxGap = gap
  next : s.nextSequence = first + out.length
  held : ∀ i slot, s.pending i = some slot → i = slot.sequence % (gap + 1) ∧ s.nextSequence ≤ slot.sequence ∧
    slot.sequence ≤ s.nextSequence + gap ∧ firstOf submitted slot.sequence = some slot.first
  hashes : ∀ i slot, s.publishedHashes i = some slot →
    ∃ p ∈ out, p.sequence = slot.sequence ∧ p.payloadHash = slot.payloadHash
  complete : ∀ p ∈ submitted, first ≤ p.sequence → p.sequence < s.nextSequence ∨
    ∃ slot, s.pending (p.sequence % (gap + 1)) = some slot ∧ slot.sequence = p.sequence

def Settled (s : SequenceArbiter) : Prop :=
  ∀ slot, s.pending (s.pendingIndex s.nextSequence) = some slot → slot.sequence ≠ s.nextSequence

theorem Tracks.not_collides (h : Tracks gap first submitted out s) : ¬s.Collides e := by
  rintro ⟨hlow, hhg, slot, hslot, hne⟩
  obtain ⟨hix, hle, hge, -⟩ := h.held _ slot hslot
  unfold pendingIndex at hix
  rw [h.maxGap] at hix hhg
  rcases lt_or_gt_of_ne hne with hlt | hgt
  · exact mod_ne_of_window hlt (by omega) hix.symm
  · exact mod_ne_of_window hgt (by omega) hix

theorem Tracks.next_not_submitted (h : Tracks gap first submitted out s) (hs : Settled s)
    (hp : p ∈ submitted) : p.sequence ≠ s.nextSequence := by
  intro heq
  have hnx := h.next
  rcases h.complete p hp (by omega) with hlt | ⟨slot, hslot, hsm⟩
  · omega
  · refine hs slot ?_ (hsm.trans heq)
    unfold pendingIndex
    rw [← heq, h.maxGap]
    exact hslot

section Release

variable {slot : PendingSlot} (h : Tracks gap first submitted out s)
  (hbound : ∀ p ∈ submitted, p.sequence + 1 < 2 ^ 64)
  (hslot : s.pending (s.pendingIndex s.nextSequence) = some slot) (hdue : slot.sequence = s.nextSequence)

include h hbound hslot hdue

theorem release_next : (s.release slot.first).nextSequence = s.nextSequence + 1 := by
  obtain ⟨-, -, -, hfst⟩ := h.held _ slot hslot
  have hlt := hbound _ (firstOf_mem hfst)
  rw [firstOf_sequence hfst, hdue] at hlt
  exact Nat.mod_eq_of_lt hlt

theorem Tracks.release : Tracks gap first submitted (out ++ [slot.first]) (s.release slot.first) := by
  have hnx' := release_next h hbound hslot hdue
  have hnx := h.next
  obtain ⟨hix, -, -, hfst⟩ := h.held _ slot hslot
  have hseq := firstOf_sequence hfst
  refine ⟨⟨?_, ?_⟩, h.maxGap, ?_, ?_, ?_, ?_⟩
  · rw [map_append, map_singleton, length_append, length_singleton, range'_concat,
      h.exact.numbers, hseq, hdue, hnx, one_mul]
  · intro p hp
    rcases mem_append.mp hp with hp | hp
    · exact h.exact.firsts p hp
    · rw [mem_singleton.mp hp, hseq]
      exact hfst
  · rw [length_append, length_singleton]
    omega
  · intro i other hoth
    obtain ⟨hi, hoth⟩ := of_update_none hoth
    obtain ⟨hpl, hlow, hhg, hfst⟩ := h.held i other hoth
    have hne : other.sequence ≠ s.nextSequence := by
      intro heq
      apply hi
      rw [hpl, heq, pendingIndex, h.maxGap]
    exact ⟨hpl, by omega, by omega, hfst⟩
  · intro i other hoth
    obtain ⟨-, hoth⟩ | ⟨-, hoth⟩ := update_eq_some.mp hoth
    · cases hoth
      exact ⟨slot.first, mem_append_right _ (mem_singleton_self _), hseq.trans hdue, rfl⟩
    · obtain ⟨p, hp, hsm⟩ := h.hashes i other hoth
      exact ⟨p, mem_append_left _ hp, hsm⟩
  · intro p hp hfst
    rcases h.complete p hp hfst with hlt | ⟨other, hoth, hsm⟩
    · exact .inl (by omega)
    · by_cases hi : p.sequence % (gap + 1) = s.pendingIndex s.nextSequence
      · -- the place of the event that is due holds only that event
        rw [hi, hslot] at hoth
        cases hoth
        exact .inl (by omega)
      · refine .inr ⟨other, ?_, hsm⟩
        show update s.pending (s.pendingIndex s.nextSequence) none _ = some other
        rw [update_of_ne hi]
        exact hoth

end Release

section Drain

variable {filled : Bool} {turns : Nat}

theorem drain_tracks (h : Tracks gap first submitted out s)
    (hbound : ∀ p ∈ submitted, p.sequence + 1 < 2 ^ 64) :
    (∀ d ∈ (drain filled turns s).1, d.action = .publish) ∧
      Tracks gap first submitted (out ++ (drain filled turns s).1.map (·.event)) (drain filled turns s).2 := by
  induction turns generalizing s out with
  | zero => simpa [drain] using h
  | succ turns ih =>
    unfold drain
    split
    next => simpa using h
    next slot hslot =>
      split
      next => simpa using h
      next hdue =>
        have hrel := h.release hbound hslot (by simpa using hdue)
        obtain ⟨hactions, htrk⟩ := ih hrel
        refine ⟨fun d hd => ?_, ?_⟩
        · rcases mem_cons.mp hd with rfl | hd
          · rfl
          · exact hactions d hd
        · rw [map_cons, ← singleton_append, ← append_assoc]
          exact htrk

/-- The loop stops at an event that is not there: its turns suffice for all places. -/
theorem drain_settled (h : Tracks gap first submitted out s)
    (hbound : ∀ p ∈ submitted, p.sequence + 1 < 2 ^ 64) {last : Nat}
    (hla : ∀ i slot, s.pending i = some slot → slot.sequence ≤ last) (htrn : last < s.nextSequence + turns) :
    Settled (drain filled turns s).2 := by
  induction turns generalizing s out with
  | zero =>
    intro slot hslot
    have hle := hla _ slot hslot
    show slot.sequence ≠ s.nextSequence
    omega
  | succ turns ih =>
    unfold drain
    split
    next hno =>
      intro slot hslot
      rw [hno] at hslot
      cases hslot
    next slot hslot =>
      split
      next hoth =>
        intro slot' hsl'
        rw [hslot] at hsl'
        cases hsl'
        exact hoth
      next hdue =>
        have hdue : slot.sequence = s.nextSequence := by simpa using hdue
        have hnx := release_next h hbound hslot hdue
        refine ih (h.release hbound hslot hdue) ?_ (by omega)
        intro i other hoth
        exact hla i other (of_update_none hoth).2

theorem drain_divergent : (drain filled turns s).2.divergent = s.divergent := by
  induction turns generalizing s with
  | zero => rfl
  | succ turns ih =>
    unfold drain
    split
    next => rfl
    split
    next => rfl
    next => exact ih

end Drain

/-- Something speaks against the event: another payload under its number, or a gap that is too large. -/
def Refused (submitted : List NativeEvent) (s : SequenceArbiter) (e : NativeEvent) : Prop :=
  (∃ p ∈ submitted, p.sequence = e.sequence ∧ p.payloadHash ≠ e.payloadHash) ∨ s.nextSequence + s.maxGap < e.sequence

inductive Outcome (gap first : Nat) (submitted out : List NativeEvent) (s : SequenceArbiter) (e : NativeEvent) :
    List ArbiterDecision × SequenceArbiter → Prop
  | stopped {action : ArbiterAction} {s' : SequenceArbiter} (hwhy : Refused submitted s e)
      (haction : action ≠ .publish) (hstop : s'.divergent = true) :
      Outcome gap first submitted out s e ([⟨action, e, false⟩], s')
  | kept {action : ArbiterAction} {s' : SequenceArbiter}
      (haction : action ≠ .publish ∧ action ≠ .divergence ∧ action ≠ .resync) (hgo : s'.divergent = false)
      (h : Tracks gap first (submitted ++ [e]) out s') (hs : Settled s') :
      Outcome gap first submitted out s e ([⟨action, e, false⟩], s')
  | went {ds : List ArbiterDecision} {s' : SequenceArbiter} (haction : ∀ d ∈ ds, d.action = .publish)
      (hgo : s'.divergent = false) (h : Tracks gap first (submitted ++ [e]) (out ++ ds.map (·.event)) s')
      (hs : Settled s') : Outcome gap first submitted out s e (ds, s')

section Submit

variable (h : Tracks gap first submitted out s) (hs : Settled s) (hgo : s.divergent = false)

include h

theorem Tracks.submit (he : e.sequence < s.nextSequence ∨
    ∃ slot, s.pending (e.sequence % (gap + 1)) = some slot ∧ slot.sequence = e.sequence) :
    Tracks gap first (submitted ++ [e]) out s := by
  refine ⟨h.exact.submit e, h.maxGap, h.next, fun i slot hslot => ?_, h.hashes, fun p hp hfst => ?_⟩
  · obtain ⟨hpl, hlow, hhg, hfst⟩ := h.held i slot hslot
    exact ⟨hpl, hlow, hhg, firstOf_append hfst⟩
  · rcases mem_append.mp hp with hp | hp
    · exact h.complete p hp hfst
    · rw [mem_singleton.mp hp]
      exact he

include hs

theorem hold_again {slot position : PendingSlot} (hpos : s.pending (s.pendingIndex slot.sequence) = some position)
    (hsequence : slot.sequence = position.sequence) (hfst : slot.first = position.first) :
    Tracks gap first submitted out (s.occupy slot) ∧ Settled (s.occupy slot) := by
  have hbc : ∀ i other, (s.occupy slot).pending i = some other →
      ∃ old, s.pending i = some old ∧ other.sequence = old.sequence ∧ other.first = old.first := by
    intro i other hoth
    obtain ⟨hi, hoth⟩ | ⟨-, hoth⟩ := update_eq_some.mp hoth
    · cases hoth
      exact ⟨position, hi ▸ hpos, hsequence, hfst⟩
    · exact ⟨other, hoth, rfl, rfl⟩
  refine ⟨⟨h.exact, h.maxGap, h.next, fun i other hoth => ?_, h.hashes, fun p hp hle => ?_⟩, fun other hoth => ?_⟩
  · obtain ⟨old, hold, hseq, hfst⟩ := hbc i other hoth
    rw [hseq, hfst]
    exact h.held i old hold
  · rcases h.complete p hp hle with hlt | ⟨old, hold, hseq⟩
    · exact .inl hlt
    · by_cases hi : p.sequence % (gap + 1) = s.pendingIndex slot.sequence
      · rw [hi, hpos] at hold
        cases hold
        refine .inr ⟨slot, ?_, hsequence.trans hseq⟩
        show update s.pending (s.pendingIndex slot.sequence) (some slot) _ = some slot
        rw [hi, update_self]
      · refine .inr ⟨old, ?_, hseq⟩
        show update s.pending (s.pendingIndex slot.sequence) (some slot) _ = some old
        rw [update_of_ne hi]
        exact hold
  · obtain ⟨old, hold, hseq, -⟩ := hbc _ other hoth
    rw [hseq]
    exact hs old hold

include hgo

theorem submitOld_outcome (hold : e.sequence < s.nextSequence) :
    Outcome gap first submitted out s e (s.submitOld e) := by
  have hkt := h.submit (.inl hold)
  unfold submitOld
  split
  next => exact .kept (by decide) hgo hkt hs
  next history hhi =>
  split
  next => exact .kept (by decide) hgo hkt hs
  next hsm =>
  split
  next => exact .kept (by decide) hgo hkt hs
  next hhash =>
  obtain ⟨p, hp, hseq, hpay⟩ := h.hashes _ history hhi
  have hsm : history.sequence = e.sequence := by simpa using hsm
  refine .stopped (.inl ⟨p, firstOf_mem (h.exact.firsts p hp), hseq.trans hsm, ?_⟩) (by decide) rfl
  rw [hpay]
  exact hhash

section

variable (hbound : ∀ p ∈ submitted ++ [e], p.sequence + 1 < 2 ^ 64)

include hbound

theorem accept_outcome (hlow : s.nextSequence ≤ e.sequence) (hhg : e.sequence ≤ s.nextSequence + gap)
    (hfe : s.pending (s.pendingIndex e.sequence) = none) :
    Outcome gap first submitted out s e (s.accept e) := by
  have hnx := h.next
  have hix : s.pendingIndex e.sequence = e.sequence % (gap + 1) := by
    rw [pendingIndex, h.maxGap]
  -- nothing was submitted under this number: it would have been published or have the place
  have hnew : ∀ p ∈ submitted, p.sequence ≠ e.sequence := by
    intro p hp hsm
    rcases h.complete p hp (by omega) with hlt | ⟨slot, hslot, -⟩
    · omega
    · rw [hsm, ← hix, hfe] at hslot
      cases hslot
  have hpd : ∀ i slot, (s.occupy { sequence := e.sequence, first := e }).pending i = some slot →
      (i = e.sequence % (gap + 1) ∧ slot = { sequence := e.sequence, first := e }) ∨ s.pending i = some slot := by
    intro i slot hslot
    obtain ⟨hi, hslot⟩ | ⟨-, hslot⟩ := update_eq_some.mp hslot
    · exact .inl ⟨hi.trans hix, (Option.some.inj hslot).symm⟩
    · exact .inr hslot
  have htrk : Tracks gap first (submitted ++ [e]) out (s.occupy { sequence := e.sequence, first := e }) := by
    refine ⟨h.exact.submit e, h.maxGap, h.next, fun i slot hslot => ?_, h.hashes, fun p hp hfst => ?_⟩
    · rcases hpd i slot hslot with ⟨hi, rfl⟩ | hslot
      · exact ⟨hi, hlow, hhg, firstOf_new hnew⟩
      · obtain ⟨hpl, hl, hh, hfst⟩ := h.held i slot hslot
        exact ⟨hpl, hl, hh, firstOf_append hfst⟩
    · by_cases hsm : p.sequence = e.sequence
      · refine .inr ⟨{ sequence := e.sequence, first := e }, ?_, hsm.symm⟩
        show update s.pending (s.pendingIndex e.sequence) _ _ = _
        rw [hsm, ← hix, update_self]
      · have hp : p ∈ submitted := by
          rcases mem_append.mp hp with hp | hp
          · exact hp
          · exact absurd (congrArg _ (mem_singleton.mp hp)) hsm
        rcases h.complete p hp hfst with hlt | ⟨slot, hslot, hseq⟩
        · exact .inl hlt
        · refine .inr ⟨slot, ?_, hseq⟩
          show update s.pending (s.pendingIndex e.sequence) _ _ = _
          rw [update_of_ne, hslot]
          intro hpl
          rw [hpl, hfe] at hslot
          cases hslot
  unfold accept
  dsimp only
  split
  next hgap =>
    refine .kept (by decide) hgo htrk fun slot hslot => ?_
    rcases hpd _ slot hslot with ⟨-, rfl⟩ | hslot
    · exact hgap
    · exact hs slot hslot
  next =>
    have htrn : s.nextSequence + gap < s.nextSequence + (s.maxGap + 2) := by
      rw [h.maxGap]
      omega
    generalize hdrain : drain _ _ _ = drained
    obtain ⟨hactions, hdrained⟩ := hdrain ▸ drain_tracks htrk hbound
    have hsett : Settled drained.2 :=
      hdrain ▸ drain_settled htrk hbound (fun i slot hslot => (htrk.held i slot hslot).2.2.1) htrn
    have hdivg : drained.2.divergent = false := hdrain ▸ drain_divergent.trans hgo
    exact .went hactions hdivg hdrained hsett

theorem submitWindow_outcome (hlow : s.nextSequence ≤ e.sequence) (hhg : e.sequence ≤ s.nextSequence + gap) :
    Outcome gap first submitted out s e (s.submitWindow e) := by
  have hix : s.pendingIndex e.sequence = e.sequence % (gap + 1) := by
    rw [pendingIndex, h.maxGap]
  unfold submitWindow
  split
  next hfe => exact accept_outcome h hs hgo hbound hlow hhg hfe
  next position hpos =>
  obtain ⟨-, -, -, hfst⟩ := h.held _ position hpos
  split
  next hcollides =>
    refine absurd ⟨hlow, ?_, position, hpos, hcollides⟩ h.not_collides
    rw [h.maxGap]
    omega
  next hsm =>
    have hsm : position.sequence = e.sequence := by simpa using hsm
    split
    next hhash =>
      refine .stopped (.inl ⟨position.first, firstOf_mem hfst, ?_, hhash⟩) (by decide) rfl
      rw [firstOf_sequence hfst, hsm]
    next hhash =>
      have hkt := h.submit (.inr ⟨position, hix ▸ hpos, hsm⟩)
      have hpl : s.pending (s.pendingIndex position.sequence) = some position := by
        rw [hsm]
        exact hpos
      have hhd : Tracks gap first (submitted ++ [e]) out
          (s.occupy { position with hasSecond := true, secondHash := e.payloadHash }) ∧
          Settled (s.occupy { position with hasSecond := true, secondHash := e.payloadHash }) :=
        hold_again hkt hs hpl rfl rfl
      exact .kept (by decide) hgo hhd.1 hhd.2

theorem submitStarted_outcome : Outcome gap first submitted out s e (s.submitStarted e) := by
  unfold submitStarted
  split
  next hold => exact submitOld_outcome h hs hgo hold
  next hnew =>
  split
  next hgap => exact .stopped (.inr (by omega)) (by decide) rfl
  next hgap =>
  rw [h.maxGap] at hgap
  exact submitWindow_outcome h hs hgo hbound (by omega) (by omega)

end

end Submit

end SelfQuant.Mds.Redundancy
