import SelfQuant.MdsBookPipeline

namespace SelfQuant.Mds

def maxSequence : Nat := 2 ^ 64 - 1

/-- A depth update of the stream, as it is applied or kept until there is a snapshot. -/
structure PendingDelta where
  (first final : Nat)
  (previous timeMs : Nat := 0)
  (bids asks : List Level := [])
  strictPreviousSequence : Bool := false
  bounded : final ≤ maxSequence := by decide

/-- A snapshot that was asked for; its number is not zero. -/
structure BookImage where
  sequence : Nat
  timeMs : Nat := 0
  (bids asks : List Level)
  positive : 0 < sequence := by decide
  bounded : sequence ≤ maxSequence := by decide

inductive SnapshotBridgeDecision
  | stale | accepted | snapshotTooOld | gap | invalid
deriving DecidableEq

def kMaximumAttempts : Nat := 32

def sequenceGap (last expected : Nat) (delta : PendingDelta) : Bool :=
  decide ((delta.strictPreviousSequence ∧ delta.previous ≠ 0 ∧ delta.previous ≠ last) ∨
    (delta.strictPreviousSequence ∧ delta.previous = 0 ∧ delta.first ≠ expected) ∨
    (!delta.strictPreviousSequence ∧ delta.first > expected))

structure SnapshotBridgeValidator where
  sequence : Nat
  firstRelevant : Bool := true
deriving DecidableEq

namespace SnapshotBridgeValidator

def observe (v : SnapshotBridgeValidator) (delta : PendingDelta) : SnapshotBridgeDecision × SnapshotBridgeValidator :=
  if delta.first > delta.final then (.invalid, v)
  else if delta.final ≤ v.sequence then (.stale, v)
  else if v.sequence = maxSequence then (.gap, v)
  else
    let expected := v.sequence + 1
    if v.firstRelevant then
      let previousIsSnapshot := delta.strictPreviousSequence ∧ delta.previous ≠ 0 ∧ delta.previous = v.sequence
      if ¬previousIsSnapshot ∧ delta.first > expected then (.snapshotTooOld, v)
      else if ¬previousIsSnapshot ∧ delta.final < expected then (.gap, v)
      else (.accepted, ⟨delta.final, false⟩)
    else if sequenceGap v.sequence expected delta then (.gap, v)
    else (.accepted, { v with sequence := delta.final })

def hasAccepted (v : SnapshotBridgeValidator) : Bool := !v.firstRelevant

end SnapshotBridgeValidator

/-- The pipeline of a symbol and its publishers, whatever they do. -/
structure PipelineOps (P : Type) where
  prepareSnapshotTick : P → List Level → List Level → P
  /-- The configured price band needs more ticks than the ladder has. -/
  ladderTooSmall : P → List Level → List Level → Bool
  loadImage : P → Nat → BookImage → PipelineResult × P
  applyDelta : P → Nat → PendingDelta → Bool → PipelineResult × P
  publishCompleteBook : P → Nat → Nat → Nat → Bool × P
  publishCatalogBarrier : P → Nat → Bool × P
  openSymbol : P → P

structure VenueOptions where
  retryLaggingSnapshot : Bool
  snapshotMaxConsecutiveFailures : Nat

inductive BookCall
  | loaded (sequence : Nat)
  | applied (delta : PendingDelta) (published : Bool)
  | published (sequence : Nat)

/-- One symbol of a venue with snapshots over REST, with what the connection keeps for it. `history`
are the calls that the pipeline has answered, the last one first. -/
structure SymbolRuntime (P : Type) where
  pipeline : P
  pending : List PendingDelta := []
  lastBookSequence : Nat := 0
  generation : Nat := 1
  (laggingSnapshotRetries consecutiveSnapshotFailures : Nat := 0)
  metadataReady : Bool := true
  (imageReady awaitingSnapshotBridge bookLive snapshotQuarantined : Bool := false)
  needsSnapshot : Bool := true
  (snapshotActive rebuildPending : Bool := false)
  history : List BookCall := []

def kMaximumPending : Nat := 4096

def kMinimumDepth : Nat := 10

namespace SymbolRuntime

variable {P : Type} (ops : PipelineOps P) (s : SymbolRuntime P) (delta : PendingDelta)

def bufferDelta : Option (SymbolRuntime P) :=
  if s.pending.length ≥ kMaximumPending then none else some { s with pending := s.pending ++ [delta] }

def cleared : SymbolRuntime P :=
  { s with
    generation := s.generation + 1, imageReady := false, awaitingSnapshotBridge := false
    bookLive := false, lastBookSequence := 0, pending := [], laggingSnapshotRetries := 0
    snapshotQuarantined := false, consecutiveSnapshotFailures := 0, needsSnapshot := true }

def fail : SymbolRuntime P :=
  if s.rebuildPending then { s with snapshotActive := false }
  else { s.cleared with metadataReady := false, snapshotActive := false, rebuildPending := true }

def resyncSymbol : Bool × SymbolRuntime P :=
  let s := s.cleared
  match ops.publishCatalogBarrier s.pipeline s.generation with
  | (false, p) => (false, fail { s with pipeline := p })
  | (true, p) => (true, { s with pipeline := p })

def pipelineFailure (result : PipelineResult) : Bool × SymbolRuntime P :=
  if result = .publishFailed then
    (false, fail { s with
      bookLive := false, imageReady := false, awaitingSnapshotBridge := false
      laggingSnapshotRetries := 0 })
  else resyncSymbol ops s

def liveGap : Bool :=
  let expected := if s.lastBookSequence = maxSequence then s.lastBookSequence else s.lastBookSequence + 1
  if s.lastBookSequence = 0 then false
  else if s.awaitingSnapshotBridge then
    match ((⟨s.lastBookSequence, true⟩ : SnapshotBridgeValidator).observe delta).1 with
    | .snapshotTooOld | .gap | .invalid => true
    | .stale | .accepted => false
  else sequenceGap s.lastBookSequence expected delta

/-- Apply an update to the book; the first one after a snapshot completes it, and it is published as
a whole. -/
def applyLive : SymbolRuntime P :=
  let completing := s.awaitingSnapshotBridge
  match ops.applyDelta s.pipeline s.generation delta !completing with
  | (.applied, p) =>
    let s := { s with
      pipeline := p, lastBookSequence := delta.final, history := .applied delta (!completing) :: s.history }
    if completing then
      match ops.publishCompleteBook s.pipeline s.generation delta.final delta.timeMs with
      | (false, p) => fail { s with pipeline := p }
      | (true, p) => { s with
          pipeline := p, awaitingSnapshotBridge := false, bookLive := true
          history := .published delta.final :: s.history }
    else { s with awaitingSnapshotBridge := false, bookLive := true }
  | (result, p) => (pipelineFailure ops { s with pipeline := p } result).2

def processDelta : SymbolRuntime P :=
  if !s.metadataReady then fail s
  else if !s.imageReady then
    match s.bufferDelta delta with
    | some s => s
    -- too many are waiting: they are dropped, and the update is the first one of the next attempt
    | none => { s with laggingSnapshotRetries := 0, pending := [delta] }
  else if s.lastBookSequence ≠ 0 ∧ delta.final ≤ s.lastBookSequence then s
  else if s.liveGap delta then
    match resyncSymbol ops s with
    | (false, s) => s
    | (true, s) =>
      match s.bufferDelta delta with
      | some s => s
      | none => (resyncSymbol ops s).2
  else s.applyLive ops delta

def restart : SymbolRuntime P :=
  if s.imageReady then
    { s with
      generation := s.generation + 1, imageReady := false, awaitingSnapshotBridge := false
      lastBookSequence := 0 }
  else s

def processSnapshot (image : BookImage) : Bool × SymbolRuntime P :=
  if !s.metadataReady then (false, fail s)
  else
    let s := s.restart
    if image.bids.length < kMinimumDepth ∨ image.asks.length < kMinimumDepth then resyncSymbol ops s
    else
      let p := ops.prepareSnapshotTick s.pipeline image.bids image.asks
      let p := s.pending.foldl (fun p delta => ops.prepareSnapshotTick p delta.bids delta.asks) p
      if ops.ladderTooSmall p image.bids image.asks then (false, fail { s with pipeline := p })
      else
        match ops.loadImage p s.generation image with
        | (.applied, p) => (true, { s with
            pipeline := p, imageReady := true, awaitingSnapshotBridge := true, bookLive := false
            lastBookSequence := image.sequence, history := .loaded image.sequence :: s.history })
        | (result, p) => pipelineFailure ops { s with pipeline := p } result

inductive BridgeOutcome
  | bridged (v : SnapshotBridgeValidator)
  | retry
  | broken
deriving DecidableEq

/-- Hold the updates that were kept against a snapshot; `canRetry` says whether a snapshot that is too
old is asked for once more. -/
def bridgePending (canRetry : Bool) : SnapshotBridgeValidator → List PendingDelta → BridgeOutcome
  | v, [] => .bridged v
  | v, delta :: pending =>
    match v.observe delta with
    | (.snapshotTooOld, _) => if canRetry then .retry else .broken
    | (.gap, _) => .broken
    | (.invalid, _) => .broken
    | (.stale, v) => bridgePending canRetry v pending
    | (.accepted, v) => bridgePending canRetry v pending

/-- Apply the updates that were kept, those that are not in the snapshot; the number of the result is
the time of the last one of them. -/
def applyPending (ops : PipelineOps P) : SymbolRuntime P → List PendingDelta → Nat → Bool × SymbolRuntime P × Nat
  | s, [], timeMs => (true, s, timeMs)
  | s, delta :: pending, timeMs =>
    if delta.final ≤ s.lastBookSequence then applyPending ops s pending timeMs
    else
      match ops.applyDelta s.pipeline s.generation delta false with
      | (.applied, p) =>
        applyPending ops { s with
          pipeline := p, lastBookSequence := delta.final, history := .applied delta false :: s.history }
          pending delta.timeMs
      | (result, p) => (false, (pipelineFailure ops { s with pipeline := p } result).2, timeMs)

def rebuild (image : BookImage) (v : SnapshotBridgeValidator) : SymbolRuntime P :=
  match processSnapshot ops s image with
  | (false, s) => s
  | (true, s) =>
    if !s.imageReady then s
    else
      match applyPending ops s s.pending image.timeMs with
      | (false, s, _) => s
      | (true, s, timeMs) =>
        let s := { s with awaitingSnapshotBridge := !v.hasAccepted, pending := [] }
        if s.awaitingSnapshotBridge then s
        else
          match ops.publishCompleteBook s.pipeline s.generation s.lastBookSequence timeMs with
          | (false, p) => fail { s with pipeline := p }
          | (true, p) => { s with
              pipeline := p, bookLive := true, history := .published s.lastBookSequence :: s.history }

variable (options : VenueOptions)

def handleSnapshot (s : SymbolRuntime P) (image : BookImage) : SymbolRuntime P :=
  if !s.snapshotActive then fail s
  else
    let s := { s with snapshotActive := false, consecutiveSnapshotFailures := 0, needsSnapshot := false }
    let canRetry := options.retryLaggingSnapshot && decide (s.laggingSnapshotRetries < kMaximumAttempts)
    match bridgePending canRetry ⟨image.sequence, true⟩ s.pending with
    | .retry => { s with
        laggingSnapshotRetries := s.laggingSnapshotRetries + 1, imageReady := false
        awaitingSnapshotBridge := false, bookLive := false }
    | .broken => (resyncSymbol ops s).2
    | .bridged v => rebuild ops { s with laggingSnapshotRetries := 0 } image v

def snapshotBackoff (s : SymbolRuntime P) (forcedDelay quarantine : Bool) : SymbolRuntime P :=
  let s := { s with
    snapshotActive := false
    consecutiveSnapshotFailures := s.consecutiveSnapshotFailures + if forcedDelay then 0 else 1 }
  if quarantine ∨ s.consecutiveSnapshotFailures ≥ options.snapshotMaxConsecutiveFailures then
    { s with snapshotQuarantined := true, pending := [], imageReady := false, bookLive := false }
  else s

def requestSnapshot : SymbolRuntime P :=
  if !s.snapshotActive ∧ !s.imageReady ∧ (s.needsSnapshot ∨ s.pending ≠ []) ∧ !s.snapshotQuarantined then
    { s with snapshotActive := true }
  else s

inductive Event
  | delta (delta : PendingDelta)
  | gap
  | request
  | snapshot (image : BookImage)
  | snapshotFailed (forcedDelay quarantine : Bool)
  | reconnected
  | rebuilt

def step (s : SymbolRuntime P) : Event → SymbolRuntime P
  | .delta delta => s.processDelta ops delta
  | .gap => if !s.metadataReady then fail s else (resyncSymbol ops s).2
  | .request => s.requestSnapshot
  | .snapshot image => s.handleSnapshot ops options image
  | .snapshotFailed forcedDelay quarantine => s.snapshotBackoff options forcedDelay quarantine
  | .reconnected => s.cleared
  | .rebuilt => { s with metadataReady := true, rebuildPending := false, pipeline := ops.openSymbol s.pipeline }

def run (s : SymbolRuntime P) (events : List Event) :
    SymbolRuntime P := events.foldl (step ops options) s

end SymbolRuntime

variable {last : Nat} {delta : PendingDelta} {history : List BookCall}

namespace BookCall

def base : List BookCall → Nat
  | [] => 0
  | .loaded sequence :: _ => sequence
  | .applied .. :: history => base history
  | .published _ :: history => base history

def sinceLoad : List BookCall → List BookCall
  | [] => []
  | .loaded _ :: _ => []
  | .applied delta shown :: history => .applied delta shown :: sinceLoad history
  | .published sequence :: history => .published sequence :: sinceLoad history

def delta? : BookCall → Option PendingDelta
  | .applied delta _ => some delta
  | _ => none

def appliedSince (history : List BookCall) : List PendingDelta := (sinceLoad history).filterMap delta?

def isPublication : BookCall → Bool
  | .loaded _ => false
  | .applied _ shown => shown
  | .published _ => true

def PublishedLate : List BookCall → Prop
  | [] => True
  | call :: earlier => (isPublication call → earlier.filterMap delta? ≠ []) ∧ PublishedLate earlier

end BookCall

open BookCall

def lastOf (base : Nat) : List PendingDelta → Nat
  | [] => base
  | delta :: _ => delta.final

def Continues (last : Nat) (delta : PendingDelta) : Prop :=
  last < delta.final ∧ (delta.first ≤ last + 1 ∨ delta.previous = last)

/-- Each update goes on from the one before it, and the first one from the snapshot; the last one
comes first. -/
def Chain (base : Nat) : List PendingDelta → Prop
  | [] => True
  | delta :: deltas => Continues (lastOf base deltas) delta ∧ Chain base deltas

/-- What was done with a book that has a snapshot. -/
structure Story (history : List BookCall) (last : Nat) : Prop where
  loaded : 0 < base history
  chain : Chain (base history) (appliedSince history)
  last : last = lastOf (base history) (appliedSince history)
  late : PublishedLate (sinceLoad history)

theorem Story.positive (h : Story history last) : 0 < last := by
  have hld := h.loaded
  have hchn := h.chain
  rw [h.last]
  cases hd : appliedSince history with
  | nil => exact hld
  | cons delta deltas =>
    rw [hd] at hchn
    have hlt := hchn.1.1
    show 0 < delta.final
    omega

theorem Story.apply {shown : Bool} (h : Story history last) (hc : Continues last delta)
    (hp : shown → appliedSince history ≠ []) : Story (.applied delta shown :: history) delta.final := by
  rw [h.last] at hc
  exact ⟨h.loaded, ⟨hc, h.chain⟩, rfl, hp, h.late⟩

namespace SnapshotBridgeValidator

variable {v v' : SnapshotBridgeValidator}

theorem not_gap (hf : last < delta.final) (h : sequenceGap last (last + 1) delta = false) :
    Continues last delta := by
  simp only [sequenceGap, decide_eq_false_iff_not, not_or, not_and] at h
  obtain ⟨hpv, hfst, hloose⟩ := h
  refine ⟨hf, ?_⟩
  cases hs : delta.strictPreviousSequence with
  | false =>
    have := hloose (by rw [hs]; rfl)
    exact .inl (by omega)
  | true =>
    by_cases hze : delta.previous = 0
    · have := hfst hs hze
      exact .inl (by omega)
    · have := hpv hs hze
      exact .inr (by omega)

theorem observe_accepted (h : v.observe delta = (.accepted, v')) :
    Continues v.sequence delta ∧ v' = ⟨delta.final, false⟩ := by
  unfold observe at h
  split at h
  next => cases h
  split at h
  next => cases h
  next hnew =>
  split at h
  next => cases h
  next hmax =>
  dsimp only at h
  split at h
  next hfst =>
    split at h
    next => cases h
    next hold =>
    split at h
    next => cases h
    refine ⟨⟨by omega, ?_⟩, (Prod.mk.inj h).2.symm⟩
    by_cases hpv : delta.previous = v.sequence
    · exact .inr hpv
    · exact .inl (by
        by_contra hlat
        exact hold ⟨fun hp => hpv hp.2.2, by omega⟩)
  next hfst =>
    split at h
    next => cases h
    next hgap =>
    refine ⟨not_gap (by omega) (by simpa using hgap), ?_⟩
    rw [← (Prod.mk.inj h).2]
    simpa using hfst

theorem observe_stale (h : v.observe delta = (.stale, v')) : delta.final ≤ v.sequence ∧ v' = v := by
  unfold observe at h
  split at h
  next => cases h
  split at h
  next hold => exact ⟨hold, (Prod.mk.inj h).2.symm⟩
  split at h
  next => cases h
  dsimp only at h
  split at h
  next =>
    split at h
    next => cases h
    split at h
    next => cases h
    next => cases h
  next =>
    split at h
    next => cases h
    next => cases h

end SnapshotBridgeValidator

/-- A validator and the updates it has let through, the last one first. -/
abbrev Progress := SnapshotBridgeValidator × List PendingDelta

namespace Progress

variable {x y : Progress} {deltas : List PendingDelta}

def bridge (x : Progress) (delta : PendingDelta) : Option Progress :=
  match x.1.observe delta with
  | (.stale, v) => some (v, x.2)
  | (.accepted, v) => some (v, delta :: x.2)
  | _ => none

/-- The same on the live path, which looks at the range of an update only before the first one. -/
def live (x : Progress) (delta : PendingDelta) : Option Progress :=
  if delta.final ≤ x.1.sequence then some x
  else if x.1.firstRelevant then
    if (x.1.observe delta).1 = .accepted then some (⟨delta.final, false⟩, delta :: x.2) else none
  else if sequenceGap x.1.sequence (x.1.sequence + 1) delta then none
  else some (⟨delta.final, false⟩, delta :: x.2)

theorem bridge_new (hold : ¬delta.final ≤ x.1.sequence) : x.bridge delta =
    if (x.1.observe delta).1 = .accepted then some (⟨delta.final, false⟩, delta :: x.2) else none := by
  unfold bridge
  split
  next v hobs => exact absurd (SnapshotBridgeValidator.observe_stale hobs).1 hold
  next v hobs =>
    rw [hobs, if_pos rfl, (SnapshotBridgeValidator.observe_accepted hobs).2]
  next hoth =>
    rw [if_neg fun h => hoth _ (Prod.ext h rfl)]

theorem range_of_bridge (h : x.bridge delta = some y) : delta.first ≤ delta.final := by
  by_contra hrange
  unfold bridge SnapshotBridgeValidator.observe at h
  rw [if_pos (by omega)] at h
  cases h

theorem foldlM_cons_some (h : (delta :: deltas).foldlM bridge x = some y) :
    ∃ z, x.bridge delta = some z ∧ deltas.foldlM bridge z = some y := by
  exact Option.bind_eq_some_iff.mp h

section

variable (hrange : delta.first ≤ delta.final)

include hrange

theorem bridge_old (hold : delta.final ≤ x.1.sequence) : x.bridge delta = some x := by
  have hobs : x.1.observe delta = (.stale, x.1) := by
    unfold SnapshotBridgeValidator.observe
    rw [if_neg (by omega), if_pos hold]
  unfold bridge
  rw [hobs]

theorem observe_accepted_iff (hold : ¬delta.final ≤ x.1.sequence)
    (hfst : x.1.firstRelevant = false) : (x.1.observe delta).1 = .accepted ↔
      sequenceGap x.1.sequence (x.1.sequence + 1) delta = false := by
  have hbd := delta.bounded
  have hmax : x.1.sequence ≠ maxSequence := by omega
  unfold SnapshotBridgeValidator.observe
  rw [if_neg (by omega), if_neg hold, if_neg hmax]
  simp only [hfst, Bool.false_eq_true, if_false]
  cases sequenceGap x.1.sequence (x.1.sequence + 1) delta with
  | true | false => simp

theorem live_eq_bridge : x.live delta = x.bridge delta := by
  unfold live
  by_cases hold : delta.final ≤ x.1.sequence
  · rw [if_pos hold, bridge_old hrange hold]
  · rw [if_neg hold, bridge_new hold]
    cases hfst : x.1.firstRelevant with
    | true => rw [if_pos rfl]
    | false =>
      have hacc := observe_accepted_iff hrange hold hfst
      rw [if_neg Bool.false_ne_true]
      cases hgap : sequenceGap x.1.sequence (x.1.sequence + 1) delta with
      | true => rw [if_pos rfl, if_neg (by rw [hacc, hgap]; exact Bool.true_eq_false_eq_False)]
      | false => rw [if_neg Bool.false_ne_true, if_pos (hacc.mpr hgap)]

end

theorem bridge_cases (h : x.bridge delta = some y) : (delta.final ≤ x.1.sequence ∧ y = x) ∨
    (Continues x.1.sequence delta ∧ y = (⟨delta.final, false⟩, delta :: x.2)) := by
  have hrange := range_of_bridge h
  by_cases hold : delta.final ≤ x.1.sequence
  · rw [bridge_old hrange hold] at h
    exact .inl ⟨hold, (Option.some.inj h).symm⟩
  · rw [bridge_new hold] at h
    split at h
    next hacc =>
      have hc := (SnapshotBridgeValidator.observe_accepted (Prod.ext hacc rfl)).1
      exact .inr ⟨hc, (Option.some.inj h).symm⟩
    next => cases h

theorem foldlM_live (h : deltas.foldlM bridge x = some y) : deltas.foldlM live x = some y := by
  induction deltas generalizing x with
  | nil => exact h
  | cons delta deltas ih =>
    obtain ⟨z, hz, hrs⟩ := foldlM_cons_some h
    rw [List.foldlM_cons, (live_eq_bridge (range_of_bridge hz)).trans hz]
    exact ih hrs

theorem foldlM_live_eq (hrange : ∀ delta ∈ deltas, delta.first ≤ delta.final) :
    deltas.foldlM live x = deltas.foldlM bridge x := by
  induction deltas generalizing x with
  | nil => rfl
  | cons delta deltas ih =>
    rw [List.foldlM_cons, List.foldlM_cons, live_eq_bridge (hrange delta List.mem_cons_self)]
    cases x.bridge delta with
    | none => rfl
    | some z => exact ih (List.forall_mem_cons.mp hrange).2

end Progress

end SelfQuant.Mds
