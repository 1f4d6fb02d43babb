import SelfQuant.MdsSymbolBook

namespace SelfQuant.Mds

open BookCall Progress Bool BookImage
open SnapshotBridgeValidator (hasAccepted not_gap observe_accepted observe_stale)

/-- The pipeline takes everything, and all that is published gets through. -/
structure PipelineOps.Accepting {P : Type} (ops : PipelineOps P) : Prop where
  load : ∀ p generation image, (ops.loadImage p generation image).1 = .applied
  apply : ∀ p generation delta shown, (ops.applyDelta p generation delta shown).1 = .applied
  publish : ∀ p generation sequence timeMs, (ops.publishCompleteBook p generation sequence timeMs).1 = true
  ladder : ∀ p bids asks, ops.ladderTooSmall p bids asks = false

namespace BookImage

variable (image : BookImage)

def Deep : Prop := kMinimumDepth ≤ image.bids.length ∧ kMinimumDepth ≤ image.asks.length

instance (image : BookImage) : Decidable image.Deep := inferInstanceAs (Decidable (_ ∧ _))

def progress : Progress := (⟨image.sequence, true⟩, [])

def bridged (pending : List PendingDelta) : Option Progress :=
  if image.Deep then pending.foldlM bridge image.progress else none

end BookImage

namespace SymbolRuntime

variable {P : Type} {ops : PipelineOps P} {options : VenueOptions} {s s' : SymbolRuntime P}
  {delta : PendingDelta} {image : BookImage} {pending : List PendingDelta}
  {v : SnapshotBridgeValidator} {x y : Progress} {r : Option Progress} {sure : Prop}

/-- A connection that is to be built again does not know its symbols. -/
def Grounded (s : SymbolRuntime P) : Prop := s.rebuildPending = true → s.metadataReady = false

structure Down (s : SymbolRuntime P) : Prop where
  grounded : s.Grounded
  image : s.imageReady = false
  live : s.bookLive = false

/-- The pipeline has a snapshot and the updates that a validator let through after it. -/
structure Follows (s : SymbolRuntime P) (x : Progress) : Prop where
  up : s.rebuildPending = false
  metadata : s.metadataReady = true
  image : s.imageReady = true
  last : s.lastBookSequence = x.1.sequence
  taken : appliedSince s.history = x.2
  first : x.1.firstRelevant = true ↔ x.2 = []
  story : Story s.history s.lastBookSequence

/-- The same between two events: the book is live from the first update on. -/
structure Keeps (s : SymbolRuntime P) (x : Progress) : Prop extends Follows s x where
  awaiting : s.awaitingSnapshotBridge = x.1.firstRelevant
  live : s.bookLive = !x.1.firstRelevant

def Consistent (s : SymbolRuntime P) : Prop := Down s ∨ ∃ x, Keeps s x

/-- Where the symbol is when the updates led to `r`: there, or without a book; the latter only if they
led nowhere or the symbol need not follow. -/
def Reached (sure : Prop) (s : SymbolRuntime P) (r : Option Progress) : Prop :=
  (∃ x, r = some x ∧ Keeps s x) ∨ (Down s ∧ (sure → r = none))

theorem Keeps.reached (h : Keeps s x) : Reached sure s (some x) := .inl ⟨x, rfl, h⟩

theorem Down.reached (h : Down s) : Reached sure s none := .inr ⟨h, fun _ => rfl⟩

theorem Reached.consistent (h : Reached sure s r) : Consistent s := by
  obtain ⟨x, -, hkp⟩ | ⟨hdn, -⟩ := h
  · exact .inr ⟨x, hkp⟩
  · exact .inl hdn

theorem grounded_of_up (h : s.rebuildPending = false) : s.Grounded := by
  intro hr
  rw [h] at hr
  cases hr

theorem Consistent.grounded (h : Consistent s) : s.Grounded := by
  obtain hdn | ⟨x, hkp⟩ := h
  · exact hdn.grounded
  · exact grounded_of_up hkp.up

theorem Consistent.up (h : Consistent s) (hm : s.metadataReady = true) : s.rebuildPending = false := by
  by_contra hr
  have := h.grounded (by simpa using hr)
  rw [hm] at this
  cases this

structure Alike (s s' : SymbolRuntime P) : Prop where
  up : s'.rebuildPending = s.rebuildPending
  metadata : s'.metadataReady = s.metadataReady
  image : s'.imageReady = s.imageReady
  live : s'.bookLive = s.bookLive
  awaiting : s'.awaitingSnapshotBridge = s.awaitingSnapshotBridge
  last : s'.lastBookSequence = s.lastBookSequence
  history : s'.history = s.history

theorem Down.alike (h : Down s) (ha : Alike s s') : Down s' := by
  refine ⟨fun hr => ?_, ha.image.trans h.image, ha.live.trans h.live⟩
  rw [ha.up] at hr
  exact ha.metadata.trans (h.grounded hr)

theorem Keeps.alike (h : Keeps s x) (ha : Alike s s') : Keeps s' x := by
  refine ⟨⟨ha.up.trans h.up, ha.metadata.trans h.metadata, ha.image.trans h.image, ha.last.trans h.last,
    ?_, h.first, ?_⟩, ha.awaiting.trans h.awaiting, ha.live.trans h.live⟩
  · rw [ha.history]
    exact h.taken
  · rw [ha.history, ha.last]
    exact h.story

theorem Consistent.alike (h : Consistent s) (ha : Alike s s') : Consistent s' := by
  obtain hdn | ⟨x, hkp⟩ := h
  · exact .inl (hdn.alike ha)
  · exact .inr ⟨x, hkp.alike ha⟩

theorem Down.fail (h : Down s) : Down s.fail := by
  unfold SymbolRuntime.fail
  split
  next => exact ⟨h.grounded, h.image, h.live⟩
  next => exact ⟨fun _ => rfl, rfl, rfl⟩

theorem fail_down (h : s.rebuildPending = false) : Down (fail s) := by
  unfold fail
  rw [if_neg (by rw [h]; exact false_ne_true)]
  exact ⟨fun _ => rfl, rfl, rfl⟩

theorem resync_down (ops : PipelineOps P) (h : s.Grounded) : Down (resyncSymbol ops s).2 := by
  unfold resyncSymbol
  dsimp only
  split
  next p _ =>
    have hp : Down { s.cleared with pipeline := p } := ⟨h, rfl, rfl⟩
    exact hp.fail
  next => exact ⟨h, rfl, rfl⟩

theorem pipelineFailure_down (result : PipelineResult)
    (h : s.rebuildPending = false) : Down (pipelineFailure ops s result).2 := by
  unfold pipelineFailure
  split
  next => exact fail_down h
  next => exact resync_down ops (grounded_of_up h)

theorem Consistent.fail (h : Consistent s) : Down s.fail := by
  obtain hdn | ⟨x, hkp⟩ := h
  · exact hdn.fail
  · exact fail_down hkp.up

theorem bufferDelta_some (h : s.bufferDelta delta = some s') : s' = { s with pending := s.pending ++ [delta] } := by
  unfold bufferDelta at h
  split at h
  next => cases h
  next => exact (Option.some.inj h).symm

theorem Down.keep (h : Down s) (retries : Nat) :
    Down { s with pending := pending, laggingSnapshotRetries := retries } :=
  ⟨h.grounded, h.image, h.live⟩

theorem Down.bufferDelta (h : Down s) (hs : s.bufferDelta delta = some s') : Down s' := by
  rw [bufferDelta_some hs]
  exact h.keep _

theorem processDelta_gap (hup : s.rebuildPending = false) (hm : s.metadataReady = true)
    (hi : s.imageReady = true) (hnew : s.lastBookSequence < delta.final) (hgap : s.liveGap delta = true) :
    Down (s.processDelta ops delta) := by
  have hrsy := resync_down ops (grounded_of_up hup)
  unfold processDelta
  rw [if_neg (by simp [hm]), if_neg (by simp [hi]), if_neg (by omega), if_pos hgap]
  split
  next s' hs' =>
    rw [hs'] at hrsy
    exact hrsy
  next s' hs' =>
    rw [hs'] at hrsy
    split
    next s'' hs'' => exact hrsy.bufferDelta hs''
    next => exact resync_down ops hrsy.grounded

theorem Down.processDelta (h : Down s) : Down (s.processDelta ops delta) := by
  unfold SymbolRuntime.processDelta
  split
  next => exact h.fail
  rw [if_pos (by simp [h.image])]
  split
  next s' hs' => exact h.bufferDelta hs'
  next => exact h.keep _

theorem continues_of_liveGap (hl : 0 < s.lastBookSequence) (hnew : s.lastBookSequence < delta.final)
    (h : s.liveGap delta = false) : Continues s.lastBookSequence delta := by
  have hbd := delta.bounded
  have hmax : s.lastBookSequence ≠ maxSequence := by omega
  have hze : s.lastBookSequence ≠ 0 := by omega
  unfold liveGap at h
  simp only [if_neg hmax, if_neg hze] at h
  split at h
  next =>
    split at h
    next => cases h
    next => cases h
    next => cases h
    next hobs =>
      have hold := (observe_stale (Prod.ext hobs rfl)).1
      exact absurd hold (not_le.mpr hnew)
    next hobs => exact (observe_accepted (Prod.ext hobs rfl)).1
  next => exact not_gap hnew h

theorem Follows.positive (h : Follows s x) : 0 < x.1.sequence := by
  have := h.story.positive
  rw [h.last] at this
  exact this

theorem Follows.apply (h : Follows s x) (p : P) (shown : Bool) (hc : Continues x.1.sequence delta)
    (hshn : shown = true → x.1.firstRelevant = false) : Follows { s with
      pipeline := p, lastBookSequence := delta.final, history := .applied delta shown :: s.history }
      (⟨delta.final, false⟩, delta :: x.2) := by
  refine ⟨h.up, h.metadata, h.image, rfl, ?_, iff_of_false false_ne_true (List.cons_ne_nil _ _), ?_⟩
  · show delta :: appliedSince s.history = delta :: x.2
    rw [h.taken]
  · rw [← h.last] at hc
    refine h.story.apply hc fun hs hno => ?_
    rw [h.taken, ← h.first, hshn hs] at hno
    cases hno

theorem Follows.publish (h : Follows s x) (hx : x.1.firstRelevant = false) (p : P) (sequence : Nat)
    (awaiting live : Bool) : Follows { s with
      pipeline := p, awaitingSnapshotBridge := awaiting, bookLive := live
      history := .published sequence :: s.history } x := by
  refine ⟨h.up, h.metadata, h.image, h.last, h.taken, h.first, h.story.loaded, h.story.chain, h.story.last,
    fun _ (hno : appliedSince s.history = []) => ?_, h.story.late⟩
  rw [h.taken, ← h.first, hx] at hno
  cases hno

theorem Keeps.live_eq (h : Keeps s x) (hnew : ¬delta.final ≤ x.1.sequence) :
    x.live delta = if s.liveGap delta then none else some (⟨delta.final, false⟩, delta :: x.2) := by
  have hbd := delta.bounded
  have hpos := h.positive
  have hmax : x.1.sequence ≠ maxSequence := by omega
  have hze : x.1.sequence ≠ 0 := by omega
  unfold Progress.live liveGap
  rw [if_neg hnew, h.last, h.awaiting]
  simp only [if_neg hmax, if_neg hze]
  cases hfst : x.1.firstRelevant with
  | false => simp only [false_eq_true, if_false]
  | true =>
    have hv : (⟨x.1.sequence, true⟩ : SnapshotBridgeValidator) = x.1 := by rw [← hfst]
    rw [hv]
    cases hd : (x.1.observe delta).1 with
    | stale => exact absurd (observe_stale (Prod.ext hd rfl)).1 hnew
    | accepted | snapshotTooOld | gap | invalid => rfl

theorem Keeps.applyLive (h : Keeps s x) (hc : Continues x.1.sequence delta) :
    Reached ops.Accepting (s.applyLive ops delta) (some (⟨delta.final, false⟩, delta :: x.2)) := by
  have hup := h.up
  unfold SymbolRuntime.applyLive
  dsimp only
  split
  next p hp =>
    have happ := h.apply p (!s.awaitingSnapshotBridge) hc (by simp [h.awaiting])
    split
    next =>
      split
      next p' hp' =>
        refine .inr ⟨fail_down (by exact hup), fun hops => ?_⟩
        have := hops.publish p s.generation delta.final delta.timeMs
        rw [hp'] at this
        cases this
      next p' _ => exact reached ⟨happ.publish rfl p' delta.final false true, rfl, rfl⟩
    next =>
      exact reached ⟨⟨happ.up, happ.metadata, happ.image, happ.last, happ.taken, happ.first, happ.story⟩, rfl, rfl⟩
  next result p hoth hp =>
    refine .inr ⟨pipelineFailure_down _ (by exact hup), fun hops => ?_⟩
    have hres := hops.apply s.pipeline s.generation delta !s.awaitingSnapshotBridge
    rw [hp] at hres
    exact (hoth hres).elim

theorem Keeps.processDelta (h : Keeps s x) (ops : PipelineOps P) (delta : PendingDelta) :
    Reached ops.Accepting (s.processDelta ops delta) (x.live delta) := by
  have hla := h.last
  have hpos := h.positive
  by_cases hold : delta.final ≤ x.1.sequence
  · unfold SymbolRuntime.processDelta
    rw [if_neg (by simp [h.metadata]), if_neg (by simp [h.image]), if_pos (by omega), Progress.live, if_pos hold]
    exact h.reached
  · have hnew : s.lastBookSequence < delta.final := by omega
    rw [h.live_eq hold]
    cases hgap : s.liveGap delta with
    | true => exact (processDelta_gap h.up h.metadata h.image hnew hgap).reached
    | false =>
      have hc := continues_of_liveGap (by omega) hnew hgap
      rw [hla] at hc
      unfold SymbolRuntime.processDelta
      rw [if_neg (by simp [h.metadata]), if_neg (by simp [h.image]), if_neg (by omega), if_neg (by simp [hgap])]
      exact h.applyLive hc

theorem Reached.processDelta (h : Reached sure s r) (hsure : sure → ops.Accepting) :
    Reached sure (s.processDelta ops delta) (r.bind fun x => x.live delta) := by
  obtain ⟨x, rfl, hkp⟩ | ⟨hdn, hno⟩ := h
  · obtain hrch | ⟨hdn, hno⟩ := hkp.processDelta ops delta
    · exact .inl hrch
    · exact .inr ⟨hdn, fun hs => hno (hsure hs)⟩
  · refine .inr ⟨hdn.processDelta, fun hs => ?_⟩
    rw [hno hs]
    rfl

theorem Consistent.processDelta (h : Consistent s) : Consistent (s.processDelta ops delta) := by
  obtain hdn | ⟨x, hkp⟩ := h
  · exact .inl hdn.processDelta
  · exact (hkp.processDelta ops delta).consistent

theorem restart_frame : s.restart.rebuildPending = s.rebuildPending ∧
    s.restart.metadataReady = s.metadataReady ∧ s.restart.pending = s.pending := by
  unfold restart
  split
  next => exact ⟨rfl, rfl, rfl⟩
  next => exact ⟨rfl, rfl, rfl⟩

theorem Consistent.processSnapshot (h : Consistent s) :
    (Down (processSnapshot ops s image).2 ∧ ¬(ops.Accepting ∧ s.metadataReady = true ∧ image.Deep)) ∨
      (image.Deep ∧ (processSnapshot ops s image).1 = true ∧
        Keeps (processSnapshot ops s image).2 image.progress ∧
        (processSnapshot ops s image).2.pending = s.pending) := by
  unfold SymbolRuntime.processSnapshot
  split
  next hm => exact .inl ⟨h.fail, fun hs => by simp [hs.2.1] at hm⟩
  next hm =>
  rw [not_eq_true', not_eq_false] at hm
  obtain ⟨hreb, hmetadata, hpd⟩ := restart_frame
  have hup : s.restart.rebuildPending = false := hreb.trans (h.up hm)
  dsimp only
  split
  next hshallow =>
    refine .inl ⟨resync_down ops (grounded_of_up hup), fun hs => ?_⟩
    have hdeep := hs.2.2
    unfold Deep at hdeep
    omega
  next hdeep =>
    have hdeep : image.Deep := by
      unfold Deep
      omega
    split
    next hladder =>
      refine .inl ⟨fail_down hup, fun hs => ?_⟩
      rw [hs.1.ladder] at hladder
      cases hladder
    next =>
      split
      next p hp =>
        refine .inr ⟨hdeep, rfl, ⟨⟨hup, hmetadata.trans hm, rfl, rfl, rfl, iff_of_true rfl rfl,
          image.positive, trivial, rfl, trivial⟩, rfl, rfl⟩, hpd⟩
      next result p hoth hp =>
        refine .inl ⟨pipelineFailure_down _ hup, fun hs => ?_⟩
        have hres := congrArg Prod.fst hp
        rw [hs.1.load] at hres
        exact hoth hres.symm

theorem Follows.applyPending (h : Follows s x) (ops : PipelineOps P) (timeMs : Nat)
    (hb : pending.foldlM bridge x = some y) :
    ((applyPending ops s pending timeMs).1 = false ∧ Down (applyPending ops s pending timeMs).2.1 ∧ ¬ops.Accepting) ∨
    ((applyPending ops s pending timeMs).1 = true ∧ Follows (applyPending ops s pending timeMs).2.1 y ∧
      (applyPending ops s pending timeMs).2.1.bookLive = s.bookLive) := by
  induction pending generalizing s x timeMs with
  | nil =>
    cases hb
    exact .inr ⟨rfl, h, rfl⟩
  | cons delta pending ih =>
    obtain ⟨z, hz, hrs⟩ := foldlM_cons_some hb
    unfold SymbolRuntime.applyPending
    obtain ⟨hold, rfl⟩ | ⟨hc, rfl⟩ := bridge_cases hz
    · rw [if_pos (by rw [h.last]; exact hold)]
      exact ih h timeMs hrs
    · have hnew := hc.1
      rw [if_neg (by rw [h.last]; omega)]
      split
      next p hp => exact ih (h.apply p false hc fun hf => absurd hf false_ne_true) delta.timeMs hrs
      next result p hoth hp =>
        refine .inl ⟨rfl, pipelineFailure_down _ h.up, fun hops => ?_⟩
        have hres := hops.apply s.pipeline s.generation delta false
        rw [hp] at hres
        exact hoth hres

theorem rebuild_down (h : Down (processSnapshot ops s image).2) : Down (rebuild ops s image v) := by
  unfold rebuild
  split
  next s1 hs1 =>
    rw [hs1] at h
    exact h
  next s1 hs1 =>
    rw [hs1] at h
    have himage : s1.imageReady = false := h.image
    rw [if_pos (by simp [himage])]
    exact h

theorem Consistent.rebuild (h : Consistent s) (ops : PipelineOps P)
    (hb : s.pending.foldlM bridge image.progress = some y) :
    Reached (ops.Accepting ∧ s.metadataReady = true) (rebuild ops s image y.1) (image.bridged s.pending) := by
  unfold bridged
  obtain ⟨hdn, hrsn⟩ | ⟨hdeep, htrue, hld, hpd⟩ := h.processSnapshot
  · refine .inr ⟨rebuild_down hdn, fun hs => ?_⟩
    rw [if_neg fun hdeep => hrsn ⟨hs.1, hs.2, hdeep⟩]
  · rw [if_pos hdeep, hb]
    unfold SymbolRuntime.rebuild
    split
    next s1 hs1 =>
      rw [hs1] at htrue
      cases htrue
    next s1 hs1 =>
      rw [hs1] at hld hpd
      have hld : Keeps s1 image.progress := hld
      have happ := hld.toFollows.applyPending ops image.timeMs hb
      rw [if_neg (by simp [hld.image]), hpd]
      split
      next s2 timeMs hs2 =>
        rw [hs2] at happ
        obtain ⟨-, hdn, hrsn⟩ | ⟨hfalse, -⟩ := happ
        · exact .inr ⟨hdn, fun hs => absurd hs.1 hrsn⟩
        · cases hfalse
      next s2 timeMs hs2 =>
        rw [hs2] at happ
        obtain ⟨hfalse, -⟩ | ⟨-, hfol, hlv⟩ := happ
        · cases hfalse
        · have hlv : s2.bookLive = false := hlv.trans hld.live
          cases hfst : y.1.firstRelevant with
          | true =>
            -- none of the updates was newer than the snapshot
            have hwaits : (!y.1.hasAccepted) = true := by simp [hasAccepted, hfst]
            rw [if_pos hwaits]
            refine Keeps.reached ⟨⟨hfol.up, hfol.metadata, hfol.image, hfol.last,
              hfol.taken, hfol.first, hfol.story⟩, hwaits.trans hfst.symm, ?_⟩
            rw [hfst]
            exact hlv
          | false =>
            have hacc : (!y.1.hasAccepted) = false := by
              simp [hasAccepted, hfst]
            rw [if_neg (by simp [hacc])]
            split
            next p hp =>
              refine .inr ⟨fail_down (by exact hfol.up), fun hs => ?_⟩
              have := hs.1.publish s2.pipeline s2.generation s2.lastBookSequence timeMs
              rw [hp] at this
              cases this
            next p _ =>
              have hshn := hfol.publish hfst p s2.lastBookSequence (!y.1.hasAccepted) true
              refine Keeps.reached ⟨⟨hshn.up, hshn.metadata, hshn.image, hshn.last,
                hshn.taken, hshn.first, hshn.story⟩, hacc.trans hfst.symm, ?_⟩
              rw [hfst]
              rfl

theorem bridgePending_eq (canRetry : Bool) (h : pending.foldlM bridge x = some y) :
    bridgePending canRetry x.1 pending = .bridged y.1 := by
  induction pending generalizing x with
  | nil =>
    cases h
    rfl
  | cons delta pending ih =>
    obtain ⟨z, hz, hrs⟩ := foldlM_cons_some h
    have hst : bridgePending canRetry x.1 (delta :: pending) = bridgePending canRetry z.1 pending := by
      unfold bridge at hz
      rw [bridgePending]
      split at hz
      next v hobs =>
        cases hz
        rw [hobs]
      next v hobs =>
        cases hz
        rw [hobs]
      next => cases hz
    rw [hst]
    exact ih hrs

theorem bridgePending_ne {canRetry : Bool} (h : pending.foldlM bridge x = none) :
    bridgePending canRetry x.1 pending ≠ .bridged v := by
  induction pending generalizing x with
  | nil => cases h
  | cons delta pending ih =>
    rw [List.foldlM_cons] at h
    rw [bridgePending]
    unfold bridge at h
    split
    next =>
      split
      next => exact BridgeOutcome.noConfusion
      next => exact BridgeOutcome.noConfusion
    next => exact BridgeOutcome.noConfusion
    next => exact BridgeOutcome.noConfusion
    next v1 hobs =>
      rw [hobs] at h
      exact ih (x := (v1, x.2)) h
    next v1 hobs =>
      rw [hobs] at h
      exact ih (x := (v1, delta :: x.2)) h

section

variable (h : Consistent s)

include h

theorem Consistent.handleSnapshot (ops : PipelineOps P) (options : VenueOptions) (image : BookImage) :
    Reached (ops.Accepting ∧ s.metadataReady = true ∧ s.snapshotActive = true)
      (s.handleSnapshot ops options image) (image.bridged s.pending) := by
  unfold SymbolRuntime.handleSnapshot
  split
  next hinact => exact .inr ⟨h.fail, fun hs => by simp [hs.2.2] at hinact⟩
  dsimp only
  generalize (options.retryLaggingSnapshot && _) = canRetry
  cases hb : s.pending.foldlM bridge image.progress with
  | none =>
    have hno : image.bridged s.pending = none := by
      unfold bridged
      rw [hb, ite_self]
    rw [hno]
    split
    next => exact Down.reached ⟨h.grounded, rfl, rfl⟩
    next => exact (resync_down ops (by exact h.grounded)).reached
    next v hv => exact absurd hv (bridgePending_ne hb)
  | some y =>
    have hcalm : Consistent { s with
        snapshotActive := false, consecutiveSnapshotFailures := 0, needsSnapshot := false
        laggingSnapshotRetries := 0 } := h.alike ⟨rfl, rfl, rfl, rfl, rfl, rfl, rfl⟩
    have hrch := hcalm.rebuild ops hb
    have hbr : bridgePending canRetry ⟨image.sequence, true⟩ s.pending = .bridged y.1 := bridgePending_eq canRetry hb
    rw [hbr]
    obtain hkp | ⟨hdn, hrsn⟩ := hrch
    · exact .inl hkp
    · exact .inr ⟨hdn, fun hs => hrsn ⟨hs.1, hs.2.1⟩⟩

theorem Consistent.snapshotBackoff
    (forcedDelay quarantine : Bool) : Consistent (s.snapshotBackoff options forcedDelay quarantine) := by
  unfold SymbolRuntime.snapshotBackoff
  dsimp only
  generalize s.consecutiveSnapshotFailures + (if forcedDelay = true then 0 else 1) = failures
  split
  next => exact .inl ⟨h.grounded, rfl, rfl⟩
  next => exact h.alike ⟨rfl, rfl, rfl, rfl, rfl, rfl, rfl⟩

theorem Consistent.requestSnapshot : Consistent s.requestSnapshot := by
  unfold SymbolRuntime.requestSnapshot
  split
  next => exact h.alike ⟨rfl, rfl, rfl, rfl, rfl, rfl, rfl⟩
  next => exact h

theorem Consistent.rebuilt (p : P) : Consistent { s with
    metadataReady := true, rebuildPending := false, pipeline := p } := by
  obtain hdn | ⟨x, hkp⟩ := h
  · exact .inl ⟨fun hr => absurd hr false_ne_true, hdn.image, hdn.live⟩
  · exact .inr ⟨x, ⟨rfl, rfl, hkp.image, hkp.last, hkp.taken, hkp.first, hkp.story⟩, hkp.awaiting, hkp.live⟩

theorem Consistent.step (event : Event) : Consistent (s.step ops options event) := by
  cases event with
  | delta delta => exact h.processDelta
  | gap =>
    show Consistent (if !s.metadataReady then s.fail else (resyncSymbol ops s).2)
    split
    next => exact .inl h.fail
    next => exact .inl (resync_down ops h.grounded)
  | request => exact h.requestSnapshot
  | snapshot image => exact (h.handleSnapshot ops options image).consistent
  | snapshotFailed forcedDelay quarantine => exact h.snapshotBackoff forcedDelay quarantine
  | reconnected => exact .inl ⟨h.grounded, rfl, rfl⟩
  | rebuilt => exact h.rebuilt _

theorem Consistent.run (ops : PipelineOps P) (options : VenueOptions)
    (events : List Event) : Consistent (s.run ops options events) := by
  induction events generalizing s with
  | nil => exact h
  | cons event events ih => exact ih (h.step event)

end

def opened (pipeline : P) : SymbolRuntime P := { pipeline := pipeline }

theorem opened_consistent (pipeline : P) : Consistent (opened pipeline) :=
  .inl ⟨fun hr => absurd hr false_ne_true, rfl, rfl⟩

end SymbolRuntime

end SelfQuant.Mds
