import SelfQuant.MdsSymbolChain

namespace SelfQuant.Mds

open List BookCall Option
open Progress (foldlM_live foldlM_live_eq live)

namespace SymbolRuntime

variable {P : Type} {ops : PipelineOps P} {options : VenueOptions} {s : SymbolRuntime P}
  {delta : PendingDelta} {image : BookImage} {pre post pre' post' deltas : List PendingDelta}
  {x y : Progress} {r : Option Progress} {sure : Prop}

theorem run_append (events events' : List Event) :
    s.run ops options (events ++ events') = (s.run ops options events).run ops options events' :=
  foldl_append

theorem Reached.run (h : Reached sure s r) (hsure : sure → ops.Accepting) (options : VenueOptions)
    (deltas : List PendingDelta) : Reached sure (s.run ops options (deltas.map .delta))
      (r.bind fun x => deltas.foldlM live x) := by
  induction deltas generalizing s r with
  | nil =>
    have hr : (r.bind fun x => ([] : List PendingDelta).foldlM live x) = r := by
      cases r with
      | none | some => rfl
    rw [hr]
    exact h
  | cons delta deltas ih =>
    have hr : (r.bind fun x => (delta :: deltas).foldlM live x) =
        (r.bind fun x => x.live delta).bind fun x => deltas.foldlM live x := by
      cases r with
      | none | some => rfl
    rw [hr]
    exact ih (h.processDelta hsure)

theorem run_buffered (ops : PipelineOps P) (options : VenueOptions) (hm : s.metadataReady = true)
    (hi : s.imageReady = false) (hrm : s.pending.length + deltas.length ≤ kMaximumPending) :
    s.run ops options (deltas.map .delta) = { s with pending := s.pending ++ deltas } := by
  induction deltas generalizing s with
  | nil =>
    rw [append_nil]
    rfl
  | cons delta deltas ih =>
    rw [length_cons] at hrm
    have hst : s.processDelta ops delta = { s with pending := s.pending ++ [delta] } := by
      unfold processDelta bufferDelta
      rw [if_neg (by simp [hm]), if_pos (by simp [hi]), if_neg (by omega)]
    have hrs := ih (s := { s with pending := s.pending ++ [delta] }) hm hi
      (by rw [length_append, length_singleton]; omega)
    show (s.processDelta ops delta).run ops options (deltas.map .delta) = _
    rw [hst, hrs, append_assoc]
    rfl

/-- The symbol waits for a snapshot that was asked for, and has kept nothing yet. -/
structure Waiting (s : SymbolRuntime P) : Prop where
  metadata : s.metadataReady = true
  image : s.imageReady = false
  active : s.snapshotActive = true
  pending : s.pending = []

def around (pre : List PendingDelta) (image : BookImage) (post : List PendingDelta) : List Event :=
  pre.map .delta ++ .snapshot image :: post.map .delta

theorem Waiting.buffered (h : Waiting s) (ops : PipelineOps P) (options : VenueOptions)
    (hrm : pre.length ≤ kMaximumPending) : s.run ops options (pre.map .delta) = { s with pending := pre } := by
  have hrm' : s.pending.length + pre.length ≤ kMaximumPending := by
    rw [h.pending, length_nil]
    omega
  have hkt := run_buffered ops options h.metadata h.image hrm'
  rwa [h.pending] at hkt

theorem Waiting.reached (h : Waiting s) (hs : Consistent s) (ops : PipelineOps P) (options : VenueOptions)
    (image : BookImage) (post : List PendingDelta) (hrm : pre.length ≤ kMaximumPending) :
    Reached ops.Accepting (s.run ops options (around pre image post))
      ((image.bridged pre).bind fun x => post.foldlM live x) := by
  have hwt : Consistent { s with pending := pre } := hs.alike ⟨rfl, rfl, rfl, rfl, rfl, rfl, rfl⟩
  have hsna := hwt.handleSnapshot ops options image
  unfold around
  rw [run_append, h.buffered ops options hrm]
  refine Reached.run ?_ id options post
  obtain hkp | ⟨hdn, hrsn⟩ := hsna
  · exact .inl hkp
  · exact .inr ⟨hdn, fun hops => hrsn ⟨hops, h.metadata, h.active⟩⟩

theorem Reached.live (h : Reached sure s r) (hl : s.bookLive = true) : ∃ x, r = some x ∧ Keeps s x := by
  obtain hkp | ⟨hdn, -⟩ := h
  · exact hkp
  · rw [hdn.live] at hl
    cases hl

theorem Reached.bookLive_eq (h : Reached sure s r) (hsure : sure) :
    s.bookLive = r.any fun x => !x.1.firstRelevant := by
  obtain ⟨x, rfl, hkp⟩ | ⟨hdn, hno⟩ := h
  · exact hkp.live
  · rw [hdn.live, hno hsure]
    rfl

theorem bridged_later (h : ((image.bridged (pre ++ deltas)).bind fun x => post.foldlM live x) = some y) :
    ((image.bridged pre).bind fun x => (deltas ++ post).foldlM live x) = some y := by
  obtain ⟨x, hx, hpost⟩ := bind_eq_some_iff.mp h
  unfold BookImage.bridged at hx ⊢
  split at hx
  next hdeep =>
    rw [foldlM_append] at hx
    obtain ⟨z, hz, hdeltas⟩ := bind_eq_some_iff.mp hx
    rw [if_pos hdeep, hz, bind_some, foldlM_append, foldlM_live hdeltas]
    exact hpost
  next => cases hx

theorem bridged_live (hrg : ∀ delta ∈ post, delta.first ≤ delta.final) :
    ((image.bridged pre).bind fun x => post.foldlM live x) = image.bridged (pre ++ post) := by
  unfold BookImage.bridged
  split
  next =>
    rw [foldlM_append]
    exact bind_congr fun x _ => foldlM_live_eq hrg
  next => rfl

theorem bridged_both (hsm : pre ++ post = pre' ++ post')
    (hx : ((image.bridged pre).bind fun x => post.foldlM live x) = some x)
    (hy : ((image.bridged pre').bind fun x => post'.foldlM live x) = some y) : x = y := by
  obtain ⟨deltas, rfl, rfl⟩ | ⟨deltas, rfl, rfl⟩ := append_eq_append_iff.mp hsm
  · exact some.inj (hx.symm.trans (bridged_later hy))
  · exact some.inj ((bridged_later hx).symm.trans hy)

/-- A live book holds a chain of updates on a snapshot: each goes on from the one before it, the last one has the number of
the book, and nothing was published before. Where in a sequence of updates a snapshot arrives makes no difference to the
updates that a live book has taken, and, with a range in each and a pipeline that takes everything, none to whether it is
live, as long as those before the snapshot can be kept. -/
theorem live_book_is_chain (ops : PipelineOps P) (options : VenueOptions) (pipeline : P)
    (events : List Event) (s : SymbolRuntime P) (hs : s = (opened pipeline).run ops options events) :
    (s.bookLive = true → appliedSince s.history ≠ [] ∧ Story s.history s.lastBookSequence) ∧
    (Waiting s → ∀ image pre post pre' post', pre ++ post = pre' ++ post' →
      pre.length ≤ kMaximumPending → pre'.length ≤ kMaximumPending →
      ((s.run ops options (around pre image post)).bookLive = true →
        (s.run ops options (around pre' image post')).bookLive = true →
        appliedSince (s.run ops options (around pre image post)).history =
          appliedSince (s.run ops options (around pre' image post')).history ∧
        (s.run ops options (around pre image post)).lastBookSequence =
          (s.run ops options (around pre' image post')).lastBookSequence) ∧
      (ops.Accepting → (∀ delta ∈ pre ++ post, delta.first ≤ delta.final) →
        (s.run ops options (around pre image post)).bookLive =
          (s.run ops options (around pre' image post')).bookLive)) := by
  have hs : Consistent s := hs ▸ (opened_consistent pipeline).run ops options events
  refine ⟨fun hlive => ?_, fun hwait image pre post pre' post' hsame hroom hroom' => ?_⟩
  · obtain hdown | ⟨x, hkeeps⟩ := hs
    · rw [hdown.live] at hlive
      cases hlive
    · have hfirst : x.1.firstRelevant = false := by simpa [hkeeps.live] using hlive
      refine ⟨fun hnone => ?_, hkeeps.story⟩
      rw [hkeeps.taken, ← hkeeps.first, hfirst] at hnone
      cases hnone
  · have hreach := hwait.reached hs ops options image post hroom
    have hreach' := hwait.reached hs ops options image post' hroom'
    refine ⟨fun hlive hlive' => ?_, fun hops hrange => ?_⟩
    · obtain ⟨x, hx, hkeeps⟩ := hreach.live hlive
      obtain ⟨y, hy, hkeeps'⟩ := hreach'.live hlive'
      obtain rfl := bridged_both hsame hx hy
      exact ⟨hkeeps.taken.trans hkeeps'.taken.symm, hkeeps.last.trans hkeeps'.last.symm⟩
    · have hpost : ∀ delta ∈ post, delta.first ≤ delta.final := fun delta hd => hrange delta (mem_append_right pre hd)
      have hpost' : ∀ delta ∈ post', delta.first ≤ delta.final := fun delta hd =>
        hrange delta (hsame ▸ mem_append_right pre' hd)
      rw [hreach.bookLive_eq hops, hreach'.bookLive_eq hops, bridged_live hpost, bridged_live hpost', hsame]

def obliging : PipelineOps Unit where
  prepareSnapshotTick _ _ _ := ()
  ladderTooSmall _ _ _ := false
  loadImage _ _ _ := (.applied, ())
  applyDelta _ _ _ _ := (.applied, ())
  publishCompleteBook _ _ _ _ := (true, ())
  publishCatalogBarrier _ _ := (true, ())
  openSymbol _ := ()

theorem obliging_accepting : obliging.Accepting :=
  ⟨fun _ _ _ => rfl, fun _ _ _ _ => rfl, fun _ _ _ _ => rfl, fun _ _ _ => rfl⟩

def asked : SymbolRuntime Unit := (opened ()).run obliging ⟨true, 10⟩ [.request]

theorem asked_waiting : Waiting asked := ⟨rfl, rfl, rfl, rfl⟩

def image100 : BookImage where
  sequence := 100
  bids := replicate 10 ⟨99, 1⟩
  asks := replicate 10 ⟨101, 1⟩

def delta101 : PendingDelta := { first := 101, final := 101 }

def delta102 : PendingDelta := { first := 102, final := 102 }

theorem live_book_is_chain_sample :
    (asked.run obliging ⟨true, 10⟩ (around [delta101] image100 [delta102])).bookLive = true ∧
    appliedSince (asked.run obliging ⟨true, 10⟩ (around [delta101] image100 [delta102])).history =
      appliedSince (asked.run obliging ⟨true, 10⟩ (around [] image100 [delta101, delta102])).history ∧
    Story (asked.run obliging ⟨true, 10⟩ (around [delta101] image100 [delta102])).history 102 := by
  have hsplit := (live_book_is_chain obliging ⟨true, 10⟩ () [.request] asked rfl).2 asked_waiting image100
    [delta101] [delta102] [] [delta101, delta102] rfl (by decide) (by decide)
  have hlive : (asked.run obliging ⟨true, 10⟩ (around [delta101] image100 [delta102])).bookLive = true := rfl
  have hsame := hsplit.2 obliging_accepting (by decide)
  have hchain := live_book_is_chain obliging ⟨true, 10⟩ () (.request :: around [delta101] image100 [delta102]) _ rfl
  exact ⟨hlive, (hsplit.1 hlive (hsame ▸ hlive)).1, (hchain.1 hlive).2⟩

theorem foldlM_live_old (hold : ∀ delta ∈ deltas, delta.final ≤ x.1.sequence) : deltas.foldlM live x = some x := by
  induction deltas with
  | nil => rfl
  | cons delta deltas ih =>
    have hfst : x.live delta = some x := if_pos (hold delta mem_cons_self)
    rw [foldlM_cons, hfst]
    exact ih (forall_mem_cons.mp hold).2

theorem Waiting.overflow (h : Waiting s) (hs : Consistent s)
    (hfu : pre.length = kMaximumPending) (hlat : image.bridged [delta] = none) :
    (s.run ops options (around (pre ++ [delta]) image [])).bookLive = false := by
  have hov : processDelta ops { s with pending := pre } delta =
      { s with laggingSnapshotRetries := 0, pending := [delta] } := by
    unfold processDelta bufferDelta
    rw [if_neg (by simp [h.metadata]), if_pos (by simp [h.image]), if_pos (by exact hfu.ge)]
  have hevs : s.run ops options (around (pre ++ [delta]) image []) =
      (processDelta ops { s with pending := pre } delta).handleSnapshot ops options image := by
    unfold around
    rw [map_append, append_assoc, run_append, h.buffered ops options hfu.le]
    rfl
  have hwt : Consistent { s with laggingSnapshotRetries := 0, pending := [delta] } :=
    hs.alike ⟨rfl, rfl, rfl, rfl, rfl, rfl, rfl⟩
  have hrch := hwt.handleSnapshot ops options image
  rw [hevs, hov]
  by_contra hlv
  obtain ⟨x, hx, -⟩ := hrch.live (by simpa using hlv)
  rw [hlat] at hx
  cases hx

theorem copies_taken (n : Nat) : Keeps (asked.run obliging ⟨true, 10⟩
      (around [] image100 (delta101 :: replicate (n + 1) delta102)))
      (⟨102, false⟩, [delta102, delta101]) := by
  have hs : Consistent asked := (opened_consistent ()).run obliging ⟨true, 10⟩ [.request]
  have hrs : (replicate n delta102).foldlM live (⟨102, false⟩, [delta102, delta101]) =
      some (⟨102, false⟩, [delta102, delta101]) := by
    refine foldlM_live_old fun delta hd => ?_
    rw [eq_of_mem_replicate hd]
    decide
  have hall : ((image100.bridged []).bind fun x =>
      (delta101 :: replicate (n + 1) delta102).foldlM live x) = some (⟨102, false⟩, [delta102, delta101]) := hrs
  have hrm : ([] : List PendingDelta).length ≤ kMaximumPending := Nat.zero_le _
  have hrch := asked_waiting.reached hs obliging ⟨true, 10⟩ image100 (delta101 :: replicate (n + 1) delta102) hrm
  rw [hall] at hrch
  obtain ⟨x, hx, hkp⟩ | ⟨-, hno⟩ := hrch
  · rw [some.inj hx]
    exact hkp
  · cases hno obliging_accepting

theorem copies_lost (n : Nat) (hn : n + 1 = kMaximumPending) : (asked.run obliging ⟨true, 10⟩
      (around (delta101 :: replicate (n + 1) delta102) image100 [])).bookLive = false := by
  have hs : Consistent asked := (opened_consistent ()).run obliging ⟨true, 10⟩ [.request]
  have hla : delta101 :: replicate (n + 1) delta102 = (delta101 :: replicate n delta102) ++ [delta102] := by
    rw [cons_append, ← replicate_succ']
  have hfu : (delta101 :: replicate n delta102).length = kMaximumPending := by
    rw [length_cons, length_replicate]
    exact hn
  rw [hla]
  exact asked_waiting.overflow hs hfu rfl

/-- One update more than can be kept: the book takes them after the snapshot, but not before it. -/
theorem overflow_depends_on_split :
    (asked.run obliging ⟨true, 10⟩ (around [] image100 (delta101 :: replicate 4096 delta102))).bookLive = true ∧
    appliedSince (asked.run obliging ⟨true, 10⟩
      (around [] image100 (delta101 :: replicate 4096 delta102))).history = [delta102, delta101] ∧
    (asked.run obliging ⟨true, 10⟩ (around (delta101 :: replicate 4096 delta102) image100 [])).bookLive = false :=
  ⟨(copies_taken 4095).live, (copies_taken 4095).taken, copies_lost 4095 rfl⟩

end SymbolRuntime

end SelfQuant.Mds
