import SelfQuant.MdsArbiterStream
import Mathlib.Data.List.Induction
import Mathlib.Data.List.Nodup

namespace SelfQuant.Mds.Redundancy

open List SequenceArbiter NativeEvent

variable {gap first n : Nat} {events out : List NativeEvent} {e p : NativeEvent} {s : SequenceArbiter}
  {r : List ArbiterDecision × SequenceArbiter} {ds : List ArbiterDecision}

theorem run_concat :
    s.run (events ++ [e]) = ((s.run events).1 ++ ((s.run events).2.submit e).1, ((s.run events).2.submit e).2) := by
  induction events generalizing s with
  | nil => simp [run]
  | cons event events ih => simp only [cons_append, run, ih, append_assoc]

theorem published_append (rest : List ArbiterDecision) : published (ds ++ rest) = published ds ++ published rest := by
  unfold published
  rw [filter_append, map_append]

theorem published_eq_map (h : ∀ d ∈ ds, d.action = .publish) : published ds = ds.map (·.event) := by
  unfold published
  rw [filter_eq_self.mpr fun d hd => decide_eq_true (h d hd)]

theorem published_concat {action : ArbiterAction} (h : action ≠ .publish) :
    published (ds ++ [⟨action, e, false⟩]) = published ds := by
  have hno : published [⟨action, e, false⟩] = [] := by
    unfold published
    rw [filter_singleton, decide_eq_false h]
    rfl
  rw [published_append, hno, append_nil]

def ArbiterDecision.Stops (d : ArbiterDecision) : Prop := d.action = .divergence ∨ d.action = .resync

structure Reached (gap first : Nat) (events : List NativeEvent) (r : List ArbiterDecision × SequenceArbiter) : Prop where
  exact : Exact first events (published r.1)
  going : r.2.divergent = false → Tracks gap first events (published r.1) r.2 ∧ Settled r.2
  stops : ∀ d ∈ r.1, d.Stops → r.2.divergent = true
  quiet : r.1.Pairwise fun d later => d.Stops → later.action ≠ .publish

theorem Reached.step (hex : Exact first events (published r.1))
    (hgoing : r.2.divergent = false → Tracks gap first events (published r.1) (r.2.start e) ∧ Settled (r.2.start e))
    (hstops : ∀ d ∈ r.1, d.Stops → r.2.divergent = true)
    (hqt : r.1.Pairwise fun d later => d.Stops → later.action ≠ .publish)
    (hbd : ∀ p ∈ events ++ [e], p.sequence + 1 < 2 ^ 64) :
    Reached gap first (events ++ [e]) (r.1 ++ (r.2.submit e).1, (r.2.submit e).2) := by
  cases hd : r.2.divergent with
  | true =>
    have hrsy : ArbiterAction.resync ≠ .publish := by decide
    have hsub : r.2.submit e = ([⟨.resync, e, false⟩], r.2) := by
      unfold submit
      rw [if_pos hd]
    rw [hsub]
    refine ⟨?_, fun hgo => absurd (hd.symm.trans hgo) (by decide), fun _ _ _ => hd, ?_⟩
    · rw [published_concat hrsy]
      exact hex.submit e
    · refine pairwise_append.mpr ⟨hqt, pairwise_singleton _ _, fun d _ later hlat _ => ?_⟩
      rw [mem_singleton.mp hlat]
      exact hrsy
  | false =>
    have hsub : r.2.submit e = (r.2.start e).submitStarted e := by
      unfold submit
      rw [if_neg (by rw [hd]; exact Bool.false_ne_true)]
    obtain ⟨htrk, hsett⟩ := hgoing hd
    -- nothing so far stops the arbiter, so any decisions may follow
    have hno : ∀ d ∈ r.1, ¬d.Stops := fun d hmem hsp => absurd ((hstops d hmem hsp).symm.trans hd) (by decide)
    have hqt' : ∀ ds : List ArbiterDecision, (∀ d ∈ ds, ¬d.Stops) ∨ (∃ d, ds = [d]) →
        (r.1 ++ ds).Pairwise fun d later => d.Stops → later.action ≠ .publish := by
      intro ds hds
      refine pairwise_append.mpr ⟨hqt, ?_, fun d hmem _ _ hsp => absurd hsp (hno d hmem)⟩
      rcases hds with hds | ⟨d, rfl⟩
      · exact pairwise_of_forall_mem_list fun d hmem _ _ hsp => absurd hsp (hds d hmem)
      · exact pairwise_singleton _ _
    have hout := submitStarted_outcome htrk hsett hd hbd
    rw [← hsub] at hout
    generalize r.2.submit e = r' at hout
    cases hout with
    | stopped hwhy hact hsp =>
      refine ⟨?_, fun hgo => absurd (hsp.symm.trans hgo) (by decide), fun _ _ _ => hsp, hqt' _ (.inr ⟨_, rfl⟩)⟩
      rw [published_concat hact]
      exact hex.submit e
    | kept hact hgo h hs =>
      refine ⟨?_, fun _ => ?_, fun d hmem hsp => ?_, hqt' _ (.inr ⟨_, rfl⟩)⟩
      · rw [published_concat hact.1]
        exact h.exact
      · rw [published_concat hact.1]
        exact ⟨h, hs⟩
      · rcases mem_append.mp hmem with hmem | hmem
        · exact absurd hsp (hno d hmem)
        · rw [mem_singleton.mp hmem] at hsp
          exact absurd hsp (not_or.mpr hact.2)
    | @went ds s' hact hgo h hs =>
      have hgood : ∀ d ∈ ds, ¬d.Stops := by
        rintro d hmem (hsp | hsp)
        · exact absurd ((hact d hmem).symm.trans hsp) (by decide)
        · exact absurd ((hact d hmem).symm.trans hsp) (by decide)
      have hpub : published (r.1 ++ ds) = published r.1 ++ ds.map (·.event) := by
        rw [published_append, published_eq_map hact]
      refine ⟨?_, fun _ => ?_, fun d hmem hsp => ?_, hqt' ds (.inl hgood)⟩
      · rw [hpub]
        exact h.exact
      · rw [hpub]
        exact ⟨h, hs⟩
      · rcases mem_append.mp hmem with hmem | hmem
        · exact absurd hsp (hno d hmem)
        · exact absurd hsp (hgood d hmem)

def firstNumber (n : Nat) (events : List NativeEvent) : Nat :=
  if n = 0 then (events.head?.map (·.sequence)).getD 0 else n

theorem firstNumber_append (hne : events ≠ []) : firstNumber n (events ++ [e]) = firstNumber n events := by
  unfold firstNumber
  rw [head?_append_of_ne_nil _ hne]

theorem Tracks.next_pos (h : Tracks gap (firstNumber n events) events out s) (hs : Settled s) (hne : events ≠ []) :
    s.nextSequence ≠ 0 := by
  have hnx := h.next
  by_cases hn : n = 0
  · obtain ⟨e, rest, rfl⟩ := exists_cons_of_ne_nil hne
    have hfst : firstNumber n (e :: rest) = e.sequence := by
      unfold firstNumber
      rw [if_pos hn]
      rfl
    have hoth := h.next_not_submitted hs mem_cons_self
    omega
  · unfold firstNumber at hnx
    rw [if_neg hn] at hnx
    omega

variable (maxGap : Nat)

def opened (n : Nat) : SequenceArbiter := (create maxGap).reset n

theorem start_opened :
    Tracks (create maxGap).maxGap (firstNumber n [e]) [] [] ((opened maxGap n).start e) ∧
      Settled ((opened maxGap n).start e) := by
  refine ⟨⟨⟨rfl, fun p hp => ?_⟩, rfl, rfl, fun _ _ h => ?_, fun _ _ h => ?_, fun p hp => ?_⟩, fun _ h => ?_⟩
  · exact (not_mem_nil hp).elim
  · cases h
  · cases h
  · exact (not_mem_nil hp).elim
  · cases h

theorem Reached.start (h : Reached gap (firstNumber n events) events r) (hne : events ≠ [])
    (hgo : r.2.divergent = false) :
    Tracks gap (firstNumber n events) events (published r.1) (r.2.start e) ∧ Settled (r.2.start e) := by
  obtain ⟨htrk, hsett⟩ := h.going hgo
  have hsta : r.2.start e = r.2 := by
    unfold SequenceArbiter.start
    rw [if_neg (htrk.next_pos hsett hne)]
  rw [hsta]
  exact ⟨htrk, hsett⟩

theorem reached_run (n : Nat) (hbd : ∀ p ∈ events, p.sequence + 1 < 2 ^ 64) (hne : events ≠ []) :
    Reached (create maxGap).maxGap (firstNumber n events) events ((opened maxGap n).run events) := by
  induction events using reverseRecOn with
  | nil => exact absurd rfl hne
  | append_singleton events e ih =>
    rw [run_concat]
    by_cases hnil : events = []
    · subst hnil
      obtain ⟨htrk, hsett⟩ := start_opened maxGap
      refine Reached.step htrk.exact (fun _ => ⟨htrk, hsett⟩) (fun d hd => ?_) Pairwise.nil hbd
      exact (not_mem_nil hd).elim
    · have hrch := ih (forall_mem_append.mp hbd).1 hnil
      rw [firstNumber_append hnil]
      exact Reached.step hrch.exact (fun hgo => hrch.start hnil hgo) hrch.stops hrch.quiet hbd

theorem tracks_start (hbd : ∀ p ∈ events, p.sequence + 1 < 2 ^ 64)
    (hgo : ((opened maxGap n).run events).2.divergent = false) :
    Tracks (create maxGap).maxGap (firstNumber n (events ++ [e])) events
        (published ((opened maxGap n).run events).1) (((opened maxGap n).run events).2.start e) ∧
      Settled (((opened maxGap n).run events).2.start e) := by
  by_cases hnil : events = []
  · subst hnil
    exact start_opened maxGap
  · rw [firstNumber_append hnil]
    exact (reached_run maxGap n hbd hnil).start hnil hgo

section Streams

variable {stream : List (Nat × Nat)}

def NativeEvent.content (e : NativeEvent) : Nat × Nat := (e.sequence, e.payloadHash)

def Numbered (first : Nat) (stream : List (Nat × Nat)) : Prop := stream.map (·.1) = range' first stream.length

theorem Numbered.eq_of_fst (h : Numbered first stream) {x y : Nat × Nat} (hx : x ∈ stream) (hy : y ∈ stream)
    (hfst : x.1 = y.1) : x = y := by
  have hnd : (stream.map (·.1)).Nodup := by
    rw [h]
    exact nodup_range'
  exact inj_on_of_nodup_map hnd hx hy hfst

theorem Numbered.fst_lt (h : Numbered first stream) {x : Nat × Nat} (hx : x ∈ stream) :
    first ≤ x.1 ∧ x.1 < first + stream.length := by
  have hmem : x.1 ∈ range' first stream.length := h ▸ mem_map_of_mem hx
  exact mem_range'_1.mp hmem

/-- No event is further from the first missing number than the gap allows. -/
def Close (gap first : Nat) (events : List NativeEvent) : Prop :=
  ∀ before e after, events = before ++ e :: after →
    ∀ k, first ≤ k → (∀ p ∈ before, p.sequence ≠ k) → e.sequence ≤ k + gap

theorem run_going (maxGap : Nat) (hbd : ∀ p ∈ events, p.sequence + 1 < 2 ^ 64)
    (hstrm : Numbered (firstNumber n events) stream) (hfrom : ∀ p ∈ events, p.content ∈ stream)
    (hcls : Close (create maxGap).maxGap (firstNumber n events) events) :
    ((opened maxGap n).run events).2.divergent = false := by
  induction events using reverseRecOn with
  | nil => rfl
  | append_singleton events e ih =>
    have hgo : ((opened maxGap n).run events).2.divergent = false := by
      by_cases hnil : events = []
      · subst hnil
        rfl
      · rw [firstNumber_append hnil] at hstrm hcls
        refine ih (forall_mem_append.mp hbd).1 hstrm (forall_mem_append.mp hfrom).1 ?_
        intro before p after heq
        exact hcls before p (after ++ [e]) (by rw [heq]; simp)
    obtain ⟨htrk, hsett⟩ := tracks_start maxGap (forall_mem_append.mp hbd).1 hgo
    have hout := submitStarted_outcome htrk hsett hgo hbd
    have hsub : ((opened maxGap n).run events).2.submit e =
        (((opened maxGap n).run events).2.start e).submitStarted e := by
      unfold submit
      rw [if_neg (by rw [hgo]; exact Bool.false_ne_true)]
    rw [run_concat, hsub]
    generalize (((opened maxGap n).run events).2.start e).submitStarted e = r' at hout
    cases hout with
    | kept hact hgo h hs | went hact hgo h hs => exact hgo
    | stopped hwhy hact hsp =>
      exfalso
      rcases hwhy with ⟨p, hp, hseq, hpay⟩ | hfar
      · have hsm : p.content = e.content := hstrm.eq_of_fst (hfrom p (mem_append_left _ hp)) (hfrom e (by simp)) hseq
        exact hpay (congrArg Prod.snd hsm)
      · have hnx := htrk.next
        have hle := hcls events e [] rfl _ (by omega) fun p hp => htrk.next_not_submitted hsett hp
        rw [htrk.maxGap] at hfar
        omega

theorem Numbered.eq_stream (h : Numbered first stream) {other : List (Nat × Nat)} (hoth : Numbered first other)
    (hlen : other.length = stream.length) (hmem : ∀ x ∈ other, x ∈ stream) : other = stream := by
  have hfst : other.map (·.1) = stream.map (·.1) := by
    rw [h, hoth, hlen]
  refine ext_getElem hlen fun i hi hi' => ?_
  refine h.eq_of_fst (hmem _ (getElem_mem hi)) (getElem_mem hi') ?_
  have hent := congrArg (fun numbers => numbers[i]?) hfst
  simpa [hi, hi'] using hent

theorem Tracks.published_stream (h : Tracks gap first events out s) (hs : Settled s)
    (hstrm : Numbered first stream) (hfrom : ∀ p ∈ events, p.content ∈ stream)
    (hall : ∀ x ∈ stream, ∃ p ∈ events, p.sequence = x.1) : out.map content = stream := by
  have hnx := h.next
  have hnumbers := h.exact.numbers
  have hmem : ∀ p ∈ out, p.content ∈ stream := fun p hp => hfrom p (firstOf_mem (h.exact.firsts p hp))
  have hle : out.length ≤ stream.length := by
    by_contra hln
    have hin : first + stream.length ∈ out.map (·.sequence) := by
      rw [hnumbers]
      exact mem_range'_1.mpr ⟨by omega, by omega⟩
    obtain ⟨p, hp, hseq⟩ := mem_map.mp hin
    have hlt : p.sequence < first + stream.length := (hstrm.fst_lt (hmem p hp)).2
    omega
  have hge : stream.length ≤ out.length := by
    by_contra hsh
    have hin : s.nextSequence ∈ stream.map (·.1) := by
      rw [hstrm]
      exact mem_range'_1.mpr ⟨by omega, by omega⟩
    obtain ⟨x, hx, hfst⟩ := mem_map.mp hin
    obtain ⟨p, hp, hseq⟩ := hall x hx
    exact h.next_not_submitted hs hp (hseq.trans hfst)
  refine hstrm.eq_stream ?_ (by rw [length_map]; omega) fun x hx => ?_
  · unfold Numbered
    rw [map_map, length_map]
    exact hnumbers
  · obtain ⟨p, hp, rfl⟩ := mem_map.mp hx
    exact hmem p hp

end Streams

def ofFeed (feed : Feed) (events : List NativeEvent) : List (Nat × Nat) := (events.filter (·.feed = feed)).map content

/-- The arbiter publishes one exact stream, up to the last number but one, and nothing after it has stopped; two feeds of
one stream that keep close together give that stream. -/
theorem arbiter_merges_feeds (n : Nat) (events : List NativeEvent)
    (hbound : ∀ p ∈ events, p.sequence + 1 < 2 ^ 64) :
    let decisions := ((opened maxGap n).run events).1
    ((published decisions).map (·.sequence) = range' (firstNumber n events) (published decisions).length ∧
      ∀ p ∈ published decisions, firstOf events p.sequence = some p) ∧
    (decisions.Pairwise fun d later => d.Stops → later.action ≠ .publish) ∧
    (∀ before e after, events = before ++ e :: after →
      ((opened maxGap n).run before).2.divergent = false → ¬(((opened maxGap n).run before).2.start e).Collides e) ∧
    ∀ stream, Numbered (firstNumber n events) stream → (∀ feed, (ofFeed feed events).Sublist stream) →
      (∀ x ∈ stream, ∃ p ∈ events, p.sequence = x.1) →
      Close (create maxGap).maxGap (firstNumber n events) events →
      (published decisions).map content = stream ∧ ∀ d ∈ decisions, ¬d.Stops := by
  by_cases hnil : events = []
  · subst hnil
    refine ⟨⟨rfl, fun p hp => (not_mem_nil hp).elim⟩, List.Pairwise.nil, fun before e after h => ?_,
      fun stream _ _ hall _ => ⟨?_, fun d hd => (not_mem_nil hd).elim⟩⟩
    · simp at h
    · refine (eq_nil_iff_forall_not_mem.mpr fun x hx => ?_).symm
      obtain ⟨p, hp, -⟩ := hall x hx
      exact not_mem_nil hp
  · have hreach := reached_run maxGap n hbound hnil
    refine ⟨⟨hreach.exact.numbers, hreach.exact.firsts⟩, hreach.quiet, fun before e after h hgo => ?_,
      fun stream hstrm hfeeds hall hclose => ?_⟩
    · have hbef : ∀ p ∈ before, p.sequence + 1 < 2 ^ 64 := fun p hp => hbound p (h ▸ mem_append_left _ hp)
      exact (tracks_start maxGap hbef hgo).1.not_collides
    · have hfrom : ∀ p ∈ events, p.content ∈ stream := fun p hp =>
      (hfeeds p.feed).subset (mem_map_of_mem (mem_filter.mpr ⟨hp, decide_eq_true rfl⟩))
      have hgo := run_going maxGap hbound hstrm hfrom hclose
      obtain ⟨htrk, hsett⟩ := hreach.going hgo
      refine ⟨htrk.published_stream hsett hstrm hfrom hall, fun d hd hstop => ?_⟩
      have hstopped := hreach.stops d hd hstop
      rw [hgo] at hstopped
      cases hstopped

def gapFeeds : List NativeEvent := [⟨7, 70, .a⟩, ⟨9, 90, .a⟩, ⟨7, 70, .b⟩, ⟨8, 80, .b⟩]

theorem arbiter_merges_feeds_gap :
    (published ((opened 2 0).run gapFeeds).1).map content = [(7, 70), (8, 80), (9, 90)] ∧
      ∀ d ∈ ((opened 2 0).run gapFeeds).1, ¬d.Stops := by
  have hlast : ∀ p ∈ gapFeeds, p.sequence ≤ 9 := by decide
  have hclose : Close (create 2).maxGap (firstNumber 0 gapFeeds) gapFeeds := by
    intro before e after heq k hk _
    have hle : e.sequence ≤ 9 := hlast e (heq ▸ mem_append_right _ mem_cons_self)
    have hfirst : firstNumber 0 gapFeeds = 7 := rfl
    have hgap : (create 2).maxGap = 2 := rfl
    omega
  have h := arbiter_merges_feeds 2 0 gapFeeds (by decide)
  exact h.2.2.2 [(7, 70), (8, 80), (9, 90)] rfl (fun feed => by cases feed <;> decide) (by decide) hclose

/-- After the last number the arbiter waits for no number at all, and goes on from any other one. -/
theorem last_number_restarts :
    (published ((opened 0 0).run [⟨2 ^ 64 - 1, 0, .a⟩, ⟨5, 0, .a⟩]).1).map (·.sequence) = [2 ^ 64 - 1, 5] := by
  decide

end SelfQuant.Mds.Redundancy
