import Mathlib.Data.Nat.Basic

namespace SelfQuant.Frame

inductive BboOrigin
  | unknown | tickerStream | orderBookStream
  deriving DecidableEq

inductive BboPolicy
  | legacyPassthrough | tickerOnly | orderBookOnly | newestExchangeTime
  deriving DecidableEq

structure BboRecord (V : Type) where
  origin : BboOrigin
  (bookGeneration sourceSeq exchangeTsNs : Nat)
  value : V
  /-- What `validate_book_top` answers for it. -/
  topValid : Bool := true

/-- What the next records are compared with; a source is the last record that its origin had accepted. -/
structure BboArbitrationState (V : Type) where
  origins : BboOrigin → Option (BboRecord V) := fun _ => none
  selected : Option (BboRecord V) := none
  (lastExchangeTsNs generation : Nat := 0)

def BboPolicy.accepts : BboPolicy → BboOrigin → Bool
  | .tickerOnly, origin => origin = .tickerStream
  | .orderBookOnly, origin => origin = .orderBookStream
  | .newestExchangeTime, origin => origin ≠ .unknown
  | .legacyPassthrough, _ => true

variable {V : Type} [DecidableEq V]

namespace BboArbitrationState

variable (policy : BboPolicy) (s : BboArbitrationState V) (r : BboRecord V)

/-- A replay, an older sequence, another value for a sequence or an older time. -/
def dropped : Bool :=
  ((s.origins r.origin).any fun source =>
    (source.sourceSeq = r.sourceSeq ∧ source.exchangeTsNs = r.exchangeTsNs ∧ source.value = r.value) ∨
    (r.sourceSeq ≠ 0 ∧ source.sourceSeq ≠ 0 ∧ r.sourceSeq < source.sourceSeq) ∨
    (r.sourceSeq ≠ 0 ∧ r.sourceSeq = source.sourceSeq ∧ source.value ≠ r.value)) ||
  (r.exchangeTsNs ≠ 0 ∧ s.lastExchangeTsNs ≠ 0 ∧ r.exchangeTsNs < s.lastExchangeTsNs)

/-- The other origin has said the same, or it wins the tie. -/
def outdone : Bool :=
  s.selected.any fun selected => selected.origin ≠ r.origin ∧
    ((r.exchangeTsNs = selected.exchangeTsNs ∧ r.value = selected.value) ∨
     (policy = .newestExchangeTime ∧ (r.exchangeTsNs = selected.exchangeTsNs ∨ r.exchangeTsNs = 0) ∧
      r.origin ≠ .tickerStream))

def accept : BboArbitrationState V × Bool :=
  let s := { s with
    origins := fun origin => if origin = r.origin then some r else s.origins origin
    lastExchangeTsNs := max s.lastExchangeTsNs r.exchangeTsNs }
  if s.outdone policy r then (s, false) else ({ s with selected := some r }, true)

def arbitrateBbo : BboArbitrationState V × Bool :=
  let untrue := r.origin = .orderBookStream ∧ r.topValid = false
  if policy.accepts r.origin = false then (s, false)
  else if policy = .legacyPassthrough then (s, !untrue)
  else if s.generation ≠ 0 ∧ r.bookGeneration < s.generation then (s, false)
  else
    let s := if s.generation < r.bookGeneration then { generation := r.bookGeneration } else s
    if untrue ∨ s.dropped r then (s, false) else s.accept policy r

def emitted (policy : BboPolicy) : BboArbitrationState V → List (BboRecord V) → List (BboRecord V)
  | _, [] => []
  | s, r :: rest =>
    let next := emitted policy (s.arbitrateBbo policy r).1 rest
    if (s.arbitrateBbo policy r).2 then r :: next else next

end BboArbitrationState

/-- Within a generation an origin that has numbered a record numbers all that follow. -/
def Numbered (a b : BboRecord V) : Prop :=
  a.origin = b.origin → a.bookGeneration = b.bookGeneration → a.sourceSeq ≠ 0 → b.sourceSeq ≠ 0

def InTime (a b : BboRecord V) : Prop :=
  a.bookGeneration ≤ b.bookGeneration ∧ (a.bookGeneration = b.bookGeneration → a.exchangeTsNs ≠ 0 → b.exchangeTsNs ≠ 0 →
    a.exchangeTsNs ≤ b.exchangeTsNs)

def InSequence (a b : BboRecord V) : Prop :=
  a.bookGeneration = b.bookGeneration → a.origin = b.origin → a.sourceSeq ≠ 0 → b.sourceSeq ≠ 0 → a.sourceSeq ≤ b.sourceSeq

namespace BboArbitrationState

variable {policy : BboPolicy} {s s' : BboArbitrationState V} {r source : BboRecord V} {records : List (BboRecord V)}
  {out : Bool} (hpolicy : policy ≠ .legacyPassthrough)

theorem accept_marks : (s.accept policy r).1.generation = s.generation ∧
    s.lastExchangeTsNs ≤ (s.accept policy r).1.lastExchangeTsNs ∧
    r.exchangeTsNs ≤ (s.accept policy r).1.lastExchangeTsNs ∧
    ∀ origin, (s.accept policy r).1.origins origin = if origin = r.origin then some r else s.origins origin := by
  unfold accept
  dsimp only
  split <;> exact ⟨rfl, le_max_left _ _, le_max_right _ _, fun _ => rfl⟩

include hpolicy

theorem arbitrate_cases (h : s.arbitrateBbo policy r = (s', out)) :
    out = false ∧ (s' = s ∨ s.generation < s'.generation) ∨
    s'.generation = r.bookGeneration ∧ r.exchangeTsNs ≤ s'.lastExchangeTsNs ∧ s'.origins r.origin = some r ∧
      (s.generation < r.bookGeneration ∨ s.generation = r.bookGeneration ∧ s.dropped r = false ∧
        s.lastExchangeTsNs ≤ s'.lastExchangeTsNs ∧ ∀ origin ≠ r.origin, s'.origins origin = s.origins origin) := by
  unfold arbitrateBbo at h
  dsimp only at h
  rw [if_neg hpolicy] at h
  split at h
  next => grind
  split at h
  next => grind
  rcases lt_or_ge s.generation r.bookGeneration with hlt | hge
  · rw [if_pos hlt] at h
    grind [accept_marks]
  · rw [if_neg (not_lt.mpr hge)] at h
    split at h
    next => grind
    obtain ⟨hgen, hla, hti, horigins⟩ := h ▸ @accept_marks _ _ policy s r
    grind

theorem emitted_inTime : ∀ e ∈ emitted policy s records, s.generation ≤ e.bookGeneration ∧
    (e.bookGeneration = s.generation → e.exchangeTsNs ≠ 0 → s.lastExchangeTsNs ≤ e.exchangeTsNs) := by
  induction records generalizing s with
  | nil => simp [emitted]
  | cons r rest ih =>
    intro e he
    rw [emitted] at he
    generalize hst : s.arbitrateBbo policy r = step at he
    have hcases := arbitrate_cases hpolicy hst
    grind [dropped]

theorem emitted_inSequence (hnum : records.Pairwise Numbered) (hs : s.origins source.origin = some source)
    (hgen : source.bookGeneration = s.generation) (hke : ∀ b ∈ records, Numbered source b) :
    ∀ e ∈ emitted policy s records, InSequence source e := by
  induction records generalizing s source with
  | nil => simp [emitted]
  | cons r rest ih =>
    rw [List.pairwise_cons] at hnum
    rw [List.forall_mem_cons] at hke
    intro e he hsm ho hseq heseq
    rw [emitted] at he
    generalize hst : s.arbitrateBbo policy r = step at he
    have hlater := @emitted_inTime _ _ _ step.1 rest hpolicy e
    rcases arbitrate_cases hpolicy hst with ⟨hout, hstay | hnew⟩ | ⟨hrgen, -, hr, hnew | ⟨_, hdrop, -, hoth⟩⟩
    · rw [hout, hstay] at he
      exact ih hnum.2 hs hgen hke.2 e he hsm ho hseq heseq
    · grind
    · grind
    · by_cases hor : r.origin = source.origin
      · have hnz := hke.1 hor.symm (by omega) hseq
        have hle : source.sourceSeq ≤ r.sourceSeq := by
          grind [dropped]
        have hrs := fun hmem => ih hnum.2 hr hrgen.symm hnum.1 e hmem (by omega) (by simp [hor, ho]) hnz heseq
        grind
      · refine ih hnum.2 (by rw [hoth _ (Ne.symm hor), hs]) (by omega) hke.2 e ?_ hsm ho hseq heseq
        grind

end BboArbitrationState

open BboArbitrationState

/-- What is emitted is in the order of generations and, within one, of times; and of the sequences of an origin that
does not leave any out. -/
theorem arbitrated_bbo_monotone (policy : BboPolicy) (hpolicy : policy ≠ .legacyPassthrough)
    (records : List (BboRecord V)) : (emitted policy {} records).Pairwise InTime ∧
      (records.Pairwise Numbered → (emitted policy {} records).Pairwise InSequence) := by
  generalize ({} : BboArbitrationState V) = s
  induction records generalizing s with
  | nil => simp [emitted]
  | cons r rest ih =>
    have hrest := ih (s.arbitrateBbo policy r).1
    rw [emitted]
    generalize hstep : s.arbitrateBbo policy r = step at hrest
    split
    next hout =>
      rcases arbitrate_cases hpolicy hstep with ⟨hnot, -⟩ | ⟨hgen, htime, hsource, -⟩
      · rw [hnot] at hout
        cases hout
      refine ⟨.cons (fun e he => ?_) hrest.1, fun hnum => ?_⟩
      · have hlater := emitted_inTime hpolicy e he
        unfold InTime
        grind
      · rw [List.pairwise_cons] at hnum
        exact .cons (emitted_inSequence hpolicy hnum.2 hsource hgen.symm hnum.1) (hrest.2 hnum.2)
    next => exact ⟨hrest.1, fun hnum => hrest.2 (List.pairwise_cons.mp hnum).2⟩

def tick (sourceSeq : Nat) (value : Nat) : BboRecord Nat := ⟨.tickerStream, 1, sourceSeq, value, value, true⟩

/-- A record without a sequence clears the mark of its origin. -/
theorem unnumbered_tick_clears_mark : emitted .tickerOnly {} [tick 10 1, tick 0 2, tick 5 3] =
    [tick 10 1, tick 0 2, tick 5 3] := rfl

theorem arbitrated_bbo_monotone_tick :
    (emitted .tickerOnly {} [tick 1 1, tick 3 2, tick 2 3]).Pairwise InTime ∧
      (emitted .tickerOnly {} [tick 1 1, tick 3 2, tick 2 3]).Pairwise InSequence := by
  have hmonotone := arbitrated_bbo_monotone .tickerOnly (by decide) [tick 1 1, tick 3 2, tick 2 3]
  exact ⟨hmonotone.1, hmonotone.2 (by simp [tick, Numbered])⟩

end SelfQuant.Frame
