import SelfQuant.IntrusiveList
import SelfQuant.OmsTableOps

namespace SelfQuant.Oms

open List Probe

namespace OrderTable

variable {t t' : OrderTable} {slot s : Nat} {handle : OrderHandle}
  {slots pre post : List Nat} {r : OrderRecord} {prevOk : Bool} {nextOk : Bool}

def terminalLink (t : OrderTable) (slot : Nat) : TerminalLink := ⟨slot, (t.record slot).generation⟩

def nextOf (t : OrderTable) (slot : Nat) : Nat := (t.record slot).terminalNext

def prevOf (t : OrderTable) (slot : Nat) : Nat := (t.record slot).terminalPrev

/-- The terminal list of a table is `slots`, oldest first. -/
structure TerminalList (t : OrderTable) (slots : List Nat) : Prop where
  nodup : slots.Nodup
  linked : Linked t.nextOf t.prevOf kMissing slots kMissing
  mem : ∀ s, s ∈ slots ↔ s < t.records.length ∧ (t.record s).inTerminal
  finished : ∀ s ∈ slots, (t.record s).occupied ∧ isTerminal (t.record s).status
  head : t.terminalHead = (slots.head?.map t.terminalLink).getD {}
  tail : t.terminalTail = (slots.getLast?.map t.terminalLink).getD {}
  fits : t.records.length ≤ kMissing

theorem TerminalList.lt (h : TerminalList t slots) (hs : s ∈ slots) : s < t.records.length := ((h.mem s).mp hs).1

theorem TerminalList.not_mem (h : TerminalList t slots) (hr : (t.record s).inTerminal = false) : s ∉ slots := by
  intro hs
  simp [((h.mem s).mp hs).2] at hr

theorem TerminalList.missing (h : TerminalList t slots) : kMissing ∉ slots :=
  fun hm => lt_irrefl _ (lt_of_lt_of_le (h.lt hm) h.fits)

theorem TerminalList.empty {n : Nat} (h : create n = some t) : TerminalList t [] := by
  obtain ⟨c, hc, rfl⟩ := Option.map_eq_some_iff.mp h
  have hle : c ≤ kMissing := by
    unfold checkedCapacity at hc
    split at hc
    next => cases hc
    next hn =>
    cases hc
    unfold kMissing
    omega
  refine ⟨nodup_nil, trivial, fun s => ?_, by simp, rfl, rfl, by simpa using hle⟩
  rw [record_replicate rfl]
  simp

section

variable (t slot s) (f : OrderRecord → OrderRecord)

theorem record_modifyRecord : (t.modifyRecord slot f).record s =
      if s = slot ∧ slot < t.records.length then f (t.record slot) else t.record s := by
  unfold modifyRecord
  by_cases hb : slot < t.records.length
  · by_cases hs : s = slot
    · subst hs
      rw [record_setRecord_self hb, if_pos ⟨rfl, hb⟩]
    · rw [record_setRecord_ne (symm hs), if_neg fun h => hs h.1]
  · rw [record_setRecord_of_le (not_lt.mp hb), if_neg fun h => hb h.2]

def withEnds (t : OrderTable) (head tail : TerminalLink) : OrderTable :=
  { t with terminalHead := head, terminalTail := tail }

theorem record_withEnds (head tail : TerminalLink) : (t.withEnds head tail).record s = t.record s := rfl

@[simp] theorem modifyRecord_length : (t.modifyRecord slot f).records.length = t.records.length := setRecord_length _ _ _

@[simp] theorem modifyRecord_head : (t.modifyRecord slot f).terminalHead = t.terminalHead := rfl

@[simp] theorem modifyRecord_tail : (t.modifyRecord slot f).terminalTail = t.terminalTail := rfl

def modifyIf (c : Bool) (t : OrderTable) (slot : Nat) (f : OrderRecord → OrderRecord) : OrderTable :=
  if c then t.modifyRecord slot f else t

theorem record_modifyIf (c : Bool) : (modifyIf c t slot f).record s =
      if c ∧ s = slot ∧ slot < t.records.length then f (t.record slot) else t.record s := by
  cases c with
  | false => simp [modifyIf]
  | true => simpa [modifyIf] using record_modifyRecord t slot s f

theorem modifyIf_length (c : Bool) : (modifyIf c t slot f).records.length = t.records.length := by
  cases c <;> simp [modifyIf]

end

theorem record_setRecord (hb : slot < t.records.length) (r : OrderRecord) (s : Nat) :
    (t.setRecord slot r).record s = if s = slot then r else t.record s := by
  split
  next hs => subst hs; exact record_setRecord_self hb r
  next hs => exact record_setRecord_ne (symm hs)

structure Marked (t : OrderTable) (slot : Nat) (slots : List Nat) (t' : OrderTable) : Prop where
  record : ∀ s, t'.record s = if s = slot then
      { t.record slot with inTerminal := true, terminalNext := kMissing
                           terminalPrev := slots.getLastD kMissing }
    else if slots.getLast? = some s then { t.record s with terminalNext := slot }
    else t.record s
  length : t'.records.length = t.records.length
  head : t'.terminalHead = if slots = [] then t.terminalLink slot else t.terminalHead
  tail : t'.terminalTail = t.terminalLink slot

theorem Marked.generation (h : Marked t slot slots t') (s : Nat) :
    (t'.record s).generation = (t.record s).generation := by
  rw [h.record]
  split
  next hs => rw [hs]
  next => split <;> rfl

/-- What `unlinkTerminal` wrote, the list being `pre ++ slot :: post` before. -/
structure Unlinked (t : OrderTable) (slot : Nat) (pre post : List Nat) (t' : OrderTable) : Prop where
  record : ∀ s, t'.record s = if s = slot then
      { t.record slot with inTerminal := false, terminalPrev := kMissing, terminalNext := kMissing }
    else { t.record s with
      terminalNext := if pre.getLast? = some s then post.headD kMissing
        else (t.record s).terminalNext
      terminalPrev := if post.head? = some s then pre.getLastD kMissing
        else (t.record s).terminalPrev }
  length : t'.records.length = t.records.length
  head : t'.terminalHead = if pre = [] then (post.head?.map t.terminalLink).getD {} else t.terminalHead
  tail : t'.terminalTail = if post = [] then (pre.getLast?.map t.terminalLink).getD {}
    else t.terminalTail

theorem getLast?_around (front : List Nat) (last : Nat) : (pre ++ slot :: (front ++ [last])).getLast? = some last := by
  rw [← cons_append, ← append_assoc]
  exact getLast?_concat

theorem Unlinked.generation (h : Unlinked t slot pre post t') : (t'.record s).generation = (t.record s).generation := by
  rw [h.record]
  split
  next hs => rw [hs]
  next => rfl

section

variable (h : TerminalList t slots)

include h

theorem TerminalList.congr (hlen : t'.records.length = t.records.length)
    (hin : ∀ s, (t'.record s).inTerminal = (t.record s).inTerminal)
    (hn : ∀ s ∈ slots, (t'.record s).terminalNext = (t.record s).terminalNext)
    (hp : ∀ s ∈ slots, (t'.record s).terminalPrev = (t.record s).terminalPrev)
    (hg : ∀ s ∈ slots, (t'.record s).generation = (t.record s).generation)
    (hf : ∀ s ∈ slots, (t'.record s).occupied ∧ isTerminal (t'.record s).status)
    (hhe : t'.terminalHead = t.terminalHead) (hta : t'.terminalTail = t.terminalTail) :
    TerminalList t' slots := by
  have hlk : ∀ s ∈ slots, t'.terminalLink s = t.terminalLink s := by
    intro s hs
    unfold terminalLink
    rw [hg s hs]
  refine ⟨h.nodup, h.linked.congr h.nodup hn hp, fun s => ?_, hf, ?_, ?_, ?_⟩
  · rw [h.mem, hlen, hin]
  · rw [hhe, h.head]
    cases hs : slots.head? with
    | none => rfl
    | some s => simp [hlk s (mem_of_head? hs)]
  · rw [hta, h.tail]
    cases hs : slots.getLast? with
    | none => rfl
    | some s => simp [hlk s (mem_of_getLast? hs)]
  · rw [hlen]
    exact h.fits

theorem TerminalList.setRecord (hb : slot < t.records.length)
    (hin : r.inTerminal = (t.record slot).inTerminal) (hn : r.terminalNext = (t.record slot).terminalNext)
    (hp : r.terminalPrev = (t.record slot).terminalPrev) (hg : r.generation = (t.record slot).generation)
    (hf : slot ∈ slots → r.occupied ∧ isTerminal r.status) : TerminalList (t.setRecord slot r) slots := by
  have hrec := record_setRecord hb r
  refine h.congr (setRecord_length _ _ _) (fun s => ?_) (fun s _ => ?_) (fun s _ => ?_)
    (fun s _ => ?_) (fun s hs => ?_) rfl rfl
  · rw [hrec]
    split
    next he => rw [he, hin]
    next => rfl
  · rw [hrec]
    split
    next he => rw [he, hn]
    next => rfl
  · rw [hrec]
    split
    next he => rw [he, hp]
    next => rfl
  · rw [hrec]
    split
    next he => rw [he, hg]
    next => rfl
  · rw [hrec]
    split
    next he => subst he; exact hf hs
    next => exact h.finished s hs

theorem markTerminal_marked (hl : t.lookup handle = some slot)
    (ht : isTerminal (t.record slot).status) (hn : (t.record slot).inTerminal = false) :
    ∃ t', t.markTerminal handle = (.ok, t') ∧ Marked t slot slots t' := by
  obtain ⟨he, _, hb, _⟩ := lookup_eq_some hl
  subst he
  unfold markTerminal
  rw [hl]
  simp only [ht, hn, Bool.not_true, Bool.false_eq_true, if_false]
  rcases eq_nil_or_concat' slots with rfl | ⟨front, last, rfl⟩
  · have hta : t.terminalTail = {} := h.tail
    have hge : ¬(t.terminalTail.slot < t.records.length) := by
      rw [hta]
      exact Nat.not_lt.mpr h.fits
    simp only [modifyRecord_length, modifyRecord_tail, if_neg hge]
    refine ⟨_, rfl, fun s => ?_, by simp [modifyRecord, setRecord], (if_pos rfl).symm, rfl⟩
    change ((modifyRecord _ slot _).withEnds _ _).record s = _
    rw [record_withEnds]
    by_cases hs : s = slot
    · subst hs
      simp [record_modifyRecord, hb]
    · simp [record_modifyRecord, hs]
  · have hla : last ∈ front ++ [last] := by simp
    have hne : last ≠ slot := by
      rintro rfl
      exact h.not_mem hn hla
    obtain ⟨hlb, hlin⟩ := (h.mem last).mp hla
    have hlocc := (h.finished last hla).1
    have hta : t.terminalTail = t.terminalLink last := by
      rw [h.tail]
      simp
    have hhe : ¬(t.records.length ≤ t.terminalHead.slot) := by
      obtain ⟨first, rest, hfst⟩ := exists_cons_of_ne_nil (ne_nil_of_mem hla)
      rw [h.head, hfst]
      exact Nat.not_le.mpr (h.lt (s := first) (by rw [hfst]; simp))
    have htslot : t.terminalTail.slot = last := by rw [hta]; rfl
    have htgen : t.terminalTail.generation = (t.record last).generation := by rw [hta]; rfl
    have hpv : (t.modifyRecord slot fun r =>
        { r with terminalPrev := kMissing, terminalNext := kMissing }).record last = t.record last := by
      rw [record_modifyRecord, if_neg fun h => hne h.1]
    simp only [modifyRecord_length, modifyRecord_tail, modifyRecord_head, htslot, htgen, hlb, if_true,
      hpv, hlin, hlocc, hhe, if_false, Bool.not_true, Bool.or_self, ne_eq, not_true_eq_false,
      decide_false, Bool.false_eq_true]
    refine ⟨_, rfl, fun s => ?_, by simp [modifyRecord, setRecord], (if_neg (by simp)).symm, rfl⟩
    change ((modifyRecord _ slot _).withEnds _ _).record s = _
    rw [record_withEnds]
    by_cases hs : s = slot
    · subst hs
      simp [record_modifyRecord, hb, Ne.symm hne]
    · by_cases hsl : s = last
      · subst hsl
        simp [record_modifyRecord, hb, hs, hlb]
      · simp [record_modifyRecord, hs, hsl, Ne.symm hsl]

theorem TerminalList.marked (hm : Marked t slot slots t')
    (hb : slot < t.records.length) (hocc : (t.record slot).occupied) (ht : isTerminal (t.record slot).status)
    (hn : (t.record slot).inTerminal = false) : TerminalList t' (slots ++ [slot]) := by
  have hsl := h.not_mem hn
  have hne : ∀ s ∈ slots, s ≠ slot := fun s hs he => hsl (he ▸ hs)
  have hlk : t'.terminalLink = t.terminalLink := by
    funext s
    unfold terminalLink
    rw [hm.generation]
  refine ⟨?_, h.linked.push h.nodup (fun s hs => ?_) (fun s hs => ?_) ?_ ?_, fun s => ?_,
    fun s hs => ?_, ?_, ?_, by rw [hm.length]; exact h.fits⟩
  · rw [nodup_append]
    exact ⟨h.nodup, by simp, fun s hs s' hs' => by simp only [mem_singleton] at hs'; rw [hs']; exact hne s hs⟩
  · unfold nextOf
    rw [hm.record, if_neg (hne s hs)]
    split <;> rfl
  · unfold prevOf
    rw [hm.record, if_neg (hne s hs)]
    split <;> rfl
  · unfold nextOf
    rw [hm.record, if_pos rfl]
  · unfold prevOf
    rw [hm.record, if_pos rfl]
  · rw [mem_append, h.mem, hm.length, hm.record]
    by_cases hs : s = slot
    · subst hs
      simp [hb]
    · rw [if_neg hs]
      split <;> simp [hs]
  · rw [hm.record]
    by_cases he : s = slot
    · rw [if_pos he]
      exact ⟨hocc, ht⟩
    · have hs' : s ∈ slots := by simpa [he] using hs
      rw [if_neg he]
      split <;> exact h.finished s hs'
  · rw [hm.head, hlk]
    cases slots with
    | nil => rfl
    | cons first rest => rw [h.head]; rfl
  · rw [hm.tail, hlk]
    simp

end

section

variable (h : TerminalList t (pre ++ slot :: post))

include h

theorem TerminalList.neighbours :
    (t.record slot).terminalPrev = pre.getLastD kMissing ∧
      (t.record slot).terminalNext = post.headD kMissing ∧
      (∀ s, pre.getLast? = some s → (t.record s).terminalNext = slot) ∧
      (∀ s, post.head? = some s → (t.record s).terminalPrev = slot) := by
  obtain ⟨hpre, hp, hn, hpost⟩ := linked_append.mp h.linked
  refine ⟨hp, hn, fun s hs => ?_, fun s hs => ?_⟩
  · obtain ⟨front, rfl⟩ := getLast?_eq_some_iff.mp hs
    exact (linked_append.mp hpre).2.2.1
  · obtain ⟨rest, rfl⟩ := head?_eq_some_iff.mp hs
    exact hpost.1

theorem TerminalList.ends :
    ((t.terminalHead.slot = slot ∧ t.terminalHead.generation = (t.record slot).generation) ↔ pre = []) ∧
      ((t.terminalTail.slot = slot ∧ t.terminalTail.generation = (t.record slot).generation) ↔ post = []) := by
  have hd := h.nodup
  rw [nodup_append] at hd
  constructor
  · rw [h.head]
    cases pre with
    | nil => simp [terminalLink]
    | cons first rest =>
      have hne : first ≠ slot := fun he => hd.2.2 first (by simp) slot (by simp) he
      simp [terminalLink, hne]
  · rw [h.tail]
    rcases eq_nil_or_concat' post with rfl | ⟨front, last, rfl⟩
    · simp [terminalLink]
    · have hne : last ≠ slot := by
        rintro rfl
        have := (nodup_cons.mp hd.2.1).1
        simp at this
      rw [getLast?_around]
      simp [terminalLink, hne]

theorem TerminalList.unlinked (hu : Unlinked t slot pre post t') : TerminalList t' (pre ++ post) := by
  have hd := nodup_append.mp h.nodup
  have hne : ∀ s ∈ pre ++ post, s ≠ slot := by
    rintro s hs rfl
    rcases mem_append.mp hs with hs | hs
    · exact hd.2.2 _ hs _ (by simp) rfl
    · exact (nodup_cons.mp hd.2.1).1 hs
  have hsub : ∀ s ∈ pre ++ post, s ∈ pre ++ slot :: post := by
    intro s hs
    rcases mem_append.mp hs with hs | hs <;> simp [hs]
  have hlk : t'.terminalLink = t.terminalLink := by
    funext s
    unfold terminalLink
    rw [hu.generation]
  refine ⟨h.nodup.sublist (by simp), h.linked.unlink h.nodup (fun s hs => ?_) (fun s hs => ?_),
    fun s => ?_, fun s hs => ?_, ?_, ?_, by rw [hu.length]; exact h.fits⟩
  · unfold nextOf
    rw [hu.record, if_neg (hne s hs)]
  · unfold prevOf
    rw [hu.record, if_neg (hne s hs)]
  · rw [hu.length, hu.record]
    by_cases hs : s = slot
    · rw [if_pos hs]
      simp only [Bool.false_eq_true, and_false, iff_false]
      exact fun hm => hne s hm hs
    · rw [if_neg hs, ← h.mem]
      simp [hs]
  · rw [hu.record, if_neg (hne s hs)]
    exact h.finished s (hsub s hs)
  · rw [hu.head, hlk]
    cases pre with
    | nil => rfl
    | cons first rest => rw [h.head]; rfl
  · rw [hu.tail, hlk]
    rcases eq_nil_or_concat' post with rfl | ⟨front, last, rfl⟩
    · simp
    · rw [if_neg (by simp), h.tail, getLast?_around, ← append_assoc, getLast?_concat]

end

def joinNeighbours (t : OrderTable) (prev next : Nat) (prevOk nextOk : Bool) : OrderTable :=
  modifyIf nextOk (modifyIf prevOk t prev fun p => { p with terminalNext := if nextOk then next else kMissing })
    next fun n => { n with terminalPrev := if prevOk then prev else kMissing }

theorem unlinkTerminal_eq {prev next : Nat} {prevOk nextOk : Bool} (hin : (t.record slot).inTerminal)
    (hpv : (t.record slot).terminalPrev = prev) (hnx : (t.record slot).terminalNext = next)
    (hp : (decide (prev < t.records.length) && (t.record prev).occupied &&
      (t.record prev).inTerminal && decide ((t.record prev).terminalNext = slot)) = prevOk)
    (hn : (decide (next < t.records.length) && (t.record next).occupied &&
      (t.record next).inTerminal && decide ((t.record next).terminalPrev = slot)) = nextOk) :
    t.unlinkTerminal slot = ((t.joinNeighbours prev next prevOk nextOk).withEnds
      (if t.terminalHead.slot = slot ∧ t.terminalHead.generation = (t.record slot).generation then
        if nextOk then t.terminalLink next else {} else t.terminalHead)
      (if t.terminalTail.slot = slot ∧ t.terminalTail.generation = (t.record slot).generation then
        if prevOk then t.terminalLink prev else {} else t.terminalTail)).modifyRecord slot fun r =>
      { r with inTerminal := false, terminalPrev := kMissing, terminalNext := kMissing } := by
  unfold unlinkTerminal
  simp only [hin, hpv, hnx, hp, hn]
  cases prevOk <;> cases nextOk <;> rfl

theorem joinNeighbours_length (prev next : Nat) :
    (t.joinNeighbours prev next prevOk nextOk).records.length = t.records.length := by
  unfold joinNeighbours
  rw [modifyIf_length, modifyIf_length]

theorem record_joinNeighbours (prev next : Nat) :
    (t.joinNeighbours prev next prevOk nextOk).record s = { t.record s with
      terminalNext := if prevOk ∧ s = prev ∧ prev < t.records.length then
        if nextOk then next else kMissing else (t.record s).terminalNext
      terminalPrev := if nextOk ∧ s = next ∧ next < t.records.length then
        if prevOk then prev else kMissing else (t.record s).terminalPrev } := by
  unfold joinNeighbours
  rw [record_modifyIf, modifyIf_length, record_modifyIf, record_modifyIf]
  by_cases hn : nextOk = true ∧ s = next ∧ next < t.records.length
  · rw [if_pos hn, if_pos hn, ← hn.2.1]
    split
    next hp => rw [hp.2.1]
    next => rfl
  · rw [if_neg hn]
    split
    next hp => rw [hp.2.1]
    next => rfl

theorem unlinkTerminal_unlinked (h : TerminalList t (pre ++ slot :: post)) :
    Unlinked t slot pre post (t.unlinkTerminal slot) := by
  have hmem : slot ∈ pre ++ slot :: post := by simp
  obtain ⟨hb, hin⟩ := (h.mem slot).mp hmem
  obtain ⟨hpv, hnx, hbc, hforth⟩ := h.neighbours
  obtain ⟨hhe, hta⟩ := h.ends
  have hmember : ∀ s, s ∈ pre ∨ s ∈ post → s < t.records.length ∧ (t.record s).occupied ∧
      (t.record s).inTerminal ∧ s ≠ slot := by
    intro s hs
    have hs' : s ∈ pre ++ slot :: post := by rcases hs with hs | hs <;> simp [hs]
    refine ⟨((h.mem s).mp hs').1, (h.finished s hs').1, ((h.mem s).mp hs').2, ?_⟩
    rintro rfl
    have hd := nodup_append.mp h.nodup
    rcases hs with hs | hs
    · exact hd.2.2 _ hs _ (by simp) rfl
    · exact (nodup_cons.mp hd.2.1).1 hs
  have hft : ¬(kMissing < t.records.length) := not_lt.mpr h.fits
  -- The tests of the source succeed exactly where the list has a neighbour.
  have hprevOk : (decide (pre.getLastD kMissing < t.records.length) &&
      (t.record (pre.getLastD kMissing)).occupied && (t.record (pre.getLastD kMissing)).inTerminal &&
      decide ((t.record (pre.getLastD kMissing)).terminalNext = slot)) = !pre.isEmpty := by
    rcases eq_nil_or_concat' pre with rfl | ⟨front, p, rfl⟩
    · simp [hft]
    · obtain ⟨h₁, h₂, h₃, _⟩ := hmember p (.inl (by simp))
      simp [h₁, h₂, h₃, hbc p (by simp)]
  have hnextOk : (decide (post.headD kMissing < t.records.length) &&
      (t.record (post.headD kMissing)).occupied && (t.record (post.headD kMissing)).inTerminal &&
      decide ((t.record (post.headD kMissing)).terminalPrev = slot)) = !post.isEmpty := by
    cases post with
    | nil => simp [hft]
    | cons n rest =>
      obtain ⟨h₁, h₂, h₃, _⟩ := hmember n (.inr (by simp))
      simp [h₁, h₂, h₃, hforth n (by simp)]
  have hp : ∀ s, ((!pre.isEmpty) = true ∧ s = pre.getLastD kMissing ∧
      pre.getLastD kMissing < t.records.length) ↔ pre.getLast? = some s := by
    intro s
    rcases eq_nil_or_concat' pre with rfl | ⟨front, p, rfl⟩
    · simp
    · simpa [(hmember p (.inl (by simp))).1] using eq_comm
  have hn : ∀ s, ((!post.isEmpty) = true ∧ s = post.headD kMissing ∧
      post.headD kMissing < t.records.length) ↔ post.head? = some s := by
    intro s
    cases post with
    | nil => simp
    | cons n rest => simpa [(hmember n (.inr (by simp))).1] using eq_comm
  have hpostD : (if (!post.isEmpty) = true then post.headD kMissing else kMissing) =
      post.headD kMissing := by cases post <;> rfl
  have hpreD : (if (!pre.isEmpty) = true then pre.getLastD kMissing else kMissing) =
      pre.getLastD kMissing := by cases pre <;> rfl
  rw [unlinkTerminal_eq hin hpv hnx hprevOk hnextOk]
  refine ⟨fun s => ?_, ?_, ?_, ?_⟩
  · rw [record_modifyRecord, record_withEnds, record_withEnds, record_joinNeighbours, record_joinNeighbours]
    by_cases hs : s = slot
    · rw [if_pos hs, if_pos ⟨hs, lt_of_lt_of_eq hb (joinNeighbours_length _ _).symm⟩]
    · rw [if_neg hs, if_neg fun h => hs h.1]
      simp only [hp, hn, hpostD, hpreD]
  · rw [modifyRecord_length]
    exact joinNeighbours_length _ _
  · simp only [modifyRecord_head, withEnds, hhe]
    cases post <;> rfl
  · simp only [modifyRecord_tail, withEnds, hta]
    rcases eq_nil_or_concat' pre with rfl | ⟨front, p, rfl⟩ <;> simp

end OrderTable

end SelfQuant.Oms
