import SelfQuant.StepAlong
import Mathlib.Data.List.Nodup

namespace SelfQuant.Tradefi

open Function Along

inductive SlotId
  | makerBid | makerAsk | hedge | unwind
  deriving DecidableEq

inductive SlotState
  | empty | reserved | submitted | acked | partiallyFilled | cancelPending | uncertain | terminal
  deriving DecidableEq

structure Slot where
  state : SlotState := .empty
  seenFill : Bool := false

/-- A leg is named by whether it is the maker's. -/
structure Recovery where
  slots : SlotId → Slot := fun _ => {}
  makerRejects : Nat := 0
  reconnects : Bool → Nat := fun _ => 0
  quoting : Bool := true
  (makersStopped hedgeRecovery halted circuitOpen : Bool := false)
  stable : Bool → Bool := fun _ => false

namespace Recovery

variable (r : Recovery) (slot : SlotId)

def put (item : Slot) : Recovery := { r with slots := update r.slots slot item }

def move (states : List SlotState) (state : SlotState) (r : Recovery) (slot : SlotId) : Recovery :=
  if (r.slots slot).state ∈ states then r.put slot { r.slots slot with state } else r

theorem makerRejects_move {states : List SlotState} {state : SlotState} {r : Recovery} {slot : SlotId} :
    (move states state r slot).makerRejects = r.makerRejects := by
  unfold move
  split <;> rfl

def ack : Recovery → SlotId → Recovery := move [.submitted] .acked

def cancelAck : Recovery → SlotId → Recovery := move [.cancelPending, .acked, .submitted, .partiallyFilled] .terminal

def timeout : Recovery → SlotId → Recovery := move [.submitted, .acked, .partiallyFilled] .cancelPending

def queryOpen : Recovery → SlotId → Recovery := move [.uncertain] .cancelPending

def fill : Recovery :=
  match (r.slots slot).state with
  | .empty => r
  | .terminal => r.put slot ⟨.terminal, true⟩
  | _ => r.put slot ⟨.partiallyFilled, true⟩

def terminal : Recovery :=
  if (r.slots slot).state = .empty then r else r.put slot { r.slots slot with state := .terminal }

def queryFilled : Recovery :=
  { r.put slot ⟨.terminal, true⟩ with hedgeRecovery := r.hedgeRecovery || slot = .makerBid || slot = .makerAsk }

def queryAbsent : Recovery := if (r.slots slot).seenFill then r else r.put slot {}

def makerReject : Recovery :=
  let r := { r with makerRejects := r.makerRejects + 1 }
  if 3 ≤ r.makerRejects then { r with quoting := false, makersStopped := true } else r

def beginHedge : Recovery := { r with makersStopped := true, quoting := false, hedgeRecovery := true }

def completeHedge : Recovery :=
  if r.halted then r
  else if r.makerRejects < 3 ∧ r.circuitOpen = false then
    { r with hedgeRecovery := false, makersStopped := false, quoting := true }
  else { r with hedgeRecovery := false }

def halt : Recovery := { r with halted := true, quoting := false, makersStopped := true }

def makerVenueDown : Recovery :=
  [.makerBid, .makerAsk, .unwind].foldl
    (move [.reserved, .submitted, .acked, .partiallyFilled, .cancelPending] .uncertain) { r with quoting := false }

def hedgeVenueDown : Recovery :=
  move [.reserved, .submitted, .acked, .partiallyFilled, .cancelPending] .uncertain
    ([.makerBid, .makerAsk].foldl timeout { r with quoting := false, makersStopped := true }) .hedge

def noteReconnect (leg : Bool) : Recovery :=
  { r with
    reconnects := update r.reconnects leg (r.reconnects leg + 1)
    stable := update r.stable leg false, quoting := false
    circuitOpen := r.circuitOpen || 3 ≤ r.reconnects leg + 1 }

def noteStable (leg : Bool) : Recovery :=
  { r with stable := update r.stable leg true, reconnects := update r.reconnects leg 0 }

def canResumeQuotes (barrier : Bool) : Bool :=
  !(r.halted || r.circuitOpen || r.makersStopped || r.hedgeRecovery) && r.stable true && r.stable false && barrier &&
  [.makerBid, .makerAsk, .hedge, .unwind].all fun slot =>
    (r.slots slot).state ∉ [.uncertain, .reserved, .submitted, .cancelPending]

def Free : Prop := (r.slots slot).state ∈ [.empty, .terminal]

instance (r : Recovery) (slot : SlotId) : Decidable (r.Free slot) := inferInstanceAs (Decidable (_ ∈ _))

/-- A reservation and, unless in shadow mode, the order placed under it. -/
def submit (shadow : Bool) (slot : SlotId) : Option Recovery :=
  if r.Free slot ∧ r.halted = false ∧ (slot = .hedge ∨ slot = .unwind ∨
      r.makersStopped = false ∧ r.quoting = true ∧ r.circuitOpen = false) then
    some (r.put slot (if shadow then {} else ⟨.submitted, false⟩))
  else none

end Recovery

/-- The sides of a quote, each with whether its price meets the other side of the maker's book. -/
structure Quote where
  (bid ask : Option Bool)

structure MakerConfig where
  (shadow single hyperliquid : Bool)

namespace MakerConfig

def sides (c : MakerConfig) (quote : Quote) : List (SlotId × Bool) :=
  let bid := quote.bid.map (SlotId.makerBid, ·)
  let ask := quote.ask.map (SlotId.makerAsk, ·)
  if c.single then (if c.hyperliquid then ask.or bid else bid.or ask).toList else bid.toList ++ ask.toList

def place (c : MakerConfig) (r : Recovery) (side : SlotId × Bool) : Recovery :=
  if c.hyperliquid = false ∧ side.2 then r else (r.submit c.shadow side.1).getD r.makerReject

end MakerConfig

/-- What the strategy does to the recovery state, while no maker order is rejected. -/
inductive RecoveryCall
  /-- With the guards outside of the state, the barrier and what the engine quotes. -/
  | maybeQuote (ready barrier : Bool) (quote : Quote)
  | submit (unwind : Bool)
  | ack (slot : SlotId) | fill (slot : SlotId) | terminal (slot : SlotId) | cancelAck (slot : SlotId)
  | timeout (slot : SlotId) | queryOpen (slot : SlotId) | queryFilled (slot : SlotId) | queryAbsent (slot : SlotId)
  | beginHedge | completeHedge | halt | makerVenueDown | hedgeVenueDown
  | noteReconnect (leg : Bool) | noteStable (leg : Bool)

namespace MakerConfig

def step (c : MakerConfig) (r : Recovery) : RecoveryCall → Recovery
  | .maybeQuote ready barrier quote =>
    if ready ∧ r.canResumeQuotes barrier then (c.sides quote).foldl c.place r else r
  | .submit unwind => (r.submit c.shadow (if unwind then .unwind else .hedge)).getD r
  | .ack slot => r.ack slot
  | .fill slot => r.fill slot
  | .terminal slot => r.terminal slot
  | .cancelAck slot => r.cancelAck slot
  | .timeout slot => r.timeout slot
  | .queryOpen slot => r.queryOpen slot
  | .queryFilled slot => r.queryFilled slot
  | .queryAbsent slot => r.queryAbsent slot
  | .beginHedge => r.beginHedge
  | .completeHedge => r.completeHedge
  | .halt => r.halt
  | .makerVenueDown => r.makerVenueDown
  | .hedgeVenueDown => r.hedgeVenueDown
  | .noteReconnect leg => r.noteReconnect leg
  | .noteStable leg => r.noteStable leg

/-- An order of a quote that is to be placed finds quoting allowed and its slot free. -/
def Unblocked (c : MakerConfig) (r : Recovery) : RecoveryCall → Prop
  | .maybeQuote ready barrier quote => ready ∧ r.canResumeQuotes barrier →
    ∀ side ∈ c.sides quote, ¬(c.hyperliquid = false ∧ side.2) → r.Free side.1 ∧ r.quoting
  | _ => True

open Recovery

variable {c : MakerConfig} {r : Recovery} {sides : List (SlotId × Bool)} {call : RecoveryCall}

theorem le_place (r : Recovery) (side : SlotId × Bool) : r.makerRejects ≤ (c.place r side).makerRejects := by
  simp only [place, submit, makerReject]
  split_ifs <;> simp [put]

theorem foldl_place_iff (hop : r.halted = false ∧ r.makersStopped = false ∧ r.circuitOpen = false)
    (hmk : ∀ side ∈ sides, side.1 ≠ .hedge ∧ side.1 ≠ .unwind) (hnd : (sides.map Prod.fst).Nodup) :
    (sides.foldl c.place r).makerRejects = r.makerRejects ↔
      ∀ side ∈ sides, ¬(c.hyperliquid = false ∧ side.2) → r.Free side.1 ∧ r.quoting := by
  rw [count_eq_iff le_place]
  induction sides generalizing r with
  | nil => exact iff_of_true trivial nofun
  | cons side sides ih =>
    obtain ⟨hsf, hmk⟩ := List.forall_mem_cons.mp hmk
    obtain ⟨hnew, hnd⟩ := List.nodup_cons.mp hnd
    rw [cons, List.forall_mem_cons, place]
    by_cases hcrs : c.hyperliquid = false ∧ side.2
    · rw [if_pos hcrs, and_iff_right rfl, and_iff_right fun h => absurd hcrs h]
      exact ih hop hmk hnd
    rw [if_neg hcrs, forall_prop_of_true hcrs]
    simp only [submit, hop, hsf, false_or, true_and, and_true]
    by_cases hfe : r.Free side.1 ∧ r.quoting
    · rw [if_pos hfe, and_iff_right hfe]
      refine (and_iff_right rfl).trans ((ih (r := r.put _ _) hop hmk hnd).trans ?_)
      refine forall₂_congr fun other hoth => ?_
      -- the slot of another side is left as it was
      have hne : other.1 ≠ side.1 := fun he => hnew (he ▸ List.mem_map_of_mem hoth)
      simp only [put, Free, update_of_ne hne]
    · rw [if_neg hfe]
      refine iff_of_false (fun h => ?_) fun h => hfe h.1
      simp [makerReject, apply_ite makerRejects] at h

theorem step_iff : (c.step r call).makerRejects = r.makerRejects ↔ c.Unblocked r call := by
  cases call with
  | maybeQuote ready barrier quote =>
    rw [step, Unblocked]
    split
    next hquo =>
      rw [forall_prop_of_true hquo]
      have hresume := hquo.2
      simp only [canResumeQuotes, Bool.and_eq_true, Bool.not_eq_true', Bool.or_eq_false_iff] at hresume
      obtain ⟨⟨⟨⟨⟨⟨⟨hhalted, hcircuit⟩, hstp⟩, -⟩, -⟩, -⟩, -⟩, -⟩ := hresume
      have hsds : (∀ side ∈ c.sides quote, side.1 ≠ .hedge ∧ side.1 ≠ .unwind) ∧
          ((c.sides quote).map Prod.fst).Nodup := by
        obtain ⟨shadow, _ | _, _ | _⟩ := c <;> obtain ⟨_ | _, _ | _⟩ := quote <;> simp [sides]
      exact foldl_place_iff ⟨hhalted, hstp, hcircuit⟩ hsds.1 hsds.2
    next hquo => exact iff_of_true rfl fun hrdy => absurd hrdy hquo
  | _ =>
    refine iff_of_true ?_ trivial
    simp only [step, submit, Recovery.ack, fill, terminal, cancelAck, timeout, queryOpen, queryFilled, queryAbsent, beginHedge,
      completeHedge, halt, makerVenueDown, hedgeVenueDown, noteReconnect, noteStable, List.foldl, makerRejects_move]
    repeat' split
    all_goals rfl

theorem le_step (r : Recovery) (call : RecoveryCall) : r.makerRejects ≤ (c.step r call).makerRejects := by
  cases call with
  | maybeQuote ready barrier quote =>
    rw [step]
    split
    next => exact count_le le_place
    next => exact Nat.le_refl _
  | _ => exact Nat.le_of_eq (symm (step_iff.mpr (by exact trivial)))

/-- No reject is counted in a run exactly if each order that is placed finds its slot free and quoting allowed. -/
theorem makerRejects_eq_zero_iff (c : MakerConfig) (calls : List RecoveryCall) :
    (calls.foldl c.step {}).makerRejects = 0 ↔ Along c.step c.Unblocked {} calls := by
  refine (count_eq_iff le_step).trans ?_
  exact congr (fun _ => True) trivial (fun r call _ => step_iff) fun _ _ _ _ => trivial

/-- A quote rests, and the next three updates of the book count as rejects. -/
theorem resting_quote_rejected :
    let quote := RecoveryCall.maybeQuote true true ⟨some false, none⟩
    let r := [.noteStable true, .noteStable false, quote, .ack .makerBid, quote, quote, quote].foldl
      (step ⟨false, false, true⟩) {}
    r.makerRejects = 3 ∧ r.makersStopped = true := by decide

/-- What shuts a slot: a halt, and for the makers an open circuit or their rejects. -/
def Shut (r : Recovery) (slot : SlotId) : Prop :=
  r.halted ∨ (slot = .makerBid ∨ slot = .makerAsk) ∧ (r.circuitOpen ∨ 3 ≤ r.makerRejects ∧ r.makersStopped)

variable {slot : SlotId}

theorem shut_move {states : List SlotState} {state : SlotState} {other : SlotId} :
    Shut (move states state r other) slot ↔ Shut r slot := by
  unfold move
  split <;> exact Iff.rfl

theorem Shut.stop (h : Shut r slot) : Shut { r with quoting := false, makersStopped := true } slot :=
  h.imp_right (And.imp_right (Or.imp_right (And.imp_right fun _ => rfl)))

theorem Shut.makerReject (h : Shut r slot) : Shut r.makerReject slot := by
  have hcounted : Shut { r with makerRejects := r.makerRejects + 1 } slot :=
    h.imp_right (And.imp_right (Or.imp_right (And.imp_left Nat.le_succ_of_le)))
  unfold Recovery.makerReject
  dsimp only
  split
  next => exact hcounted.stop
  next => exact hcounted

theorem Shut.completeHedge (h : Shut r slot) : Shut r.completeHedge slot := by
  unfold Recovery.completeHedge
  split
  next => exact h
  next hrun =>
  split
  next hopen =>
    -- neither the halt nor what stops the makers is there
    obtain hhalted | ⟨_, hcircuit | ⟨hrejects, _⟩⟩ := h
    · exact absurd hhalted hrun
    · exact absurd (hopen.2.symm.trans hcircuit) Bool.false_ne_true
    · exact absurd hopen.1 (Nat.not_lt.mpr hrejects)
  next => exact h

theorem Shut.step (h : Shut r slot) : Shut (c.step r call) slot := by
  cases call with
  | maybeQuote ready barrier quote =>
    rw [MakerConfig.step]
    split
    next hquote =>
      have hresume := hquote.2
      simp only [canResumeQuotes, Bool.and_eq_true, Bool.not_eq_true', Bool.or_eq_false_iff] at hresume
      obtain ⟨⟨⟨⟨⟨⟨⟨hhalted, hcircuit⟩, hstopped⟩, -⟩, -⟩, -⟩, -⟩, -⟩ := hresume
      simp [Shut, hhalted, hcircuit, hstopped] at h
    next => exact h
  | submit unwind =>
    simp only [MakerConfig.step, Recovery.submit]
    split_ifs <;> exact h
  | ack other | cancelAck other | timeout other | queryOpen other => exact shut_move.mpr h
  | fill other =>
    simp only [MakerConfig.step, Recovery.fill]
    split <;> exact h
  | terminal other =>
    simp only [MakerConfig.step, Recovery.terminal]
    split <;> exact h
  | queryFilled other => exact h
  | queryAbsent other =>
    simp only [MakerConfig.step, Recovery.queryAbsent]
    split <;> exact h
  | beginHedge => exact h.stop
  | completeHedge => exact h.completeHedge
  | halt => exact .inl rfl
  | makerVenueDown =>
    simp only [MakerConfig.step, makerVenueDown, List.foldl, shut_move]
    exact h
  | hedgeVenueDown =>
    simp only [MakerConfig.step, hedgeVenueDown, List.foldl, timeout, shut_move]
    exact h.stop
  | noteReconnect leg =>
    exact h.imp_right (And.imp_right (Or.imp_left fun hcircuit => Bool.or_eq_true_iff.mpr (.inl hcircuit)))
  | noteStable leg => exact h

/-- Whatever the strategy calls and the venue rejects, a slot that is shut takes no order any more. -/
theorem shut_for_good (c : MakerConfig) (calls : List (Option RecoveryCall)) (h : Shut r slot) :
    (calls.foldl (fun r call => call.elim r.makerReject (c.step r)) r).submit c.shadow slot = none := by
  induction calls generalizing r with
  | nil => exact if_neg (by grind [Shut])
  | cons call calls ih =>
    refine ih ?_
    cases call with
    | none => exact h.makerReject
    | some call => exact h.step

/-- After three rejects the hedge is complete, both venues are stable and the slot is empty, but it stays shut. -/
theorem shut_for_good_rejected :
    let calls := [some .completeHedge, some (.noteStable true), some (.noteStable false), some (.queryAbsent .makerBid),
      some (.maybeQuote true true ⟨some false, none⟩)]
    (calls.foldl (fun r call => call.elim r.makerReject (step ⟨false, false, false⟩ r))
      (makerReject (makerReject (makerReject {})))).submit false .makerBid = none :=
  shut_for_good ⟨false, false, false⟩ _ (.inr ⟨.inl rfl, .inr ⟨by decide, rfl⟩⟩)

end MakerConfig

end SelfQuant.Tradefi
