import SelfQuant.StepAlong
import Mathlib.Data.List.Basic

namespace SelfQuant.PolyMm

open List

inductive OrderState
  | idle | pendingOpen | pendingClose | pendingForce | pendingCancel | dust | needsReconcile
  deriving DecidableEq

inductive OrderPurpose
  | opening | closing | forceFlatten

def isActiveOrder (state : OrderState) : Bool := state ≠ .idle ∧ state ≠ .dust

def pendingStateFor : OrderPurpose → OrderState
  | .opening => .pendingOpen
  | .closing => .pendingClose
  | .forceFlatten => .pendingForce

structure Leg where
  instrumentId : Nat
  retired : Bool := false
  state : OrderState := .idle
  purpose : OrderPurpose := .opening
  token : Nat := 0
  sawFill : Bool := false

/-- A fill is complete or not; results tell their errors, a place also whether its error is uncertain. -/
inductive ExecutionUpdate
  | fill (complete : Bool)
  | placeResult (error : Option Bool)
  | cancelResult (error : Bool)
  | otherResult
  | cancelRejected
  | order (terminal : Bool)

namespace Leg

def finishInventory (leg : Leg) (dust : Bool) : Leg :=
  { leg with state := if dust then .dust else .idle, token := 0, sawFill := false }

def restore (leg : Leg) : Leg := { leg with state := pendingStateFor leg.purpose }

/-- `apply_order_event` and `commit_lifecycle`; the position tells whether what is left is `dust`. -/
def applyOrderEvent (leg : Leg) (token : Nat) (dust : Bool) (update : ExecutionUpdate) : Leg :=
  if token = 0 ∨ token ≠ leg.token then leg
  else
    match update with
    | .fill complete => if complete then leg.finishInventory dust else { leg with sawFill := true }
    | .placeResult none | .cancelResult false | .otherResult => leg
    | .placeResult (some uncertain) =>
      if uncertain ∨ leg.sawFill then { leg with state := .needsReconcile } else leg.finishInventory false
    | .cancelResult true => leg.restore
    | .cancelRejected => if leg.state = .pendingCancel ∨ leg.state = .needsReconcile then leg.restore else leg
    | .order terminal => if terminal then leg.finishInventory dust else leg

end Leg

structure Query where
  (token targetToken instrumentId : Nat)
  (snapshotSeen sawOpen : Bool := false)
  deriving DecidableEq

/-- The legs of the window and of the retired slots in use, the open-order query, the sequence of the next order and the
tokens the context has been asked to cancel. -/
structure Strategy where
  legs : List Leg := []
  query : Option Query := none
  next : Nat := 1
  cancels : List Nat := []

/-- What the callbacks of the strategy do with legs, one after the other. Orders are placed if the context takes them,
and a status that is `found` for an uncertain one is terminal. -/
inductive Call
  | submit (index : Nat) (purpose : OrderPurpose) (remembered : Bool)
  | cancelLeg (index : Nat) (accepted : Bool)
  | cancelTimeout (index : Nat)
  | pollUncertain (index : Nat) (found : Option Bool) (submitted : Option Nat)
  | openOrdersSnapshot (token : Nat) (orders : List Nat)
  | queryComplete (token : Nat) (ok : Bool) (accepts : Nat → Bool)
  | orderUpdate (instrumentId token : Nat) (dust : Bool) (update : ExecutionUpdate)
  | goDust (index : Nat)
  | deactivate
  | activate (up down : Nat) (flat : Bool)
  | release (index : Nat)

namespace Strategy

variable (s : Strategy)

def change (index : Nat) (f : Leg → Leg) : Strategy :=
  match s.legs[index]? with
  | none => s
  | some leg => { s with legs := s.legs.set index (f leg) }

/-- `submit_open` and `submit_close`: an order that the ledger cannot remember is cancelled at once. -/
def submit (index : Nat) (purpose : OrderPurpose) (remembered : Bool) : Strategy :=
  match s.legs[index]? with
  | none => s
  | some leg =>
    if leg.retired ∨ leg.state ≠ .idle then s
    else
      { s with
        legs := s.legs.set index { leg with state := pendingStateFor purpose, purpose, token := s.next, sawFill := false }
        next := s.next + 1
        cancels := if remembered then s.cancels else s.cancels ++ [s.next] }

def cancelLeg (index : Nat) (accepted : Bool) : Strategy :=
  match s.legs[index]? with
  | none => s
  | some leg =>
    match leg.state with
    | .idle | .dust | .pendingCancel | .needsReconcile => s
    | .pendingOpen | .pendingClose | .pendingForce =>
      { s with
        legs := if accepted then s.legs.set index { leg with state := .pendingCancel } else s.legs
        cancels := s.cancels ++ [leg.token] }

def pollUncertain (index : Nat) (found : Option Bool) (submitted : Option Nat) : Strategy :=
  match s.legs[index]? with
  | none => s
  | some leg =>
    if leg.state ≠ .needsReconcile then s
    else
      match found with
      | some dust => s.change index fun leg => leg.applyOrderEvent leg.token dust (.order true)
      | none =>
        if s.query.isSome then s
        else { s with query := submitted.map fun token => ⟨token, leg.token, leg.instrumentId, false, false⟩ }

def onOpenOrdersSnapshot (token : Nat) (orders : List Nat) : Strategy :=
  { s with query := s.query.map fun query => if query.token = token then
      { query with snapshotSeen := true, sawOpen := query.targetToken ∈ orders } else query }

def leg (instrumentId : Nat) : Option Nat := s.legs.findIdx? fun leg => !leg.retired ∧ leg.instrumentId = instrumentId

def cancelMatch (accepts : Nat → Bool) (target : Nat) (s : Strategy) (index : Nat) : Strategy :=
  match s.legs[index]? with
  | none => s
  | some leg => if leg.token = target ∧ leg.token ≠ 0 then s.cancelLeg index (accepts leg.token) else s

def matching (instrumentId : Nat) : List Nat :=
  (s.leg instrumentId).toList ++ s.legs.findIdxs fun leg => leg.retired ∧ leg.instrumentId = instrumentId

def onQueryComplete (token : Nat) (ok : Bool) (accepts : Nat → Bool) : Strategy :=
  match s.query with
  | none => s
  | some query =>
    if query.token ≠ token then s
    else if ok ∧ query.snapshotSeen ∧ query.sawOpen then
      (s.matching query.instrumentId).foldl (cancelMatch accepts query.targetToken) { s with query := none }
    else { s with query := none }

/-- The leg that an update is for: results are also found by their token. -/
def updated (instrumentId token : Nat) (result : Bool) : Option Nat :=
  let same (retired : Bool) (leg : Leg) : Bool := leg.retired = retired ∧ token ≠ 0 ∧ leg.token = token
  let byToken := if result then s.legs.findIdx? (same false) <|> s.legs.findIdx? (same true) else none
  let old (leg : Leg) : Bool := leg.retired ∧ leg.instrumentId = instrumentId ∧ leg.token ≠ 0
  s.leg instrumentId <|> byToken <|> if instrumentId ≠ 0 then s.legs.findIdx? old else none

/-- A fill comes here if the ledger has taken it. -/
def onOrderUpdate (instrumentId token : Nat) (dust : Bool) (update : ExecutionUpdate) : Strategy :=
  let result := update matches .placeResult _ | .cancelResult _ | .otherResult
  match s.updated instrumentId token result with
  | none => s
  | some index => s.change index fun leg => leg.applyOrderEvent token dust update

def retire (leg : Leg) : Leg := { leg with retired := true }

def step : Call → Strategy
  | .submit index purpose remembered => s.submit index purpose remembered
  | .cancelLeg index accepted => s.cancelLeg index accepted
  | .cancelTimeout index =>
    s.change index fun leg =>
      if leg.retired ∧ leg.state = .pendingCancel then { leg with state := .needsReconcile } else leg
  | .pollUncertain index found submitted => s.pollUncertain index found submitted
  | .openOrdersSnapshot token orders => s.onOpenOrdersSnapshot token orders
  | .queryComplete token ok accepts => s.onQueryComplete token ok accepts
  | .orderUpdate instrumentId token dust update => s.onOrderUpdate instrumentId token dust update
  | .goDust index => s.change index fun leg => if isActiveOrder leg.state then leg else { leg with state := .dust }
  | .deactivate => { s with legs := s.legs.map retire }
  | .activate up down flat =>
    let kept := if flat ∧ !s.legs.any (fun leg => !leg.retired && isActiveOrder leg.state) then s.legs.filter (·.retired)
      else s.legs.map retire
    { s with legs := kept ++ [{ instrumentId := up }, { instrumentId := down }] }
  | .release index =>
    { s with legs := if s.legs[index]?.any fun leg => leg.retired ∧ !isActiveOrder leg.state then s.legs.eraseIdx index
      else s.legs }

/-- The order has been placed, and a leg that holds it needs the reconciliation. -/
def Uncertain (token : Nat) (s : Strategy) : Prop :=
  token < s.next ∧ ∀ leg ∈ s.legs, leg.token = token → leg.state = .needsReconcile

instance (token : Nat) (s : Strategy) : Decidable (s.Uncertain token) :=
  inferInstanceAs (Decidable (token < s.next ∧ ∀ leg ∈ s.legs, leg.token = token → leg.state = .needsReconcile))

variable {s : Strategy} {token : Nat} {call : Call}

/-- What is cancelled for a leg is another order, and a leg that holds this one stays as it is. -/
theorem cancelLeg_uncertain (index : Nat) (accepted : Bool) (h : s.Uncertain token) :
    (s.cancelLeg index accepted).Uncertain token ∧
      (s.cancelLeg index accepted).cancels.count token = s.cancels.count token := by
  obtain ⟨hplaced, hlegs⟩ := h
  unfold cancelLeg
  split
  next => exact ⟨⟨hplaced, hlegs⟩, rfl⟩
  next leg hleg =>
    have hother : leg.state ≠ .needsReconcile → leg.token ≠ token := fun hstate htoken =>
      hstate (hlegs leg (mem_of_getElem? hleg) htoken)
    split
    all_goals try exact ⟨⟨hplaced, hlegs⟩, rfl⟩
    all_goals
      have hne := hother (by simp [*])
      refine ⟨⟨hplaced, fun held hmem htoken => ?_⟩, by simp [hne]⟩
      dsimp only at hmem
      split at hmem
      next =>
        obtain hmem | rfl := mem_or_eq_of_mem_set hmem
        · exact hlegs held hmem htoken
        · exact absurd htoken hne
      next => exact hlegs held hmem htoken

theorem cancelMatches_uncertain (accepts : Nat → Bool) (target : Nat) (indices : List Nat) (h : s.Uncertain token) :
    (indices.foldl (cancelMatch accepts target) s).cancels.count token = s.cancels.count token := by
  induction indices generalizing s with
  | nil => rfl
  | cons index rest ih =>
    rw [foldl_cons, cancelMatch]
    split
    next => exact ih h
    next leg _ =>
    split
    next =>
      obtain ⟨hstill, hcount⟩ := cancelLeg_uncertain index (accepts leg.token) h
      exact (ih hstill).trans hcount
    next => exact ih h

theorem change_cancels {f : Leg → Leg} (index : Nat) : (s.change index f).cancels = s.cancels := by
  unfold change
  split <;> rfl

theorem step_uncertain (h : s.Uncertain token) : (s.step call).cancels.count token = s.cancels.count token := by
  cases call with
  | submit index purpose remembered =>
    simp only [step, submit]
    split
    next => rfl
    next =>
    split
    next => rfl
    next =>
      -- the order that is cancelled at once is a new one
      have hne : s.next ≠ token := Nat.ne_of_gt h.1
      cases remembered <;> simp [hne]
  | cancelLeg index accepted => exact (cancelLeg_uncertain index accepted h).2
  | pollUncertain index found submitted =>
    simp only [step, pollUncertain]
    split
    next => rfl
    next =>
    split
    next => rfl
    next =>
    split
    next => rw [change_cancels]
    next => split <;> rfl
  | queryComplete asked ok accepts =>
    simp only [step, onQueryComplete]
    split
    next => rfl
    next query _ =>
    split
    next => rfl
    next =>
    split
    next => exact cancelMatches_uncertain (s := { s with query := none }) accepts query.targetToken _ h
    next => rfl
  | orderUpdate instrumentId told dust update =>
    simp only [step, onOrderUpdate]
    split
    next => rfl
    next => rw [change_cancels]
  | cancelTimeout index | goDust index => exact congrArg (count token) (change_cancels index)
  | openOrdersSnapshot | deactivate | activate | release => rfl

/-- As long as no leg holds the order but in need of the reconciliation, it is never cancelled, whatever the queries
show. -/
theorem uncertain_never_cancelled (s : Strategy) (calls : List Call) (token : Nat)
    (hun : Along step (fun s _ => s.Uncertain token) s calls) :
    (calls.foldl step s).cancels.count token = s.cancels.count token := by
  induction calls generalizing s with
  | nil => rfl
  | cons call calls ih => exact (ih _ hun.2).trans (step_uncertain hun.1)

def uncertainOrder : Strategy :=
  [.activate 7 8 true, .submit 0 .opening true, .orderUpdate 7 1 false (.placeResult (some true))].foldl step {}

def shownOpen : List Call :=
  [.pollUncertain 0 none (some 9), .openOrdersSnapshot 9 [1], .queryComplete 9 true fun _ => true]

theorem uncertain_never_cancelled_shown : ((shownOpen ++ shownOpen).foldl step uncertainOrder).cancels.count 1 = 0 :=
  uncertain_never_cancelled uncertainOrder (shownOpen ++ shownOpen) 1 (by decide)

/-- No cancel follows, and a later status frees the leg for the next order. -/
theorem uncertain_order_uncancelled :
    let shown := (shownOpen.take 2).foldl step uncertainOrder
    let s := [.queryComplete 9 true (fun _ => true), .pollUncertain 0 (some false) none, .submit 0 .opening true].foldl
      step shown
    shown.legs.map (·.state) = [.needsReconcile, .idle] ∧ shown.query = some ⟨9, 1, 7, true, true⟩ ∧
      s.cancels = [] ∧ s.legs.map (·.token) = [2, 0] := by
  decide

end Strategy

inductive HaltPhase
  | running | stopOpening | flattening | halted
deriving DecidableEq

inductive Phase
  | waitingReconcile | waitingBinding | waitingFreshMarket | trading | stopOpening | capacityBlocked | halted
deriving DecidableEq

def HaltPhase.beginStopOpening (phase : HaltPhase) : HaltPhase :=
  if phase = .flattening ∨ phase = .halted then phase else .stopOpening

def HaltPhase.resumeAfterFairprice (phase : HaltPhase) (paused : Bool) : HaltPhase :=
  if paused ∧ phase = .stopOpening then .running else phase

def HaltPhase.confirmHalt (phase : HaltPhase) (activeOrders positionSafe : Bool) : HaltPhase :=
  if phase = .flattening ∧ !activeOrders ∧ positionSafe then .halted else phase

/-- What the writers of the halt phase read and write; `placed` counts the orders placed. -/
structure HaltLadder where
  haltPhase : HaltPhase := .running
  phase : Phase := .waitingReconcile
  fairpricePausedOpening : Bool := false
  placed : Nat := 0

inductive HaltCall
  | beginStopOpening | beginFlattening | enterHalted | submitOpen | submitClose
  | refreshFairpriceLive (live : Bool)
  | maybeCompleteHalt (activeOrders positionSafe : Bool)
  | onOmsStatus (error : Int)
  | enterPhase (phase : Phase)

namespace HaltLadder

variable (l : HaltLadder)

def beginStopOpening (paused : Bool) : HaltLadder :=
  { l with haltPhase := l.haltPhase.beginStopOpening, fairpricePausedOpening := paused }

def resumeOpeningAfterFairprice : HaltLadder :=
  let resumed := l.haltPhase.resumeAfterFairprice l.fairpricePausedOpening
  { l with
    haltPhase := resumed
    fairpricePausedOpening := if resumed = .running then false else l.fairpricePausedOpening }

def beginFlattening : HaltLadder := { l with haltPhase := .flattening, fairpricePausedOpening := false }

def enterHalted : HaltLadder := { l with haltPhase := .halted, phase := .halted }

def allowsPlaceOpen : Bool := l.phase = .trading ∧ l.haltPhase = .running

def allowsPlaceClose : Bool :=
  l.haltPhase ≠ .halted ∧ l.phase ≠ .halted ∧
    (l.haltPhase = .flattening ∨ l.phase = .trading ∨ l.phase = .stopOpening)

/-- All callers of `begin_flattening` but `on_oms_status` have seen that the phase is not halted, and
those that enter another phase that theirs is not. -/
def perform : HaltCall → HaltLadder
  | .beginStopOpening => l.beginStopOpening false
  | .beginFlattening => if l.haltPhase = .halted then l else l.beginFlattening
  | .enterHalted => l.enterHalted
  | .submitOpen => if l.allowsPlaceOpen then { l with placed := l.placed + 1 } else l
  | .submitClose => if l.allowsPlaceClose then { l with placed := l.placed + 1 } else l
  | .refreshFairpriceLive live =>
    if live then l.resumeOpeningAfterFairprice
    else if l.haltPhase ≠ .running then l else l.beginStopOpening true
  | .maybeCompleteHalt activeOrders positionSafe =>
    if l.haltPhase.confirmHalt activeOrders positionSafe ≠ .halted then l else l.enterHalted
  | .onOmsStatus error => if l.phase = .waitingReconcile ∨ error = 0 then l else l.beginFlattening
  | .enterPhase phase => if l.phase = .halted then l else { l with phase := phase }

variable {l} {calls : List HaltCall}

/-- In the halted phase no order is placed, and only an error of the OMS leaves its last rung; flattening ends in a halt
only; and a stop with no pause for a fair price never leads back to opening. -/
theorem perform_spec (l : HaltLadder) (call : HaltCall) :
    ((l.haltPhase = .halted → l.phase = .halted) → (l.perform call).haltPhase = .halted →
      (l.perform call).phase = .halted) ∧
    (l.phase = .halted → (l.perform call).phase = .halted ∧ (l.perform call).placed = l.placed ∧ (l.haltPhase = .halted →
      ((l.perform call).haltPhase = .halted ↔ ∀ error, .onOmsStatus error = call → error = 0))) ∧
    (l.haltPhase = .flattening → (l.perform call).haltPhase = .flattening ∨ (l.perform call).haltPhase = .halted) ∧
    (l.haltPhase ≠ .running ∧ l.fairpricePausedOpening = false →
      (l.perform call).haltPhase ≠ .running ∧ (l.perform call).fairpricePausedOpening = false) := by
  cases call with
  | beginStopOpening => grind [perform, beginStopOpening, HaltPhase.beginStopOpening]
  | beginFlattening => grind [perform, beginFlattening]
  | enterHalted => grind [perform, enterHalted]
  | submitOpen => grind [perform, allowsPlaceOpen]
  | submitClose => grind [perform, allowsPlaceClose]
  | refreshFairpriceLive live =>
    cases live with
    | true => grind [perform, resumeOpeningAfterFairprice, HaltPhase.resumeAfterFairprice]
    | false => grind [perform, beginStopOpening, HaltPhase.beginStopOpening]
  | maybeCompleteHalt activeOrders positionSafe => grind [perform, enterHalted, HaltPhase.confirmHalt]
  | onOmsStatus error => grind [perform, beginFlattening]
  | enterPhase phase => grind [perform]

theorem run_stopped (h : l.haltPhase ≠ .running ∧ l.fairpricePausedOpening = false) :
    (calls.foldl perform l).haltPhase ≠ .running := by
  induction calls generalizing l with
  | nil => exact h.1
  | cons call calls ih => exact ih ((perform_spec l call).2.2.2 h)

theorem run_halted (h : l.phase = .halted) : (calls.foldl perform l).placed = l.placed ∧ (l.haltPhase = .halted →
    ((∀ n, ((calls.take n).foldl perform l).haltPhase = .halted) ↔ ∀ error, .onOmsStatus error ∈ calls → error = 0)) := by
  induction calls generalizing l with
  | nil => simp
  | cons call calls ih =>
    obtain ⟨hphase, hplaced, hstays⟩ := (perform_spec l call).2.1 h
    obtain ⟨ihplaced, ihstays⟩ := ih hphase
    refine ⟨ihplaced.trans hplaced, fun hh => ?_⟩
    rw [← Nat.and_forall_add_one]
    simp only [take_zero, foldl_nil, take_succ_cons, foldl_cons, mem_cons, or_imp, forall_and, hh, true_and, ← hstays hh]
    exact ⟨fun hall => ⟨hall 0, (ihstays (hall 0)).mp hall⟩, fun hnone => (ihstays hnone.1).mpr hnone.2⟩

/-- After a halt no order is placed, and the ladder stays at halted as long as no status of the OMS tells
an error. Flattening ends in a halt only, and no recovery of the fair price undoes a stop for an error. -/
theorem halt_ladder_monotone_iff (before after : List HaltCall) :
    let l := before.foldl perform {}
    (l.haltPhase = .halted → (after.foldl perform l).placed = l.placed ∧
      ((∀ n, ((after.take n).foldl perform l).haltPhase = .halted) ↔ ∀ error, .onOmsStatus error ∈ after → error = 0)) ∧
    (l.haltPhase = .flattening → ∀ call, (l.perform call).haltPhase = .flattening ∨ (l.perform call).haltPhase = .halted) ∧
    (after.foldl perform (l.perform .beginStopOpening)).haltPhase ≠ .running := by
  intro l
  have hl : l.haltPhase = .halted → l.phase = .halted :=
    foldlRecOn (motive := fun l => l.haltPhase = .halted → l.phase = .halted) before perform
      (fun h => by cases h) fun l h call _ => (perform_spec l call).1 h
  refine ⟨fun hh => ?_, fun hh call => (perform_spec l call).2.2.1 hh, ?_⟩
  · have hrun := @run_halted _ after (hl hh)
    exact ⟨hrun.1, hrun.2 hh⟩
  · exact run_stopped (by grind [perform, beginStopOpening, HaltPhase.beginStopOpening])

theorem oms_error_leaves_halted :
    (({} : HaltLadder).perform .enterHalted).haltPhase = .halted ∧
      ((({} : HaltLadder).perform .enterHalted).perform (.onOmsStatus 7)).haltPhase = .flattening := by decide

end HaltLadder

end SelfQuant.PolyMm
