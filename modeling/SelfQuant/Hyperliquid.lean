import SelfQuant.OmsAdapterTypes
import Mathlib.Logic.Function.Basic

namespace SelfQuant.Hyperliquid

open Oms Function List

structure Session where
  (metadata signerOk privateOpen reconciled : Bool := false)
  status : AdapterStatus := .connecting
deriving DecidableEq

namespace Session

variable (s : Session)

def refresh : Session :=
  { s with status :=
      if s.status = .failed then .failed
      else if s.metadata ∧ s.signerOk ∧ s.privateOpen ∧ s.reconciled then .ready
      else if s.status = .reconciling then .reconciling else .connecting }

def armSigner (signerOk : Bool) : Session := refresh { signerOk, status := if signerOk then .connecting else .failed }

def sealMetadata : Session := refresh { s with metadata := true }

def noteUnmapped : Session :=
  { s with reconciled := false, status := if s.status = .failed then .failed else .reconciling }

def notePrivateOpen : Session := refresh { s with privateOpen := true }

def notePrivateLost : Session := { s.noteUnmapped with privateOpen := false }

def completeReconcile (ordersMapped positionsMapped : Bool) : Session :=
  let reconciled := ordersMapped && positionsMapped
  refresh { s with reconciled, status := if reconciled then s.status else .reconciling }

end Session

inductive Event
  | venue (type : VenueEventType) (token : RequestToken)
  | reconcileComplete (generation : Nat)
  | other
deriving DecidableEq

structure Inflight where
  requestId : Nat
  token : RequestToken
  cancel : Bool
deriving DecidableEq

/-- The session, whether its socket is subscribed, and the queue of events for the runtime. -/
structure Feed where
  session : Session
  wsSubscribed : Bool := false
  pending : List Event := []

/-- All but the orders: also the reservation and the requests that wait for a response. -/
structure Link extends Feed where
  (reserved restHealthy websocketHealthy metadataHealthy : Bool := false)
  (ordersQueried positionsQueried ordersMapped positionsMapped fillCatchupComplete : Bool := false)
  (generation nextRequestId : Nat := 1)
  (metadataRequestId fillCatchupRequestId : Nat := 0)
  query : Option (Nat × QueryKind) := none
  inflight : List Inflight := []

/-- The orders of the session tell whether a cancel has been signed. The bindings in use come first, since none is
ever given back. -/
structure Adapter extends Link where
  orders : Nat → Option Bool := fun _ => none
  bindings : List RequestToken := []

/-- An order that `signs` if the nonce and the signature can be made, and that the transport has `accepted`. -/
structure PlaceCommand where
  token : RequestToken
  (supported crypto assetKnown signs accepted : Bool := true)

/-- An entry of a message: for no binding, for a binding, or a fill that is not applied. -/
inductive UserUpdate
  | unbound
  | bound
  | notApplied (failed : Bool)

/-- A response that does not parse has no items. `none` is an order or position that the query did not ask for, or a
fill that is a duplicate or not bound; `some` tells whether an order or position is mapped or a fill is applied. -/
structure Answer where
  items : Option (List (Option Bool)) := some []
  rejected : Bool := false

/-- The calls of the runtime, and what `service_io` does one after the other; `accepted` requests are taken by the
transport. -/
inductive LinkCall
  | reserve
  | cancelReservation (generation : Nat)
  | cancelVenue (generation : Nat) (signs : Bool)
  | query (kind : QueryKind) (accepted : Bool)
  | beginReconcile (generation : Nat)
  | shutdown
  | emit (count : Nat)
  | askMetadata (accepted : Bool)
  | sealMetadata (found : Bool)
  | askFills (accepted : Bool)
  | opened (subscribed : Bool)
  | closed
  | message (updates : List UserUpdate)
  | failure (id : Nat)
  | response (id code : Nat) (answer : Answer)

inductive Call
  | place (generation : Nat) (command : PlaceCommand)
  | cancel (generation : Nat) (token : RequestToken) (signs accepted : Bool)
  | link (call : LinkCall)

def encodable (sequence : Nat) : Bool := 0 < sequence && sequence < 2 ^ 48

namespace Feed

variable (a : Feed)

def push (event : Event) : Feed := { a with pending := a.pending ++ [event] }

def offer (event : Event) : Feed := if a.pending.length < 8 then a.push event else a

def unmapped : Feed := { a with session := a.session.noteUnmapped }

def onUpdates (a : Feed) : List UserUpdate → Feed
  | [] => a
  | .unbound :: rest => onUpdates (a.unmapped.offer .other) rest
  | .bound :: rest => if 8 ≤ a.pending.length then a else onUpdates (a.push .other) rest
  | .notApplied failed :: rest =>
    if 8 ≤ a.pending.length then a
    else onUpdates (if failed then { a with session := { a.session with status := .failed } } else a) rest

/-- The fills of the catch-up, and whether all of them are mapped. A fill that fails the session is not applied, and
`complete_reconcile` then sets the status anew. -/
def onFills (a : Feed) (mapped : Bool) : List (Option Bool) → Feed × Bool
  | [] => (a, mapped)
  | none :: rest => onFills a mapped rest
  | some false :: rest => onFills a false rest
  | some true :: rest => if 8 ≤ a.pending.length then (a, false) else onFills (a.push .other) mapped rest

variable {a : Feed} {P : Bool → Session → Prop} {event : Event}

/-- The session has the property, and the queue keeps to its length. -/
def Leads (P : Bool → Session → Prop) (a b : Feed) : Prop :=
  P b.wsSubscribed b.session ∧ (a.pending.length ≤ 8 → b.pending.length ≤ 8)

theorem Leads.trans {b c : Feed} (hab : Leads P a b) (hbc : Leads P b c) : Leads P a c :=
  ⟨hbc.1, fun hle => hbc.2 (hab.2 hle)⟩

theorem push_leads (h : P a.wsSubscribed a.session) (hroom : a.pending.length < 8) : Leads P a (a.push event) := by
  refine ⟨h, fun _ => ?_⟩
  rw [push, length_append]
  exact hroom

theorem offer_leads (h : P a.wsSubscribed a.session) : Leads P a (a.offer event) := by
  unfold offer
  split
  next hroom => exact push_leads h hroom
  next => exact ⟨h, id⟩

/-- What each change of the session keeps. -/
structure Stable (P : Bool → Session → Prop) : Prop where
  unmapped {ws s} : P ws s → P ws s.noteUnmapped
  failed {ws s} : P ws s → P ws { s with status := .failed }
  lost {ws s} : P ws s → P ws s.notePrivateLost
  metadata {ws s} : P ws s → P ws s.sealMetadata
  opened {s} : P false s → P true s.notePrivateOpen
  completed {ws s} (ordersMapped positionsMapped) : P ws s → P ws (s.completeReconcile ordersMapped positionsMapped)

theorem onUpdates_leads (hP : Stable P) (h : P a.wsSubscribed a.session) (updates : List UserUpdate) :
    Leads P a (a.onUpdates updates) := by
  induction updates generalizing a with
  | nil => exact ⟨h, id⟩
  | cons entry rest ih =>
    cases entry with
    | unbound =>
      have hoffered : Leads P a (a.unmapped.offer .other) := offer_leads (a := a.unmapped) (hP.unmapped h)
      exact hoffered.trans (ih hoffered.1)
    | bound =>
      unfold onUpdates
      split
      next => exact ⟨h, id⟩
      next hroom => exact (push_leads h (Nat.lt_of_not_le hroom)).trans (ih h)
    | notApplied failed =>
      unfold onUpdates
      split
      next => exact ⟨h, id⟩
      cases failed with
      | false => exact ih h
      | true => exact ih (a := { a with session := { a.session with status := .failed } }) (hP.failed h)

theorem onFills_leads (items : List (Option Bool)) (mapped : Bool) :
    Leads (fun ws s => ws = a.wsSubscribed ∧ s = a.session) a (a.onFills mapped items).1 := by
  induction items generalizing a mapped with
  | nil => exact ⟨⟨rfl, rfl⟩, id⟩
  | cons item rest ih =>
    match item with
    | none => exact ih mapped
    | some false => exact ih false
    | some true =>
      unfold onFills
      split
      next => exact ⟨⟨rfl, rfl⟩, id⟩
      next hroom => exact (push_leads ⟨rfl, rfl⟩ (Nat.lt_of_not_le hroom)).trans (ih mapped)

end Feed

namespace Link

variable (a : Link)

def submit (token : RequestToken) (cancel : Bool) : Link :=
  { a with
    nextRequestId := a.nextRequestId + 1
    inflight := if a.inflight.length < 8 then a.inflight ++ [⟨a.nextRequestId, token, cancel⟩] else a.inflight }

def healthy : Bool := a.session.status = .ready && a.restHealthy && a.websocketHealthy && a.metadataHealthy

/-- `commit_cancel_venue`, which signs from the client id alone and does not wait for the response. -/
def commitCancelVenue (generation : Nat) (signs : Bool) : Link :=
  if generation ≠ a.generation ∨ !a.reserved then a
  else
    let a := { a with reserved := false, generation := a.generation + 1 }
    if a.restHealthy ∧ a.session.status = .ready ∧ signs then { a with nextRequestId := a.nextRequestId + 1 } else a

def onCatchup : Option (List (Option Bool)) → Link
  | none => { a with fillCatchupRequestId := 0, toFeed := a.unmapped }
  | some items =>
    let (feed, mapped) := a.onFills true items
    let feed := { feed with session := feed.session.completeReconcile (a.ordersMapped && mapped) a.positionsMapped }
    { a with
      fillCatchupRequestId := 0, fillCatchupComplete := mapped
      toFeed := if feed.session.reconciled then feed.offer (.reconcileComplete a.generation) else feed.unmapped }

/-- The snapshots and the end of the query are queued without asking for room again. -/
def onQuery (kind : QueryKind) : Option (List (Option Bool)) → Link
  | none => { a with query := none, toFeed := a.unmapped }
  | some items =>
    if 8 - a.pending.length < items.length + 1 then { a with query := none, toFeed := a.unmapped }
    else
      let a := { a with query := none, pending := a.pending ++ replicate (items.countP Option.isSome + 1) Event.other }
      if kind = .openOrders then { a with ordersQueried := true, ordersMapped := some false ∉ items }
      else { a with positionsQueried := true, positionsMapped := some false ∉ items }

def answerType (cancel refused : Bool) : VenueEventType :=
  if cancel then if refused then .cancelReject else .cancelAck else if refused then .newReject else .newAck

def remembered (id : Nat) : Option Inflight := a.inflight.find? (·.requestId = id)

def onExchange (id : Nat) (refused : Bool) : Link :=
  match a.remembered id with
  | none => a
  | some item =>
    { a with
      toFeed := a.offer (.venue (answerType item.cancel refused) item.token)
      inflight := a.inflight.eraseP (·.requestId = id) }

def onResponse (id code : Nat) (answer : Answer) : Link :=
  if 500 ≤ code then a
  else
    let a := { a with restHealthy := true }
    if id = a.metadataRequestId then { a with metadataRequestId := if answer.items.isSome then 0 else id }
    else if id = a.fillCatchupRequestId then a.onCatchup answer.items
    else
      match a.query.filter (·.1 = id) with
      | some (_, kind) => a.onQuery kind answer.items
      | none => a.onExchange id (400 ≤ code ∨ answer.rejected)

def onFailure (id : Nat) : Link :=
  let a := { a with restHealthy := false }
  let a := if a.query.any (·.1 = id) then { a with query := none, toFeed := a.unmapped } else a
  let a := if id = a.metadataRequestId then { a with metadataRequestId := 0 } else a
  if id = a.fillCatchupRequestId then { a with fillCatchupRequestId := 0, toFeed := a.unmapped } else a

def onOpen (subscribed : Bool) : Link :=
  let a := { a with websocketHealthy := true }
  if !a.wsSubscribed ∧ subscribed then { a with wsSubscribed := true, session := a.session.notePrivateOpen } else a

def beginReconcile (generation : Nat) : Link :=
  { a with
    generation, session := a.session.notePrivateLost, websocketHealthy := false, ordersQueried := false
    positionsQueried := false, ordersMapped := false, positionsMapped := false, fillCatchupComplete := false
    fillCatchupRequestId := 0 }

def step : LinkCall → Link
  | .reserve => { a with reserved := true }
  | .cancelReservation generation => { a with reserved := a.reserved && generation ≠ a.generation }
  | .cancelVenue generation signs => a.commitCancelVenue generation signs
  | .query kind accepted =>
    if a.query.isSome then a
    else
      { a with
        nextRequestId := a.nextRequestId + 1
        query := if accepted then some (a.nextRequestId, kind) else none }
  | .beginReconcile generation => a.beginReconcile generation
  | .shutdown => { a with session := a.session.notePrivateLost }
  | .emit count => { a with pending := a.pending.drop count }
  | .askMetadata accepted =>
    if a.metadataRequestId ≠ 0 then a
    else
      { a with nextRequestId := a.nextRequestId + 1, metadataRequestId := if accepted then a.nextRequestId else 0 }
  | .sealMetadata found =>
    { a with metadataHealthy := found, session := if found then a.session.sealMetadata else a.session }
  | .askFills accepted =>
    if a.ordersQueried ∧ a.positionsQueried ∧ !a.fillCatchupComplete ∧ a.fillCatchupRequestId = 0 then
      { a with nextRequestId := a.nextRequestId + 1, fillCatchupRequestId := if accepted then a.nextRequestId else 0 }
    else a
  | .opened subscribed => a.onOpen subscribed
  | .closed => { a with websocketHealthy := false, wsSubscribed := false, session := a.session.notePrivateLost }
  | .message updates => { a with toFeed := a.onUpdates updates }
  | .failure id => a.onFailure id
  | .response id code answer => a.onResponse id code answer

variable {a : Link} {P : Bool → Session → Prop}

section Session

variable (hP : Feed.Stable P) (h : P a.wsSubscribed a.session)

include hP h

theorem onCatchup_leads (items : Option (List (Option Bool))) :
    a.toFeed.Leads P (a.onCatchup items).toFeed := by
  cases items with
  | none => exact ⟨hP.unmapped h, id⟩
  | some items =>
    obtain ⟨⟨hws, hsame⟩, hlen⟩ := a.toFeed.onFills_leads items true
    rw [← hws, ← hsame] at h
    have hdone := hP.completed (a.ordersMapped && (a.onFills true items).2) a.positionsMapped h
    simp only [onCatchup]
    split
    next =>
      obtain ⟨hkept, hroom⟩ := Feed.offer_leads (a := { (a.onFills true items).1 with session := _ }) hdone
      exact ⟨hkept, fun hle => hroom (hlen hle)⟩
    next => exact ⟨hP.unmapped hdone, hlen⟩

theorem onQuery_leads (kind : QueryKind) (items : Option (List (Option Bool))) :
    a.toFeed.Leads P (a.onQuery kind items).toFeed := by
  cases items with
  | none => exact ⟨hP.unmapped h, id⟩
  | some items =>
    unfold onQuery
    dsimp only
    split
    next => exact ⟨hP.unmapped h, id⟩
    next hroom =>
      have hlen : (a.pending ++ replicate (items.countP Option.isSome + 1) Event.other).length ≤ 8 := by
        have hasked := items.countP_le_length (p := Option.isSome)
        rw [length_append, length_replicate]
        omega
      split <;> exact ⟨h, fun _ => hlen⟩

theorem onResponse_leads (id code : Nat) (answer : Answer) :
    a.toFeed.Leads P (a.onResponse id code answer).toFeed := by
  unfold onResponse
  split
  next => exact ⟨h, fun hle => hle⟩
  dsimp only
  split
  next => exact ⟨h, fun hle => hle⟩
  split
  next => exact onCatchup_leads (a := { a with restHealthy := true }) hP h answer.items
  split
  next kind _ => exact onQuery_leads (a := { a with restHealthy := true }) hP h kind answer.items
  next =>
    unfold onExchange
    split
    next => exact ⟨h, fun hle => hle⟩
    next => exact Feed.offer_leads h

theorem onFailure_leads (id : Nat) : a.toFeed.Leads P (a.onFailure id).toFeed := by
  have hun := hP.unmapped h
  unfold onFailure
  dsimp only
  split_ifs <;> exact ⟨by first | exact hP.unmapped hun | exact hun | exact h, fun hle => hle⟩

/-- The socket is subscribed by an open event and given up by a close. -/
theorem step_leads (call : LinkCall) (hclosed : call = .closed → P false a.session.notePrivateLost) :
    a.toFeed.Leads P (a.step call).toFeed := by
  cases call with
  | cancelVenue =>
    simp only [step, commitCancelVenue]
    split
    next => exact ⟨h, id⟩
    next => split <;> exact ⟨h, id⟩
  | query | askMetadata | askFills =>
    simp only [step]
    split <;> exact ⟨h, id⟩
  | sealMetadata found =>
    cases found with
    | true => exact ⟨hP.metadata h, id⟩
    | false => exact ⟨h, id⟩
  | opened subscribed =>
    simp only [step, onOpen]
    split
    next hnew =>
      have hno : a.wsSubscribed = false := by simpa using hnew.1
      rw [hno] at h
      exact ⟨hP.opened h, id⟩
    next => exact ⟨h, id⟩
  | closed => exact ⟨hclosed rfl, id⟩
  | beginReconcile | shutdown => exact ⟨hP.lost h, id⟩
  | message updates => exact Feed.onUpdates_leads hP h updates
  | failure id => exact onFailure_leads hP h id
  | response id code answer => exact onResponse_leads hP h id code answer
  | emit count => exact ⟨h, fun hle => (drop_sublist count a.pending).length_le.trans hle⟩
  | reserve | cancelReservation => exact ⟨h, id⟩

end Session

/-- The id is not that of another request, and the list has `kept` of it. -/
def Clear (id : Nat) (kept : Option Inflight) (a : Link) : Prop :=
  id ≠ a.metadataRequestId ∧ id ≠ a.fillCatchupRequestId ∧ (∀ kind, a.query ≠ some (id, kind)) ∧
    a.remembered id = kept

theorem find?_eraseP {items : List Inflight} {id other : Nat} (h : other ≠ id) :
    (items.eraseP (·.requestId = other)).find? (·.requestId = id) = items.find? (·.requestId = id) := by
  induction items with
  | nil => rfl
  | cons item rest ih => grind

theorem onResponse_next (id code : Nat) (answer : Answer) :
    (a.onResponse id code answer).nextRequestId = a.nextRequestId := by
  unfold onResponse
  split
  next => rfl
  dsimp only
  split
  next => rfl
  split
  next => cases answer.items <;> rfl
  split
  next => cases answer.items <;> grind [onQuery]
  next =>
    unfold onExchange
    split <;> rfl

theorem step_next (call : LinkCall) : a.nextRequestId ≤ (a.step call).nextRequestId := by
  cases call with
  | cancelVenue => grind [step, commitCancelVenue]
  | query | askMetadata | askFills => grind [step]
  | opened => grind [step, onOpen]
  | failure => grind [step, onFailure]
  | response id code answer => exact (onResponse_next id code answer).ge
  | _ => exact le_rfl

section Requests

variable {id : Nat} {kept : Option Inflight} (hpos : 0 < id) (h : Clear id kept a)

include hpos h

omit hpos in
theorem onResponse_pending (code : Nat) (answer : Answer) : (a.onResponse id code answer).pending =
    if code < 500 then
      (kept.elim a.toFeed fun item =>
        a.offer (.venue (answerType item.cancel (400 ≤ code ∨ answer.rejected)) item.token)).pending
    else a.pending := by
  obtain ⟨hm, hf, hq, hkept⟩ := h
  have hquery : a.query.filter (·.1 = id) = none := by
    cases hqueried : a.query with
    | none => rfl
    | some asked => grind
  unfold onResponse
  split
  next hlost => rw [if_neg (not_lt.mpr hlost)]
  next hcode =>
  rw [if_pos (not_le.mp hcode)]
  dsimp only
  rw [if_neg hm, if_neg hf, hquery]
  simp only [onExchange]
  have hkept' : remembered { a with restHealthy := true } id = kept := hkept
  rw [hkept']
  cases kept <;> rfl

theorem onResponse_clear {other : Nat} (hne : other ≠ id ∨ kept = none) (code : Nat) (answer : Answer) :
    Clear id kept (a.onResponse other code answer) := by
  obtain ⟨hm, hf, hq, hkept⟩ := h
  unfold onResponse
  split
  next => exact ⟨hm, hf, hq, hkept⟩
  dsimp only
  split
  next => grind [Clear, remembered]
  split
  next => cases answer.items <;> grind [onCatchup, Clear, remembered]
  split
  next => cases answer.items <;> grind [onQuery, Clear, remembered]
  next =>
    unfold onExchange
    split
    next => exact ⟨hm, hf, hq, hkept⟩
    next item hitem =>
      have hother : other ≠ id := by
        rintro rfl
        exact Option.some_ne_none item (hitem.symm.trans (hkept.trans (hne.resolve_left fun hself => hself rfl)))
      exact ⟨hm, hf, hq, (find?_eraseP hother).trans hkept⟩

theorem step_clear {call : LinkCall} (hid : id < a.nextRequestId ∨ (a.step call).nextRequestId ≤ id)
    (hcall : (∀ code answer, call ≠ .response id code answer) ∨ kept = none) : Clear id kept (a.step call) := by
  cases call with
  | cancelVenue => grind [step, commitCancelVenue, Clear, remembered]
  | query | askMetadata | askFills => grind [step, Clear, remembered]
  | beginReconcile => grind [step, beginReconcile, Clear, remembered]
  | opened => grind [step, onOpen, Clear, remembered]
  | failure => grind [step, onFailure, Clear, remembered]
  | response other code answer =>
    exact onResponse_clear hpos h (hcall.imp_left fun hne heq => hne code answer (heq ▸ rfl)) code answer
  | _ => exact h

end Requests

end Link

namespace Adapter

variable (a : Adapter)

def queueReject (token : RequestToken) : AdapterResult × Adapter :=
  if 8 ≤ a.pending.length then (.wouldBlock, a) else (.ok, { a with toFeed := a.push (.venue .newReject token) })

def commitPlace (generation : Nat) (c : PlaceCommand) : AdapterResult × Adapter :=
  if generation ≠ a.generation ∨ !a.reserved then (.staleReservation, a)
  else
    let a := { a with reserved := false, generation := a.generation + 1 }
    if !c.supported then a.queueReject c.token
    else if !a.healthy then (.notReady, a)
    else if !c.crypto then a.queueReject c.token
    else if 64 ≤ a.bindings.length then (.wouldBlock, a)
    else if !c.assetKnown ∨ !encodable c.token.sequence ∨ !c.signs then a.queueReject c.token
    else
      let a := { a with orders := update a.orders c.token.sequence (some false) }
      if c.accepted then (.ok, { a with toLink := a.submit c.token false, bindings := a.bindings ++ [c.token] })
      else (.notReady, { a with nextRequestId := a.nextRequestId + 1 })

def commitCancel (generation : Nat) (token : RequestToken) (signs accepted : Bool) : AdapterResult × Adapter :=
  if generation ≠ a.generation ∨ !a.reserved then (.staleReservation, a)
  else
    let a := { a with reserved := false, generation := a.generation + 1 }
    if !a.restHealthy ∨ a.session.status ≠ .ready then (.notReady, a)
    else if !a.session.signerOk ∨ a.orders token.sequence ≠ some false ∨ !signs then (.notReady, a)
    else
      let a := { a with orders := update a.orders token.sequence (some true) }
      if accepted then (.ok, { a with toLink := a.submit token true })
      else (.notReady, { a with nextRequestId := a.nextRequestId + 1 })

def step : Call → Adapter
  | .place generation command => (a.commitPlace generation command).2
  | .cancel generation token signs accepted => (a.commitCancel generation token signs accepted).2
  | .link call => { a with toLink := a.toLink.step call }

def run (calls : List Call) : Adapter := calls.foldl step a

def initial (signerOk : Bool) : Adapter where
  session := .armSigner signerOk

variable {a : Adapter} {generation id code : Nat} {c : PlaceCommand} {token : RequestToken}
  {signs accepted cancel : Bool} {call : Call}

def signsPlace (a : Adapter) (generation : Nat) (c : PlaceCommand) : Bool :=
  generation = a.generation && a.reserved && c.supported && a.healthy && c.crypto && a.bindings.length < 64 &&
    c.assetKnown && encodable c.token.sequence && c.signs

def signsCancel (a : Adapter) (generation : Nat) (token : RequestToken) (signs : Bool) : Bool :=
  generation = a.generation && a.reserved && a.restHealthy && a.session.status = .ready && a.session.signerOk &&
    a.orders token.sequence = some false && signs

/-- What a command sends: the token of its order, and whether it is a cancel. -/
def sends (a : Adapter) : Call → Option (RequestToken × Bool)
  | .place generation c => if a.signsPlace generation c && c.accepted then some (c.token, false) else none
  | .cancel generation token signs accepted =>
    if a.signsCancel generation token signs && accepted then some (token, true) else none
  | .link _ => none

section Commits

variable (a token signs accepted cancel)

/-- What a command does: it stops before the signature, perhaps with a reject in the queue, or it signs, and the request
is sent or not. -/
inductive Commits : Adapter → Prop
  | stopped {reserved : Bool} {generation : Nat} (hno : signs = false) : Commits { a with reserved, generation }
  | rejected {event : Event} (hno : signs = false) (hroom : a.pending.length < 8) :
    Commits { a with reserved := false, generation := a.generation + 1, toFeed := a.push event }
  | unsent (hyes : signs = true) (hrefused : accepted = false) :
    Commits { a with
      reserved := false, generation := a.generation + 1, nextRequestId := a.nextRequestId + 1
      orders := update a.orders token.sequence (some cancel) }
  | sent (hyes : signs = true) (htaken : accepted = true) :
    Commits { a with
      toLink := Link.submit { a.toLink with reserved := false, generation := a.generation + 1 } token cancel
      orders := update a.orders token.sequence (some cancel)
      bindings := if cancel then a.bindings else a.bindings ++ [token] }

end Commits

theorem commitPlace_commits :
    a.Commits c.token (a.signsPlace generation c) c.accepted false (a.commitPlace generation c).2 := by
  unfold commitPlace
  split
  next hstale => exact .stopped (by grind [signsPlace])
  dsimp only [queueReject]
  split_ifs <;> first
    | exact .stopped (by grind [signsPlace, Link.healthy])
    | exact .rejected (by grind [signsPlace]) (by omega)
    | exact .sent (by grind [signsPlace, Link.healthy]) (by assumption)
    | exact .unsent (by grind [signsPlace, Link.healthy]) (by grind)

theorem commitCancel_commits :
    a.Commits token (a.signsCancel generation token signs) accepted true
      (a.commitCancel generation token signs accepted).2 := by
  unfold commitCancel
  split
  next hstale => exact .stopped (by grind [signsCancel])
  dsimp only
  split_ifs <;> first
    | exact .stopped (by grind [signsCancel])
    | exact .sent (by grind [signsCancel]) (by assumption)
    | exact .unsent (by grind [signsCancel]) (by grind)

section

variable {b : Adapter} (h : a.Commits token signs accepted cancel b)

include h

theorem Commits.toLink_eq (hsent : (signs && accepted) = true) : b.toLink =
    Link.submit { a.toLink with reserved := false, generation := a.generation + 1 } token cancel := by
  cases h with
  | stopped hno | rejected hno => simp [hno] at hsent
  | unsent _ hrefused => simp [hrefused] at hsent
  | sent => rfl

theorem Commits.leads {P : Bool → Session → Prop} (hP : P a.wsSubscribed a.session) :
    a.toFeed.Leads P b.toFeed := by
  cases h with
  | rejected _ hroom => exact Feed.push_leads hP hroom
  | stopped | unsent | sent => exact ⟨hP, fun hle => hle⟩

theorem Commits.next : a.nextRequestId ≤ b.nextRequestId := by
  cases h with
  | stopped | rejected => exact le_rfl
  | unsent | sent => exact Nat.le_succ _

theorem Commits.clear {kept : Option Inflight} (hclear : Link.Clear id kept a.toLink)
    (hid : id < a.nextRequestId ∨ b.nextRequestId ≤ id) : Link.Clear id kept b.toLink := by
  obtain ⟨hm, hf, hq, hkept⟩ := hclear
  cases h with
  | stopped | rejected | unsent => exact ⟨hm, hf, hq, hkept⟩
  | sent =>
    have hne : a.nextRequestId ≠ id := hid.elim Nat.ne_of_gt fun hle => Nat.ne_of_lt hle
    refine ⟨hm, hf, hq, ?_⟩
    unfold Link.submit Link.remembered
    dsimp only
    split
    next => rw [find?_append, ← Link.remembered, hkept, find?_singleton, if_neg (by simpa using hne), Option.or_none]
    next => exact hkept

theorem Commits.bindings_eq : b.bindings = a.bindings ++ if signs && accepted && !cancel then [token] else [] := by
  cases h with
  | stopped hno | rejected hno => simp [hno]
  | unsent _ hrefused => simp [hrefused]
  | sent hyes htaken => cases cancel <;> simp [hyes, htaken]

end

theorem step_sends (h : a.sends call = some (token, cancel)) : (a.step call).toLink =
    Link.submit { a.toLink with reserved := false, generation := a.generation + 1 } token cancel := by
  cases call with
  | place generation c =>
    obtain ⟨hsent, heq⟩ := Option.ite_none_right_eq_some.mp h
    cases heq
    exact commitPlace_commits.toLink_eq hsent
  | cancel generation token signs accepted =>
    obtain ⟨hsent, heq⟩ := Option.ite_none_right_eq_some.mp h
    cases heq
    exact commitCancel_commits.toLink_eq hsent
  | link => cases h

theorem step_leads {P : Bool → Session → Prop} (hP : Feed.Stable P) (h : P a.wsSubscribed a.session)
    (hclosed : call = .link .closed → P false a.session.notePrivateLost) :
    a.toFeed.Leads P (a.step call).toFeed := by
  cases call with
  | place => exact commitPlace_commits.leads h
  | cancel => exact commitCancel_commits.leads h
  | link other => exact Link.step_leads hP h other fun heq => hclosed (heq ▸ rfl)

theorem step_clear {kept : Option Inflight} (hpos : 0 < id) (h : Link.Clear id kept a.toLink)
    (hid : id < a.nextRequestId ∨ (a.step call).nextRequestId ≤ id)
    (hcall : (∀ code answer, call ≠ .link (.response id code answer)) ∨ kept = none) :
    Link.Clear id kept (a.step call).toLink := by
  cases call with
  | place => exact commitPlace_commits.clear h hid
  | cancel => exact commitCancel_commits.clear h hid
  | link other =>
    exact Link.step_clear hpos h hid (hcall.imp_left fun hne code answer heq => hne code answer (heq ▸ rfl))

def binds (a : Adapter) : Call → List RequestToken
  | .place generation c => if a.signsPlace generation c && c.accepted then [c.token] else []
  | _ => []

/-- The tokens of the orders that the transport has taken. -/
def placed (a : Adapter) : List Call → List RequestToken
  | [] => []
  | call :: rest => a.binds call ++ placed (a.step call) rest

theorem step_bindings (call : Call) : (a.step call).bindings = a.bindings ++ a.binds call := by
  cases call with
  | place => simpa [step, binds] using commitPlace_commits.bindings_eq
  | cancel => simpa [step, binds] using commitCancel_commits.bindings_eq
  | link => simp [step, binds]

theorem run_bindings (calls : List Call) : (a.run calls).bindings = a.bindings ++ a.placed calls := by
  induction calls generalizing a with
  | nil => simp [run, placed]
  | cons call rest ih =>
    have hrun : a.run (call :: rest) = (a.step call).run rest := rfl
    rw [hrun, ih, step_bindings, placed, append_assoc]

theorem run_append (calls : List Call) (call : Call) : a.run (calls ++ [call]) = (a.run calls).step call := by
  simp [run]

theorem step_next (call : Call) : a.nextRequestId ≤ (a.step call).nextRequestId := by
  cases call with
  | place => exact commitPlace_commits.next
  | cancel => exact commitCancel_commits.next
  | link other => exact Link.step_next other

/-- Ids that have not been given away are free, and the next one is not zero. -/
theorem run_fresh (signerOk : Bool) (calls : List Call) : 0 < ((initial signerOk).run calls).nextRequestId ∧
    ∀ id, ((initial signerOk).run calls).nextRequestId ≤ id →
      Link.Clear id none ((initial signerOk).run calls).toLink := by
  induction calls using reverseRecOn with
  | nil => exact ⟨Nat.one_pos, fun id hid => ⟨by grind [run, initial], by grind [run, initial], nofun, rfl⟩⟩
  | append_singleton calls call ih =>
    obtain ⟨hpos, hfree⟩ := ih
    have hnext := ((initial signerOk).run calls).step_next call
    rw [run_append]
    refine ⟨hpos.trans_le hnext, fun id hid => ?_⟩
    exact step_clear (hpos.trans_le (hnext.trans hid)) (hfree id (hnext.trans hid)) (.inr hid) (.inr rfl)

theorem run_clear {kept : Option Inflight} (hpos : 0 < id) (h : Link.Clear id kept a.toLink)
    (hid : id < a.nextRequestId) {calls : List Call}
    (hcalls : ∀ code answer, .link (.response id code answer) ∉ calls) : Link.Clear id kept (a.run calls).toLink := by
  induction calls generalizing a with
  | nil => exact h
  | cons call rest ih =>
    have hcall : ∀ code answer, call ≠ .link (.response id code answer) := fun code answer heq =>
      hcalls code answer (heq ▸ mem_cons_self)
    exact ih (step_clear hpos h (.inl hid) (.inl hcall)) (hid.trans_le (a.step_next call))
      fun code answer hmem => hcalls code answer (mem_cons_of_mem call hmem)

def answered (generation id : Nat) : List Call :=
  [.link (.beginReconcile generation), .link (.query .openOrders true), .link (.response id 200 {}),
    .link (.query .positions true), .link (.response (id + 1) 200 {}), .link (.askFills true),
    .link (.response (id + 2) 200 {})]

def connected : Adapter :=
  (initial true).run (answered 1 1 ++ [.link (.sealMetadata true), .link (.opened true), .link (.emit 8)])

/-- The order is open at the venue, and a cancel is reserved. -/
def openOrder : Adapter :=
  connected.run [.link .reserve, .place 1 { token := ⟨0, 0, 7⟩ }, .link (.response 4 200 {}), .link .reserve]

/-- A binding is free exactly if fewer than 64 orders have been placed in all, and a response becomes an event exactly if
fewer than eight others waited when its request was sent, it is no server error and the queue has room. -/
theorem order_slots_iff (signerOk : Bool) (calls later : List Call) (call : Call) (c : PlaceCommand) (code : Nat)
    (answer : Answer) :
    let a := (initial signerOk).run calls
    let t := (a.step call).run later
    (c.supported ∧ c.crypto ∧ c.assetKnown ∧ encodable c.token.sequence ∧ c.signs → a.reserved ∧ a.healthy →
      ((a.commitPlace a.generation c).1 = .wouldBlock ↔ 64 ≤ ((initial signerOk).placed calls).length)) ∧
    (a.sends call = some (token, cancel) → (∀ code answer, .link (.response a.nextRequestId code answer) ∉ later) →
      ((t.step (.link (.response a.nextRequestId code answer))).pending =
          t.pending ++ [.venue (Link.answerType cancel (400 ≤ code ∨ answer.rejected)) token] ↔
        a.inflight.length < 8 ∧ code < 500 ∧ t.pending.length < 8)) := by
  intro a t
  refine ⟨fun hc hok => ?_, fun hsent hlater => ?_⟩
  · rw [← show a.bindings = (initial signerOk).placed calls from run_bindings calls]
    grind [commitPlace, Link.healthy]
  · obtain ⟨hpos, hfree⟩ := run_fresh signerOk calls
    have hkept : Link.Clear a.nextRequestId
        (if a.inflight.length < 8 then some ⟨a.nextRequestId, token, cancel⟩ else none) (a.step call).toLink := by
      obtain ⟨hm, hf, hq, hnone⟩ := hfree a.nextRequestId le_rfl
      rw [step_sends hsent]
      refine ⟨hm, hf, hq, ?_⟩
      simp only [Link.remembered, Link.submit] at hnone ⊢
      split
      next =>
        rw [find?_append, hnone]
        simp
      next => exact hnone
    have hnext : a.nextRequestId < (a.step call).nextRequestId := by
      rw [step_sends hsent]
      exact Nat.lt_succ_self _
    have hanswered := Link.onResponse_pending (run_clear hpos hkept hnext hlater) code answer
    change (t.onResponse a.nextRequestId code answer).pending = _ ↔ _
    rw [hanswered]
    change (if code < 500 then (Option.elim _ t.toFeed fun item => t.offer _).pending else t.pending) = _ ↔ _
    split
    next hcode =>
      split
      next hroom =>
        simp only [Option.elim, Feed.offer]
        split
        next hfree => simp [Feed.push, hcode, hroom, hfree]
        next hfull => simp [hfull]
      next hfull => simp [hfull]
    next hlost => simp [hlost]

/-- The venue rejects the order, and the sink takes the event. -/
def rejectedOrder (k : Nat) : List Call :=
  [.link .reserve, .place (k + 1) { token := ⟨0, 0, k + 1⟩ }, .link (.response (k + 4) 200 { rejected := true }),
    .link (.emit 8)]

theorem order_slots_run_out :
    (∀ k < 64, (connected.run ((range k).flatMap rejectedOrder ++ (rejectedOrder k).take 3)).pending =
      [.venue .newReject ⟨0, 0, k + 1⟩]) ∧
    let t := (connected.run ((range 64).flatMap rejectedOrder)).step (.link .reserve)
    t.session.status = .ready ∧ (t.commitPlace 65 { token := ⟨0, 0, 65⟩ }).1 = .wouldBlock := by
  decide +kernel

def Sound (ws : Bool) (s : Session) : Prop :=
  (s.status = .ready → s.metadata ∧ s.signerOk ∧ s.privateOpen ∧ s.reconciled) ∧ (s.privateOpen → ws)

theorem sound_stable : Feed.Stable Sound where
  unmapped h := by grind [Sound, Session.noteUnmapped]
  failed h := by grind [Sound]
  lost h := by grind [Sound, Session.notePrivateLost, Session.noteUnmapped]
  metadata h := by grind [Sound, Session.sealMetadata, Session.refresh]
  opened h := by grind [Sound, Session.notePrivateOpen, Session.refresh]
  completed o p h := by grind [Sound, Session.completeReconcile, Session.refresh]

/-- A subscribed socket that counts as lost. An open socket is only noted when it is subscribed, so only a close helps. -/
def Lost (ws : Bool) (s : Session) : Prop := ws ∧ s.privateOpen = false ∧ s.status ≠ .ready

theorem lost_stable : Feed.Stable Lost where
  unmapped h := by grind [Lost, Session.noteUnmapped]
  failed h := by grind [Lost]
  lost h := by grind [Lost, Session.notePrivateLost, Session.noteUnmapped]
  metadata h := by grind [Lost, Session.sealMetadata, Session.refresh]
  opened h := by grind [Lost]
  completed o p h := by grind [Lost, Session.completeReconcile, Session.refresh]

/-- Whatever comes in, a ready adapter has its metadata, signer and socket and is reconciled, an open socket is
subscribed and the queue keeps to its length. -/
theorem ready_sound (signerOk : Bool) (calls : List Call) :
    let a := (initial signerOk).run calls
    (a.session.status = .ready →
        a.session.metadata ∧ a.session.signerOk ∧ a.session.privateOpen ∧ a.session.reconciled) ∧
      (a.session.privateOpen → a.wsSubscribed) ∧ a.pending.length ≤ 8 := by
  rw [← and_assoc]
  induction calls using reverseRecOn with
  | nil => cases signerOk <;> exact ⟨⟨nofun, nofun⟩, Nat.zero_le 8⟩
  | append_singleton calls call ih =>
    obtain ⟨hsound, hlen⟩ := ih
    have hlost : Sound false ((initial signerOk).run calls).session.notePrivateLost :=
      ⟨(sound_stable.lost hsound).1, nofun⟩
    rw [run_append]
    obtain ⟨hnext, hroom⟩ := step_leads sound_stable hsound fun _ => hlost
    exact ⟨hnext, hroom hlen⟩

/-- Without a close of the socket a reconcile never restores readiness, whatever the answers. -/
theorem reconcile_never_ready {a : Adapter} (hsub : a.wsSubscribed) (g : Nat) (calls : List Call)
    (hopen : .link .closed ∉ calls) : (a.run (.link (.beginReconcile g) :: calls)).session.status ≠ .ready := by
  have hlost : Lost (a.run (.link (.beginReconcile g) :: calls)).wsSubscribed
      (a.run (.link (.beginReconcile g) :: calls)).session := by
    induction calls using reverseRecOn with
    | nil =>
      refine ⟨hsub, rfl, fun hready => ?_⟩
      change (if a.session.status = .failed then AdapterStatus.failed else .reconciling) = .ready at hready
      split at hready <;> cases hready
    | append_singleton calls call ih =>
      rw [← cons_append, run_append]
      refine (step_leads lost_stable (ih fun hmem => hopen (mem_append_left _ hmem)) fun heq => ?_).1
      exact absurd (heq ▸ mem_append_right calls mem_cons_self) hopen
  exact hlost.2.2

theorem reconcile_never_ready_answered : (connected.run (answered 2 4)).session.status ≠ .ready :=
  reconcile_never_ready (a := connected) (by decide +kernel) 2 _ (by simp)

theorem reconcile_stays_reconciling :
    connected.session.status = .ready ∧ connected.wsSubscribed ∧
      let b := connected.run (answered 2 4)
      .reconcileComplete 2 ∈ b.pending ∧ b.session.status = .reconciling := by
  decide +kernel

end Adapter

end SelfQuant.Hyperliquid
