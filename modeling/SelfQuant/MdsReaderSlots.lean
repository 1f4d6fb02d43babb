import SelfQuant.MdsSharedRing

namespace SelfQuant.Mds.Transport

structure Process where
  (pid startMarker : Nat)
deriving DecidableEq

structure AtomicSlot where
  state : ReaderState := .free
  (pid processStartMarker : Nat := 0)
  leaseToken : UInt64 := 0
  (cursor heartbeatNs : Nat := 0)
deriving DecidableEq

inductive RegisterPoint
  | take (index : Nat)
  | storePid (index : Nat) (token : UInt64)
  | storeMarker (index : Nat) (token : UInt64)
  | storeToken (index : Nat) (token : UInt64)
  | storeCursor (index : Nat) (token : UInt64)
  | storeHeartbeat (index : Nat) (token : UInt64)
  | storeActive (index : Nat) (token : UInt64)
  | returned (result : Except ApiError ReaderHandle)
deriving DecidableEq

inductive UnregisterPoint
  | loadToken (attempt : Nat)
  | loadState (attempt : Nat)
  | storeHeartbeat (attempt : Nat)
  | takeBack (attempt : Nat)
  | reloadToken
  | reloadState (tokenNow : UInt64)
  | restoreActive
  | clearToken
  | storeFree
  | lastToken
  | lastState
  | returned (result : Except ApiError Unit)
deriving DecidableEq

structure Seen where
  (pid marker : Nat)
  token : UInt64
deriving DecidableEq

inductive ReclaimPoint
  | loadState (index : Nat)
  | loadHeartbeat (index : Nat) (state : ReaderState)
  | loadPid (index : Nat)
  | loadMarker (index pid : Nat)
  | loadToken (index pid marker : Nat)
  | ask (index : Nat) (seen : Seen)
  | suspectActive (index : Nat) (seen : Seen)
  | reloadHeartbeat (index : Nat) (seen : Seen)
  | reloadToken (index : Nat) (seen : Seen) (refreshed : Nat)
  | reloadPid (index : Nat) (seen : Seen) (refreshed : Nat) (tokenNow : UInt64)
  | reloadMarker (index : Nat) (seen : Seen) (refreshed : Nat) (tokenNow : UInt64) (pidNow : Nat)
  | askAgain (index : Nat) (seen : Seen) (refreshed : Nat) (now : Seen)
  | restoreActive (index : Nat)
  | suspectInitializing (index : Nat)
  | loadInitializingPid (index : Nat)
  | loadInitializingMarker (index pid : Nat)
  | askInitializing (index pid marker : Nat)
  | restoreInitializing (index : Nat)
  | clearToken (index : Nat)
  | storeFree (index : Nat)
  | returned
deriving DecidableEq

inductive Call
  | register (process : Process) (nowNs : Nat) (point : RegisterPoint)
  | unregister (process : Process) (handle : ReaderHandle) (point : UnregisterPoint)
  | reclaim (nowNs leaseTimeoutNs : Nat) (point : ReclaimPoint)
deriving DecidableEq

structure Registration where
  call : Nat
  process : Process
  slot : Nat
  token : UInt64
deriving DecidableEq

/-- The reader slots of a ring and the calls that are under way. `held` are the registrations that have
neither been released nor, once their process was dead, been reclaimed. -/
structure Registry where
  maxReaders : Nat
  epoch : UInt64 := 0
  slots : Nat → AtomicSlot := fun _ => {}
  alive : Process → Bool
  calls : Nat → Option Call := fun _ => none
  held : List Registration := []

namespace Registry

variable (r : Registry)

def goto (id : Nat) (call : Call) : Registry := { r with calls := Function.update r.calls id (some call) }

def store (index : Nat) (slot : AtomicSlot) : Registry := { r with slots := Function.update r.slots index slot }

def hold (registration : Registration) : Registry := { r with held := registration :: r.held }

variable (handle : ReaderHandle)

def release : Registry :=
  { r with held := r.held.filter fun held => ¬(held.slot = handle.slot ∧ held.token = handle.leaseToken) }

def reclaim (index : Nat) : Registry :=
  { r with held := r.held.filter fun held => ¬(held.slot = index ∧ r.alive held.process = false) }

def processAlive (pid marker : Nat) : Bool := r.alive ⟨pid, marker⟩

/-- The seed makes the token, and the value is that of the writer's cursor. -/
def stepRegister (id : Nat) (process : Process) (nowNs : Nat) (seed : UInt64) (value : Nat) :
    RegisterPoint → Option Registry
  | .take index =>
    if index < r.maxReaders then
      if (r.slots index).state = .free then
        some (((r.store index { r.slots index with state := .initializing }).hold
          ⟨id, process, index, newToken seed⟩).goto id (.register process nowNs (.storePid index (newToken seed))))
      else some (r.goto id (.register process nowNs (.take (index + 1))))
    else some (r.goto id (.register process nowNs (.returned (.error ⟨.quotaExceeded, "reader registry is full"⟩))))
  | .storePid index token =>
    some ((r.store index { r.slots index with pid := process.pid }).goto id
      (.register process nowNs (.storeMarker index token)))
  | .storeMarker index token =>
    some ((r.store index { r.slots index with processStartMarker := process.startMarker }).goto id
      (.register process nowNs (.storeToken index token)))
  | .storeToken index token =>
    some ((r.store index { r.slots index with leaseToken := token }).goto id
      (.register process nowNs (.storeCursor index token)))
  | .storeCursor index token =>
    some ((r.store index { r.slots index with cursor := value }).goto id
      (.register process nowNs (.storeHeartbeat index token)))
  | .storeHeartbeat index token =>
    some ((r.store index { r.slots index with heartbeatNs := nowNs }).goto id
      (.register process nowNs (.storeActive index token)))
  | .storeActive index token =>
    some ((r.store index { r.slots index with state := .active }).goto id
      (.register process nowNs (.returned (.ok ⟨index, token, r.epoch⟩))))
  | .returned _ => none

def gone : Except ApiError Unit := .error ⟨.invalidHandle, "reader lease is no longer held"⟩

def inProgress : Except ApiError Unit := .error ⟨.quotaExceeded, "reader unregister is in progress"⟩

def startUnregister : UnregisterPoint :=
  if handle.slot ≥ r.maxReaders then .returned (.error ⟨.internalError, "reader slot is out of range"⟩)
  else if handle.leaseToken = 0 then .returned gone
  else .loadToken 0

def nextAttempt (attempt : Nat) : UnregisterPoint := if attempt + 1 < 8 then .loadToken (attempt + 1) else .lastToken

def afterReload (tokenNow : UInt64) (stateNow : ReaderState) : UnregisterPoint :=
  if tokenNow ≠ handle.leaseToken then
    if stateNow = .initializing ∧ tokenNow ≠ 0 then .restoreActive else .returned gone
  else if stateNow = .suspect then .returned inProgress
  else if stateNow ≠ .initializing then .returned gone
  else .clearToken

def stepUnregister (id : Nat) (process : Process) (handle : ReaderHandle) (value : Nat) :
    UnregisterPoint → Option Registry
  | .loadToken attempt =>
    some (r.goto id (.unregister process handle
      (if (r.slots handle.slot).leaseToken ≠ handle.leaseToken then .returned gone else .loadState attempt)))
  | .loadState attempt =>
    some (r.goto id (.unregister process handle
      (if (r.slots handle.slot).state = .suspect ∨ (r.slots handle.slot).state = .initializing then
        .returned inProgress
      else if (r.slots handle.slot).state ≠ .active then .returned gone
      else .storeHeartbeat attempt)))
  | .storeHeartbeat attempt =>
    some ((r.store handle.slot { r.slots handle.slot with heartbeatNs := value }).goto id
      (.unregister process handle (.takeBack attempt)))
  | .takeBack attempt =>
    if (r.slots handle.slot).state = .active then
      some ((r.store handle.slot { r.slots handle.slot with state := .initializing }).goto id
        (.unregister process handle .reloadToken))
    else some (r.goto id (.unregister process handle (nextAttempt attempt)))
  | .reloadToken => some (r.goto id (.unregister process handle (.reloadState (r.slots handle.slot).leaseToken)))
  | .reloadState tokenNow =>
    some (r.goto id (.unregister process handle (afterReload handle tokenNow (r.slots handle.slot).state)))
  | .restoreActive =>
    some ((r.store handle.slot { r.slots handle.slot with state := .active }).goto id
      (.unregister process handle (.returned gone)))
  | .clearToken =>
    some ((r.store handle.slot { r.slots handle.slot with leaseToken := 0 }).goto id
      (.unregister process handle .storeFree))
  | .storeFree =>
    some (((r.store handle.slot { r.slots handle.slot with state := .free }).release handle).goto id
      (.unregister process handle (.returned (.ok ()))))
  | .lastToken =>
    some (r.goto id (.unregister process handle
      (if (r.slots handle.slot).leaseToken ≠ handle.leaseToken then .returned gone else .lastState)))
  | .lastState =>
    some (r.goto id (.unregister process handle (.returned
      (if (r.slots handle.slot).state = .suspect ∨ (r.slots handle.slot).state = .initializing then inProgress
      else gone))))
  | .returned _ => none

def recent (nowNs leaseTimeoutNs heartbeat : Nat) : Bool :=
  decide (nowNs < heartbeat ∨ nowNs - heartbeat ≤ leaseTimeoutNs)

/-- The slot is not the one that was looked at, or its process may be alive. -/
def keeps (nowNs leaseTimeoutNs : Nat) (seen : Seen) (refreshed : Nat) (now : Seen) : Bool :=
  decide (now.token ≠ seen.token ∨ now.pid ≠ seen.pid ∨ now.marker ≠ seen.marker ∨
    recent nowNs leaseTimeoutNs refreshed ∨ r.processAlive now.pid now.marker)

def stepReclaim (id nowNs leaseTimeoutNs : Nat) : ReclaimPoint → Option Registry
  | .loadState index =>
    some (r.goto id (.reclaim nowNs leaseTimeoutNs
      (if index < r.maxReaders then
        if (r.slots index).state ≠ .active ∧ (r.slots index).state ≠ .initializing then .loadState (index + 1)
        else .loadHeartbeat index (r.slots index).state
      else .returned)))
  | .loadHeartbeat index state =>
    some (r.goto id (.reclaim nowNs leaseTimeoutNs
      (if recent nowNs leaseTimeoutNs (r.slots index).heartbeatNs then .loadState (index + 1)
      else if state = .active then .loadPid index
      else .suspectInitializing index)))
  | .loadPid index => some (r.goto id (.reclaim nowNs leaseTimeoutNs (.loadMarker index (r.slots index).pid)))
  | .loadMarker index pid =>
    some (r.goto id (.reclaim nowNs leaseTimeoutNs (.loadToken index pid (r.slots index).processStartMarker)))
  | .loadToken index pid marker =>
    some (r.goto id (.reclaim nowNs leaseTimeoutNs (.ask index ⟨pid, marker, (r.slots index).leaseToken⟩)))
  | .ask index seen =>
    some (r.goto id (.reclaim nowNs leaseTimeoutNs
      (if r.processAlive seen.pid seen.marker then .loadState (index + 1)
      else .suspectActive index seen)))
  | .suspectActive index seen =>
    if (r.slots index).state = .active then
      some ((r.store index { r.slots index with state := .suspect }).goto id
        (.reclaim nowNs leaseTimeoutNs (.reloadHeartbeat index seen)))
    else some (r.goto id (.reclaim nowNs leaseTimeoutNs (.loadState (index + 1))))
  | .reloadHeartbeat index seen =>
    some (r.goto id (.reclaim nowNs leaseTimeoutNs (.reloadToken index seen (r.slots index).heartbeatNs)))
  | .reloadToken index seen refreshed =>
    some (r.goto id (.reclaim nowNs leaseTimeoutNs (.reloadPid index seen refreshed (r.slots index).leaseToken)))
  | .reloadPid index seen refreshed tokenNow =>
    some (r.goto id (.reclaim nowNs leaseTimeoutNs (.reloadMarker index seen refreshed tokenNow (r.slots index).pid)))
  | .reloadMarker index seen refreshed tokenNow pidNow =>
    some (r.goto id (.reclaim nowNs leaseTimeoutNs
      (.askAgain index seen refreshed ⟨pidNow, (r.slots index).processStartMarker, tokenNow⟩)))
  | .askAgain index seen refreshed now =>
    some (r.goto id (.reclaim nowNs leaseTimeoutNs
      (if r.keeps nowNs leaseTimeoutNs seen refreshed now then .restoreActive index
      else .clearToken index)))
  | .restoreActive index =>
    some ((r.store index { r.slots index with state := .active }).goto id
      (.reclaim nowNs leaseTimeoutNs (.loadState (index + 1))))
  | .suspectInitializing index =>
    if (r.slots index).state = .initializing then
      some ((r.store index { r.slots index with state := .suspect }).goto id
        (.reclaim nowNs leaseTimeoutNs (.loadInitializingPid index)))
    else some (r.goto id (.reclaim nowNs leaseTimeoutNs (.loadState (index + 1))))
  | .loadInitializingPid index =>
    some (r.goto id (.reclaim nowNs leaseTimeoutNs (.loadInitializingMarker index (r.slots index).pid)))
  | .loadInitializingMarker index pid =>
    some (r.goto id (.reclaim nowNs leaseTimeoutNs (.askInitializing index pid (r.slots index).processStartMarker)))
  | .askInitializing index pid marker =>
    some (r.goto id (.reclaim nowNs leaseTimeoutNs
      (if !r.processAlive pid marker then .clearToken index else .restoreInitializing index)))
  | .restoreInitializing index =>
    some ((r.store index { r.slots index with state := .initializing }).goto id
      (.reclaim nowNs leaseTimeoutNs (.loadState (index + 1))))
  | .clearToken index =>
    some ((r.store index { r.slots index with leaseToken := 0 }).goto id
      (.reclaim nowNs leaseTimeoutNs (.storeFree index)))
  | .storeFree index =>
    some (((r.store index { r.slots index with state := .free }).reclaim index).goto id
      (.reclaim nowNs leaseTimeoutNs (.loadState (index + 1))))
  | .returned => none

end Registry

/-- A call of a process ends with it. -/
def Call.runs (alive : Process → Bool) : Call → Bool
  | .register process _ _ => alive process
  | .unregister process _ _ => alive process
  | .reclaim .. => true

inductive RegistryEvent
  | register (id : Nat) (process : Process) (nowNs : Nat)
  | unregister (id : Nat) (process : Process) (handle : ReaderHandle)
  | reclaim (id nowNs leaseTimeoutNs : Nat)
  | advance (id : Nat) (seed : UInt64) (value : Nat)
  | die (process : Process)

namespace Registry

def stepCall (r : Registry) (id : Nat) (seed : UInt64) (value : Nat) : Call → Option Registry
  | .register process nowNs point => r.stepRegister id process nowNs seed value point
  | .unregister process handle point => r.stepUnregister id process handle value point
  | .reclaim nowNs leaseTimeoutNs point => r.stepReclaim id nowNs leaseTimeoutNs point

/-- A call begins, goes on by one access to a slot, or a process dies. -/
def step (r : Registry) : RegistryEvent → Option Registry
  | .register id process nowNs =>
    if r.calls id = none ∧ r.alive process then some (r.goto id (.register process nowNs (.take 0))) else none
  | .unregister id process handle =>
    if r.calls id = none ∧ r.alive process then
      some (r.goto id (.unregister process handle (r.startUnregister handle)))
    else none
  | .reclaim id nowNs leaseTimeoutNs =>
    if r.calls id = none then some (r.goto id (.reclaim nowNs leaseTimeoutNs (.loadState 0))) else none
  | .advance id seed value =>
    match r.calls id with
    | none => none
    | some call => if call.runs r.alive then r.stepCall id seed value call else none
  | .die process => some { r with alive := Function.update r.alive process false }

def run (r : Registry) (events : List RegistryEvent) : Option Registry := events.foldlM step r

end Registry

end SelfQuant.Mds.Transport
