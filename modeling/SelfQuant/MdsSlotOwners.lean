import SelfQuant.ExclusiveClaims
import SelfQuant.MdsReaderSlots

namespace SelfQuant.Mds.Transport

open Function ExclusiveClaims Option

def AtomicSlot.Of (slot : AtomicSlot) (process : Process) : Prop :=
  slot.pid = process.pid ∧ slot.processStartMarker = process.startMarker

def RegisterPoint.claims : RegisterPoint → Option Nat
  | .take _ => none
  | .storePid index _ => some index
  | .storeMarker index _ => some index
  | .storeToken index _ => some index
  | .storeCursor index _ => some index
  | .storeHeartbeat index _ => some index
  | .storeActive index _ => some index
  | .returned _ => none

def UnregisterPoint.busy : UnregisterPoint → Bool
  | .reloadToken => true
  | .reloadState _ => true
  | .restoreActive => true
  | .clearToken => true
  | .storeFree => true
  | _ => false

def ReclaimPoint.claims : ReclaimPoint → Option Nat
  | .reloadHeartbeat index _ => some index
  | .reloadToken index _ _ => some index
  | .reloadPid index _ _ _ => some index
  | .reloadMarker index _ _ _ _ => some index
  | .askAgain index _ _ _ => some index
  | .restoreActive index => some index
  | .loadInitializingPid index => some index
  | .loadInitializingMarker index _ => some index
  | .askInitializing index _ _ => some index
  | .restoreInitializing index => some index
  | .clearToken index => some index
  | .storeFree index => some index
  | _ => none

def Call.claims : Call → Option Nat
  | .register _ _ point => point.claims
  | .unregister _ handle point => if point.busy then some handle.slot else none
  | .reclaim _ _ point => point.claims

def RegisterPoint.Fits (held : Registration) (slot : AtomicSlot) : RegisterPoint → Prop
  | .storePid _ token => held.token = token
  | .storeMarker _ token => held.token = token ∧ slot.pid = held.process.pid
  | .storeToken _ token => held.token = token ∧ slot.Of held.process
  | .storeCursor .. => slot.leaseToken = held.token ∧ slot.Of held.process
  | .storeHeartbeat .. => slot.leaseToken = held.token ∧ slot.Of held.process
  | .storeActive .. => slot.leaseToken = held.token ∧ slot.Of held.process
  | _ => True

def UnregisterPoint.Fits (handle : ReaderHandle) (held : Registration) (slot : AtomicSlot) : UnregisterPoint → Prop
  | .reloadToken => slot.leaseToken = held.token
  | .reloadState tokenNow => slot.leaseToken = held.token ∧ tokenNow = held.token
  | .restoreActive => slot.leaseToken = held.token
  | .clearToken => handle.leaseToken = held.token
  | .storeFree => handle.leaseToken = held.token
  | _ => True

variable (alive : Process → Bool)

/-- What has been read of a suspected slot is what stands there, and a slot that is about to be freed
belongs to a dead process. -/
def ReclaimPoint.Fits (held : Registration) (slot : AtomicSlot) : ReclaimPoint → Prop
  | .reloadHeartbeat .. => slot.leaseToken = held.token ∧ slot.Of held.process
  | .reloadToken .. => slot.leaseToken = held.token ∧ slot.Of held.process
  | .reloadPid .. => slot.leaseToken = held.token ∧ slot.Of held.process
  | .reloadMarker _ _ _ _ pidNow => (slot.leaseToken = held.token ∧ slot.Of held.process) ∧ pidNow = held.process.pid
  | .askAgain _ _ _ now =>
    (slot.leaseToken = held.token ∧ slot.Of held.process) ∧ ⟨now.pid, now.marker⟩ = held.process
  | .restoreActive _ => slot.leaseToken = held.token ∧ slot.Of held.process
  | .loadInitializingPid _ => alive held.process → slot.Of held.process
  | .loadInitializingMarker _ pid => alive held.process → slot.Of held.process ∧ pid = held.process.pid
  | .askInitializing _ pid marker => alive held.process → slot.Of held.process ∧ ⟨pid, marker⟩ = held.process
  | .restoreInitializing _ => alive held.process → slot.Of held.process
  | .clearToken _ => alive held.process = false
  | .storeFree _ => alive held.process = false
  | _ => True

def Call.Fits (held : Registration) (slot : AtomicSlot) : Call → Prop
  | .register process _ point => slot.state = .initializing ∧ held.process = process ∧ point.Fits held slot
  | .unregister _ handle point => slot.state = .initializing ∧ slot.Of held.process ∧ point.Fits handle held slot
  | .reclaim _ _ point => slot.state = .suspect ∧ point.Fits alive held slot

theorem Call.Fits.withHeartbeat {alive : Process → Bool} {held : Registration} {slot : AtomicSlot} {call : Call}
    (h : call.Fits alive held slot) (heartbeat : Nat) : call.Fits alive held { slot with heartbeatNs := heartbeat } := by
  cases call with
  | register process nowNs point => cases point <;> exact h
  | unregister process handle point => cases point <;> exact h
  | reclaim nowNs lease point => cases point <;> exact h

/-- A slot that no call claims and that is taken: it is active, or a call on it has been left. -/
inductive Quiet (held : Registration) (slot : AtomicSlot) : Prop
  | active (state : slot.state = .active) (token : slot.leaseToken = held.token) (process : slot.Of held.process)
  | left (state : slot.state = .initializing) (process : alive held.process → slot.Of held.process)

namespace Registry

variable {r : Registry} {id i j : Nat} {call call' : Call} {slot : AtomicSlot}

def claims (r : Registry) (id : Nat) : Option Nat :=
  (r.calls id).bind fun call => if call.runs r.alive then call.claims else none

def heldAt (r : Registry) (i : Nat) : List Registration := r.held.filter (·.slot = i)

/-- A slot is free, or it is taken by one registration and at most one call is at it. -/
inductive Phase (r : Registry) (i : Nat) : Prop
  | free (state : (r.slots i).state = .free) (unclaimed : Unclaimed r.claims i) (held : r.heldAt i = [])
  | quiet (held : Registration) (at_ : r.heldAt i = [held]) (unclaimed : Unclaimed r.claims i)
      (quiet : Quiet r.alive held (r.slots i))
  | claimed (held : Registration) (at_ : r.heldAt i = [held]) (id : Nat) (call : Call)
      (call_eq : r.calls id = some call) (only : OnlyClaim r.claims i id) (fits : call.Fits r.alive held (r.slots i))

def Inv (r : Registry) : Prop := ∀ i, Phase r i

theorem claims_eq (hcall : r.calls id = some call) (hruns : call.runs r.alive) : r.claims id = call.claims := by
  unfold claims
  rw [hcall, bind_some, if_pos hruns]

theorem claims_of_none (hcall : r.calls id = none) : r.claims id = none := by
  unfold claims
  rw [hcall]
  rfl

theorem runs_of_claims (hcall : r.calls id = some call) (h : r.claims id = some i) :
    call.runs r.alive ∧ call.claims = some i := by
  unfold claims at h
  rw [hcall, bind_some] at h
  split at h
  next hruns => exact ⟨hruns, h⟩
  next => cases h

structure Moves (r r' : Registry) (id j : Nat) (call' : Call) : Prop where
  slots : ∀ i, i ≠ j → r'.slots i = r.slots i
  held : ∀ i, i ≠ j → r'.heldAt i = r.heldAt i
  alive : r'.alive = r.alive
  calls : r'.calls = update r.calls id (some call')
  runs : call'.runs r.alive

variable {r' : Registry}

theorem Moves.claims (h : Moves r r' id j call') : r'.claims = update r.claims id call'.claims := by
  have hcall : r'.calls id = some call' := by rw [h.calls, update_self]
  funext other
  by_cases hoth : other = id
  · subst hoth
    rw [update_self, claims_eq hcall (by rw [h.alive]; exact h.runs)]
  · rw [update_of_ne hoth]
    unfold Registry.claims
    rw [h.calls, update_of_ne hoth, h.alive]

theorem Inv.owner (h : Inv r) (hcall : r.calls id = some call) (hruns : call.runs r.alive)
    (hclaims : call.claims = some j) :
    ∃ held, r.heldAt j = [held] ∧ OnlyClaim r.claims j id ∧ call.Fits r.alive held (r.slots j) := by
  have hid : r.claims id = some j := (claims_eq hcall hruns).trans hclaims
  cases h j with
  | free _ unclaimed => exact absurd hid (unclaimed id)
  | quiet _ _ unclaimed => exact absurd hid (unclaimed id)
  | claimed held at_ other call' call_eq only fits =>
    have hoth := only.unique id hid
    subst hoth
    obtain rfl := some.inj (call_eq.symm.trans hcall)
    exact ⟨held, at_, only, fits⟩

theorem Moves.phase_other (hm : Moves r r' id j call') (h : Phase r i) (hij : i ≠ j)
    (hbef : r.claims id ≠ some i) (haft : call'.claims ≠ some i) : Phase r' i := by
  have hsl := hm.slots i hij
  have hhd := hm.held i hij
  have hclaims := hm.claims
  cases h with
  | free state unclaimed held =>
    exact .free (by rw [hsl]; exact state) (by rw [hclaims]; exact unclaimed.update haft) (by rw [hhd]; exact held)
  | quiet held at_ unclaimed quiet =>
    exact .quiet held (by rw [hhd]; exact at_) (by rw [hclaims]; exact unclaimed.update haft)
      (by rw [hsl, hm.alive]; exact quiet)
  | claimed held at_ other call call_eq only fits =>
    have hne : other ≠ id := by
      rintro rfl
      exact hbef only.claimed
    exact .claimed held (by rw [hhd]; exact at_) other call (by rw [hm.calls, update_of_ne hne]; exact call_eq)
      (by rw [hclaims]; exact only.other hne haft) (by rw [hsl, hm.alive]; exact fits)

theorem Inv.move (h : Inv r) (hm : Moves r r' id j call') (hbef : r.claims id = none ∨ r.claims id = some j)
    (haft : call'.claims = none ∨ call'.claims = some j) (hj : Phase r' j) : Inv r' := by
  intro i
  by_cases hij : i = j
  · subst hij
    exact hj
  · have hne : ∀ {c : Option Nat}, c = none ∨ c = some j → c ≠ some i := by
      rintro _ (rfl | rfl) hc
      · cases hc
      · exact hij (some.inj hc).symm
    exact hm.phase_other (h i) hij (hne hbef) (hne haft)

section Claiming

variable {r' : Registry} (h : Inv r) (hm : Moves r r' id j call')
include h hm

section

variable (hcall : r.calls id = some call) (hruns : call.runs r.alive) (hclaims : call.claims = some j)

include hcall hruns hclaims

theorem Inv.keep (hcl' : call'.claims = some j) (hhd : r'.heldAt j = r.heldAt j)
    (hft : ∀ held, call.Fits r.alive held (r.slots j) → call'.Fits r.alive held (r'.slots j)) : Inv r' := by
  obtain ⟨held, at_, only, fits⟩ := h.owner hcall hruns hclaims
  have hid := claims_eq hcall hruns
  refine h.move hm (.inr (hid.trans hclaims)) (.inr hcl') ?_
  refine .claimed held (hhd.trans at_) id call' (by rw [hm.calls, update_self]) ?_ ?_
  · rw [hm.claims, hcl']
    exact only.keep
  · rw [hm.alive]
    exact hft held fits

theorem Inv.leave (hcl' : call'.claims = none)
    (hj : ∀ held, r.heldAt j = [held] → call.Fits r.alive held (r.slots j) → Unclaimed r'.claims j → Phase r' j) :
    Inv r' := by
  obtain ⟨held, at_, only, fits⟩ := h.owner hcall hruns hclaims
  have hid := claims_eq hcall hruns
  refine h.move hm (.inr (hid.trans hclaims)) (.inl hcl') (hj held at_ fits ?_)
  rw [hm.claims, hcl']
  exact only.drop (some_ne_none j).symm

theorem Inv.settle (hcl' : call'.claims = none) (hhd : r'.heldAt j = r.heldAt j)
    (hqt : ∀ held, call.Fits r.alive held (r.slots j) → Quiet r.alive held (r'.slots j)) : Inv r' :=
  h.leave hm hcall hruns hclaims hcl' fun held at_ fits unclaimed =>
    .quiet held (hhd.trans at_) unclaimed (by rw [hm.alive]; exact hqt held fits)

end

theorem Inv.claim (held : Registration) (hid : r.claims id = none) (huncl : Unclaimed r.claims j)
    (hcl' : call'.claims = some j)
    (hhd : r'.heldAt j = [held]) (hft : call'.Fits r.alive held (r'.slots j)) : Inv r' := by
  refine h.move hm (.inl hid) (.inr hcl') ?_
  refine .claimed held hhd id call' (by rw [hm.calls, update_self]) ?_ (by rw [hm.alive]; exact hft)
  rw [hm.claims, hcl']
  exact huncl.claim

/-- The call goes on without a claim, and no more than the heartbeat of a slot changes. -/
theorem Inv.idle (hid : r.claims id = none) (hcl' : call'.claims = none) (hhd : r'.heldAt j = r.heldAt j)
    (hsl : ∃ heartbeat, r'.slots j = { r.slots j with heartbeatNs := heartbeat }) : Inv r' := by
  obtain ⟨heartbeat, hsl⟩ := hsl
  have hsub : ∀ other, r'.claims other = some j → r.claims other = some j := by
    rw [hm.claims, hcl']
    exact update_sub (some_ne_none j).symm
  refine h.move hm (.inl hid) (.inl hcl') ?_
  cases h j with
  | free state unclaimed held => exact .free (by rw [hsl]; exact state) (unclaimed.mono hsub) (hhd.trans held)
  | quiet held at_ unclaimed quiet =>
    refine .quiet held (hhd.trans at_) (unclaimed.mono hsub) ?_
    rw [hsl, hm.alive]
    cases quiet with
    | active state token process => exact .active state token process
    | left state process => exact .left state process
  | claimed held at_ other call call_eq only fits =>
    have hne : other ≠ id := by
      rintro rfl
      exact (some_ne_none j).symm (hid.symm.trans only.claimed)
    refine .claimed held (hhd.trans at_) other call (by rw [hm.calls, update_of_ne hne]; exact call_eq)
      (only.mono hsub ?_) (by rw [hsl, hm.alive]; exact fits.withHeartbeat heartbeat)
    rw [hm.claims, update_of_ne hne]
    exact only.claimed

end Claiming

theorem goto_moves (hruns : call'.runs r.alive) : Moves r (r.goto id call') id j call' :=
  ⟨fun _ _ => rfl, fun _ _ => rfl, rfl, rfl, hruns⟩

theorem store_moves (hruns : call'.runs r.alive) : Moves r ((r.store j slot).goto id call') id j call' :=
  ⟨fun _ hij => update_of_ne hij _ _, fun _ _ => rfl, rfl, rfl, hruns⟩

section Access

variable (h : Inv r) (hcall : r.calls id = some call) (hruns : call.runs r.alive) (hruns' : call'.runs r.alive)
include h hcall hruns hruns'

theorem Inv.pass (hclaims : call.claims = none) (hcl' : call'.claims = none) : Inv (r.goto id call') :=
  h.idle (goto_moves hruns') ((claims_eq hcall hruns).trans hclaims) hcl' rfl ⟨(r.slots 0).heartbeatNs, rfl⟩

theorem Inv.seize (hclaims : call.claims = none) (held : Registration) (huncl : Unclaimed r.claims j)
    (hcl' : call'.claims = some j) (hhd : r.heldAt j = [held]) (hft : call'.Fits r.alive held slot) :
    Inv ((r.store j slot).goto id call') := by
  refine h.claim (store_moves hruns') held ((claims_eq hcall hruns).trans hclaims) huncl hcl' hhd ?_
  show call'.Fits r.alive held (update r.slots j slot j)
  rw [update_self]
  exact hft

section

variable (hclaims : call.claims = some j)

include hclaims

theorem Inv.load (hcl' : call'.claims = some j)
    (hft : ∀ held, call.Fits r.alive held (r.slots j) → call'.Fits r.alive held (r.slots j)) :
    Inv (r.goto id call') :=
  h.keep (goto_moves hruns') hcall hruns hclaims hcl' rfl hft

theorem Inv.write (hcl' : call'.claims = some j)
    (hft : ∀ held, call.Fits r.alive held (r.slots j) → call'.Fits r.alive held slot) :
    Inv ((r.store j slot).goto id call') :=
  h.keep (store_moves hruns') hcall hruns hclaims hcl' rfl fun held fits => by
    show call'.Fits r.alive held (update r.slots j slot j)
    rw [update_self]
    exact hft held fits

theorem Inv.finish (hcl' : call'.claims = none)
    (hqt : ∀ held, call.Fits r.alive held (r.slots j) → Quiet r.alive held slot) :
    Inv ((r.store j slot).goto id call') :=
  h.settle (store_moves hruns') hcall hruns hclaims hcl' rfl fun held fits => by
    show Quiet r.alive held (update r.slots j slot j)
    rw [update_self]
    exact hqt held fits

end

end Access

end Registry

end SelfQuant.Mds.Transport

namespace SelfQuant.Mds.Transport.Registry

open List Function ExclusiveClaims

variable {r r' : Registry} {id i j : Nat} {process : Process} {handle : ReaderHandle} {seed : UInt64}
  {nowNs lease value : Nat}

theorem Phase.of_free (h : Phase r i) (hst : (r.slots i).state = .free) : Unclaimed r.claims i ∧ r.heldAt i = [] := by
  cases h with
  | free _ unclaimed held => exact ⟨unclaimed, held⟩
  | quiet held _ _ quiet =>
    cases quiet with
    | active state | left state => exact absurd (hst.symm.trans state) (by decide)
  | claimed held _ _ call _ _ fits =>
    cases call with
    | register | unregister | reclaim => exact absurd (hst.symm.trans fits.1) (by decide)

theorem Phase.of_active (h : Phase r i) (hst : (r.slots i).state = .active) :
    Unclaimed r.claims i ∧ ∃ held, r.heldAt i = [held] ∧ (r.slots i).leaseToken = held.token ∧
      (r.slots i).Of held.process := by
  cases h with
  | free state => exact absurd (hst.symm.trans state) (by decide)
  | quiet held at_ unclaimed quiet =>
    cases quiet with
    | active state token process => exact ⟨unclaimed, held, at_, token, process⟩
    | left state => exact absurd (hst.symm.trans state) (by decide)
  | claimed held _ _ call _ _ fits =>
    cases call with
    | register | unregister | reclaim => exact absurd (hst.symm.trans fits.1) (by decide)

/-- No call of a live process is between taking the slot and finishing with it. -/
structure Abandoned (r : Registry) (i : Nat) : Prop where
  register : ∀ id process nowNs point, r.calls id = some (.register process nowNs point) →
    point.claims = some i → r.alive process = false
  unregister : ∀ id process handle point, r.calls id = some (.unregister process handle point) →
    point.busy = true → handle.slot = i → r.alive process = false

theorem Phase.of_initializing (h : Phase r i) (hst : (r.slots i).state = .initializing) (ha : Abandoned r i) :
    Unclaimed r.claims i ∧ ∃ held, r.heldAt i = [held] ∧ (r.alive held.process → (r.slots i).Of held.process) := by
  cases h with
  | free state => exact absurd (hst.symm.trans state) (by decide)
  | quiet held at_ unclaimed quiet =>
    cases quiet with
    | active state => exact absurd (hst.symm.trans state) (by decide)
    | left _ process => exact ⟨unclaimed, held, at_, process⟩
  | claimed held _ id call call_eq only fits =>
    obtain ⟨hruns, hclaims⟩ := runs_of_claims call_eq only.claimed
    cases call with
    | register process nowNs point =>
      exact absurd (hruns.symm.trans (ha.register id process nowNs point call_eq hclaims)) (by decide)
    | unregister process handle point =>
      rw [Call.claims] at hclaims
      split at hclaims
      next hbusy =>
        have hde := ha.unregister id process handle point call_eq hbusy (Option.some.inj hclaims)
        exact absurd (hruns.symm.trans hde) (by decide)
      next => cases hclaims
    | reclaim => exact absurd (hst.symm.trans fits.1) (by decide)

theorem heldAt_hold (held : Registration) :
    (r.hold held).heldAt i = if held.slot = i then held :: r.heldAt i else r.heldAt i := by
  unfold heldAt hold
  rw [filter_cons]
  simp only [decide_eq_true_eq]

theorem Inv.stepRegister {point : RegisterPoint} (h : Inv r)
    (hcall : r.calls id = some (.register process nowNs point)) (hruns : r.alive process)
    (hs : r.stepRegister id process nowNs seed value point = some r') : Inv r' := by
  have hruns' : ∀ point, Call.runs r.alive (.register process nowNs point) := fun _ => hruns
  cases point with
  | take index =>
    simp only [Registry.stepRegister] at hs
    split at hs
    next =>
      split at hs
      next hfe =>
        cases hs
        obtain ⟨unclaimed, hhd⟩ := (h index).of_free hfe
        refine h.claim (j := index) ⟨?_, ?_, rfl, rfl, hruns⟩ ⟨id, process, index, newToken seed⟩
          ((claims_eq hcall hruns).trans rfl) unclaimed rfl ?_ ?_
        · exact fun i hij => update_of_ne hij _ _
        · intro i hij
          exact (heldAt_hold _).trans (if_neg (Ne.symm hij))
        · refine (heldAt_hold _).trans ((if_pos rfl).trans ?_)
          exact congrArg (_ :: ·) hhd
        · show Call.Fits _ _ (update r.slots index _ index) _
          rw [update_self]
          exact ⟨rfl, rfl, rfl⟩
      next =>
        cases hs
        exact h.pass hcall hruns (hruns' _) rfl rfl
    next =>
      cases hs
      exact h.pass hcall hruns (hruns' _) rfl rfl
  | storePid index token =>
    cases hs
    exact h.write hcall hruns (hruns' _) rfl rfl fun held fits => ⟨fits.1, fits.2.1, fits.2.2, by rw [fits.2.1]⟩
  | storeMarker index token =>
    cases hs
    exact h.write hcall hruns (hruns' _) rfl rfl fun held fits =>
      ⟨fits.1, fits.2.1, fits.2.2.1, fits.2.2.2, by rw [fits.2.1]⟩
  | storeToken index token =>
    cases hs
    exact h.write hcall hruns (hruns' _) rfl rfl fun held fits => ⟨fits.1, fits.2.1, fits.2.2.1.symm, fits.2.2.2⟩
  | storeCursor | storeHeartbeat =>
    cases hs
    exact h.write hcall hruns (hruns' _) rfl rfl fun held fits => fits
  | storeActive index token =>
    cases hs
    exact h.finish hcall hruns (hruns' _) rfl rfl fun held fits => .active rfl fits.2.2.1 fits.2.2.2
  | returned result => cases hs

variable {p : Registration → Bool} {held : Registration}

theorem slot_of_heldAt (h : held ∈ r.heldAt i) : held.slot = i := by
  simpa using (mem_filter.mp h).2

theorem heldAt_strike_other (hp : ∀ held, held.slot = i → p held = true) :
    (r.held.filter p).filter (·.slot = i) = r.heldAt i := by
  rw [filter_comm]
  exact filter_eq_self.mpr fun held hhd => hp held (slot_of_heldAt hhd)

theorem heldAt_strike (hhd : r.heldAt i = [held])
    (hp : p held = false) : (r.held.filter p).filter (·.slot = i) = [] := by
  rw [filter_comm]
  show (r.heldAt i).filter p = []
  rw [hhd, filter_cons_of_neg (by rw [hp]; exact Bool.false_ne_true), filter_nil]

theorem Inv.strike {call call' : Call} {slot : AtomicSlot} (h : Inv r) (hcall : r.calls id = some call)
    (hruns : call.runs r.alive) (hruns' : call'.runs r.alive) (hclaims : call.claims = some j)
    (hcl' : call'.claims = none) (hst : slot.state = .free) (hoth : ∀ held, held.slot ≠ j → p held = true)
    (hp : ∀ held, held.slot = j → call.Fits r.alive held (r.slots j) → p held = false) :
    Inv ({ r.store j slot with held := r.held.filter p }.goto id call') := by
  refine h.leave (j := j) ⟨?_, ?_, rfl, rfl, hruns'⟩ hcall hruns hclaims hcl' fun held at_ fits unclaimed => ?_
  · exact fun i hij => update_of_ne hij _ _
  · exact fun i hij => heldAt_strike_other fun held hsl => hoth held (hsl ▸ hij)
  · have hsl : held.slot = j := slot_of_heldAt (by rw [at_]; exact mem_singleton_self held)
    refine .free ?_ unclaimed (heldAt_strike at_ (hp held hsl fits))
    show (update r.slots j slot j).state = _
    rw [update_self]
    exact hst

theorem Inv.stepUnregister {point : UnregisterPoint} (h : Inv r)
    (hcall : r.calls id = some (.unregister process handle point)) (hruns : r.alive process)
    (hs : r.stepUnregister id process handle value point = some r') : Inv r' := by
  have hruns' : ∀ point, Call.runs r.alive (.unregister process handle point) := fun _ => hruns
  cases point with
  | loadToken | lastToken =>
    cases hs
    exact h.pass hcall hruns (hruns' _) rfl (by split <;> rfl)
  | loadState attempt =>
    cases hs
    exact h.pass hcall hruns (hruns' _) rfl (by split <;> [rfl; split <;> rfl])
  | storeHeartbeat attempt =>
    cases hs
    refine h.idle (store_moves (hruns' _)) ((claims_eq hcall hruns).trans rfl) rfl rfl ⟨value, ?_⟩
    exact update_self ..
  | takeBack attempt =>
    simp only [Registry.stepUnregister] at hs
    split at hs
    next hact =>
      cases hs
      obtain ⟨unclaimed, held, at_, token, process⟩ := (h handle.slot).of_active hact
      exact h.seize hcall hruns (hruns' _) rfl held unclaimed rfl at_ ⟨rfl, process, token⟩
    next =>
      cases hs
      exact h.pass hcall hruns (hruns' _) rfl (by unfold nextAttempt; split <;> rfl)
  | reloadToken =>
    cases hs
    exact h.load hcall hruns (hruns' _) rfl rfl fun held fits => ⟨fits.1, fits.2.1, fits.2.2, fits.2.2⟩
  | reloadState tokenNow =>
    -- the call keeps the slot if the token is still there, and else leaves it or makes it active again
    have hleave : ∀ result, Inv (r.goto id (.unregister process handle (.returned result))) := fun result =>
      h.settle (goto_moves (hruns' _)) hcall hruns rfl rfl rfl fun held fits => .left fits.1 fun _ => fits.2.1
    cases hs
    unfold afterReload
    split
    next =>
      split
      next => exact h.load hcall hruns (hruns' _) rfl rfl fun held fits => ⟨fits.1, fits.2.1, fits.2.2.1⟩
      next => exact hleave _
    next htok =>
      split
      next => exact hleave _
      split
      next => exact hleave _
      exact h.load hcall hruns (hruns' _) rfl rfl fun held fits =>
        ⟨fits.1, fits.2.1, (not_not.mp htok).symm.trans fits.2.2.2⟩
  | restoreActive =>
    cases hs
    exact h.finish hcall hruns (hruns' _) rfl rfl fun held fits => .active rfl fits.2.2 fits.2.1
  | clearToken =>
    cases hs
    exact h.write hcall hruns (hruns' _) rfl rfl fun held fits => fits
  | storeFree =>
    cases hs
    exact h.strike hcall hruns (hruns' _) rfl rfl rfl (fun held hne => decide_eq_true fun hboth => hne hboth.1)
      fun held hsl fits => decide_eq_false fun hnot => hnot ⟨hsl, fits.2.2.symm⟩
  | lastState =>
    cases hs
    exact h.pass hcall hruns (hruns' _) rfl rfl
  | returned result => cases hs

theorem Inv.stepReclaim {point : ReclaimPoint} (h : Inv r)
    (hcall : r.calls id = some (.reclaim nowNs lease point))
    (hcrf : ∀ index, point = .suspectInitializing index → (r.slots index).state = .initializing → Abandoned r index)
    (hs : r.stepReclaim id nowNs lease point = some r') : Inv r' := by
  cases point with
  | loadState index =>
    cases hs
    exact h.pass hcall rfl rfl rfl (by split <;> [split <;> rfl; rfl])
  | loadHeartbeat index state =>
    cases hs
    exact h.pass hcall rfl rfl rfl (by split <;> [rfl; split <;> rfl])
  | loadPid | loadMarker | loadToken =>
    cases hs
    exact h.pass hcall rfl rfl rfl rfl
  | ask index seen =>
    cases hs
    exact h.pass hcall rfl rfl rfl (by split <;> rfl)
  | suspectActive index seen =>
    simp only [Registry.stepReclaim] at hs
    split at hs
    next hact =>
      cases hs
      obtain ⟨unclaimed, held, at_, token, process⟩ := (h index).of_active hact
      exact h.seize hcall rfl rfl rfl held unclaimed rfl at_ ⟨rfl, token, process⟩
    next =>
      cases hs
      exact h.pass hcall rfl rfl rfl rfl
  | reloadHeartbeat | reloadToken =>
    cases hs
    exact h.load hcall rfl rfl rfl rfl fun held fits => fits
  | reloadPid index seen refreshed tokenNow =>
    cases hs
    exact h.load hcall rfl rfl rfl rfl fun held fits => ⟨fits.1, fits.2, fits.2.2.1⟩
  | reloadMarker index seen refreshed tokenNow pidNow =>
    cases hs
    refine h.load hcall rfl rfl rfl rfl fun held fits => ⟨fits.1, fits.2.1, ?_⟩
    rw [fits.2.2, fits.2.1.2.2]
  | askAgain index seen refreshed now =>
    cases hs
    split
    next => exact h.load hcall rfl rfl rfl rfl fun held fits => ⟨fits.1, fits.2.1⟩
    next hfe =>
    refine h.load hcall rfl rfl rfl rfl fun held fits => ⟨fits.1, ?_⟩
    have hde : ¬r.alive ⟨now.pid, now.marker⟩ = true := by
      intro halive
      exact hfe (decide_eq_true (.inr (.inr (.inr (.inr halive)))))
    rw [fits.2.2] at hde
    exact Bool.eq_false_of_not_eq_true hde
  | restoreActive index =>
    cases hs
    exact h.finish hcall rfl rfl rfl rfl fun held fits => .active rfl fits.2.1 fits.2.2
  | suspectInitializing index =>
    simp only [Registry.stepReclaim] at hs
    split at hs
    next hinit =>
      cases hs
      obtain ⟨unclaimed, held, at_, process⟩ := (h index).of_initializing hinit (hcrf index rfl hinit)
      exact h.seize hcall rfl rfl rfl held unclaimed rfl at_ ⟨rfl, process⟩
    next =>
      cases hs
      exact h.pass hcall rfl rfl rfl rfl
  | loadInitializingPid index =>
    cases hs
    exact h.load hcall rfl rfl rfl rfl fun held fits => ⟨fits.1, fun halive => ⟨fits.2 halive, (fits.2 halive).1⟩⟩
  | loadInitializingMarker index pid =>
    cases hs
    refine h.load hcall rfl rfl rfl rfl fun held fits => ⟨fits.1, fun halive => ⟨(fits.2 halive).1, ?_⟩⟩
    rw [(fits.2 halive).2, (fits.2 halive).1.2]
  | askInitializing index pid marker =>
    cases hs
    split
    next hde =>
      refine h.load hcall rfl rfl rfl rfl fun held fits => ⟨fits.1, ?_⟩
      refine Bool.eq_false_of_not_eq_true fun halive => ?_
      have hask : r.processAlive pid marker = true := by
        unfold processAlive
        rw [(fits.2 halive).2]
        exact halive
      rw [hask] at hde
      cases hde
    next => exact h.load hcall rfl rfl rfl rfl fun held fits => ⟨fits.1, fun halive => (fits.2 halive).1⟩
  | restoreInitializing index =>
    cases hs
    exact h.finish hcall rfl rfl rfl rfl fun held fits => .left rfl fits.2
  | clearToken index =>
    cases hs
    exact h.write hcall rfl rfl rfl rfl fun held fits => fits
  | storeFree index =>
    cases hs
    exact h.strike hcall rfl rfl rfl rfl rfl (fun held hne => decide_eq_true fun hboth => hne hboth.1)
      fun held hsl fits => decide_eq_false fun hnot => hnot ⟨hsl, fits.2⟩
  | returned => cases hs

end SelfQuant.Mds.Transport.Registry
