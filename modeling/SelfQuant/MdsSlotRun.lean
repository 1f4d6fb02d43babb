import SelfQuant.MdsSlotOwners

namespace SelfQuant.Mds.Transport

open Function ExclusiveClaims List

variable {alive : Process → Bool} {held : Registration} {slot : AtomicSlot} {call : Call}

theorem Call.Fits.mono {alive' : Process → Bool} (h : call.Fits alive held slot)
    (hsub : ∀ process, alive' process = true → alive process = true) : call.Fits alive' held slot := by
  have hde : alive held.process = false → alive' held.process = false := by
    intro hde
    refine Bool.eq_false_of_not_eq_true fun halive => ?_
    rw [hsub _ halive] at hde
    cases hde
  cases call with
  | register | unregister => exact h
  | reclaim nowNs leaseTimeoutNs point =>
    cases point with
    | loadInitializingPid | loadInitializingMarker | askInitializing | restoreInitializing =>
      exact ⟨h.1, fun halive => h.2 (hsub _ halive)⟩
    | clearToken | storeFree => exact ⟨h.1, hde h.2⟩
    | _ => exact h

theorem Call.Fits.left (h : call.Fits alive held slot) (hrn : call.runs alive = false) : Quiet alive held slot := by
  cases call with
  | register process nowNs point =>
    refine .left h.1 fun halive => ?_
    rw [h.2.1] at halive
    exact absurd (halive.symm.trans hrn) (by decide)
  | unregister => exact .left h.1 fun _ => h.2.1
  | reclaim => cases hrn

namespace Registry

variable {r r' : Registry} {event : RegistryEvent} {events : List RegistryEvent}

theorem Inv.die (h : Inv r) (process : Process) : Inv { r with alive := update r.alive process false } := by
  have hsub : ∀ other, update r.alive process false other = true → r.alive other = true := by
    intro other hoth
    by_cases heq : other = process
    · rw [heq, update_self] at hoth
      cases hoth
    · rwa [update_of_ne heq] at hoth
  have hrn : ∀ call : Call, call.runs (update r.alive process false) = true → call.runs r.alive = true := by
    intro call hca
    cases call with
    | register | unregister => exact hsub _ hca
    | reclaim => rfl
  have hcl : ∀ i id, claims { r with alive := update r.alive process false } id = some i → r.claims id = some i := by
    intro i id hid
    cases hca : r.calls id with
    | none => exact absurd (hid.symm.trans (claims_of_none hca)) (Option.some_ne_none i)
    | some call =>
      obtain ⟨hcallRuns, hcallClaims⟩ := runs_of_claims (by exact hca) hid
      exact (claims_eq hca (hrn call hcallRuns)).trans hcallClaims
  intro i
  cases h i with
  | free state unclaimed held => exact .free state (unclaimed.mono (hcl i)) held
  | quiet held at_ unclaimed quiet =>
    refine .quiet held at_ (unclaimed.mono (hcl i)) ?_
    cases quiet with
    | active state token process => exact .active state token process
    | left state process => exact .left state fun halive => process (hsub _ halive)
  | claimed held at_ id call call_eq only fits =>
    have hft := fits.mono hsub
    cases hde : call.runs (update r.alive process false) with
    | true =>
      have hclaim := (runs_of_claims call_eq only.claimed).2
      refine .claimed held at_ id call call_eq (only.mono (hcl i) ?_) hft
      exact (claims_eq (by exact call_eq) (by exact hde)).trans hclaim
    | false =>
      refine .quiet held at_ (only.unclaimed (hcl i) ?_) (hft.left hde)
      intro hid
      have hlv := (runs_of_claims (by exact call_eq) hid).1
      exact absurd (hde.symm.trans hlv) (by decide)

variable {held : Registration} {id : Nat}

theorem Inv.start {call : Call} (h : Inv r) (hno : r.calls id = none) (hrn : call.runs r.alive)
    (hcl : call.claims = none) : Inv (r.goto id call) :=
  h.idle (goto_moves hrn) (claims_of_none hno) hcl rfl ⟨(r.slots 0).heartbeatNs, rfl⟩

/-- A slot is moved from initializing to suspect only when no call of a live process is at it. -/
def Careful (r : Registry) : RegistryEvent → Prop
  | .advance id _ _ => ∀ nowNs leaseTimeoutNs index,
      r.calls id = some (.reclaim nowNs leaseTimeoutNs (.suspectInitializing index)) →
      (r.slots index).state = .initializing → Abandoned r index
  | _ => True

theorem Inv.step (h : Inv r) (hc : Careful r event) (hs : r.step event = some r') : Inv r' := by
  cases event with
  | register id process nowNs =>
    simp only [step] at hs
    split at hs
    next hsta =>
      cases hs
      exact h.start hsta.1 hsta.2 rfl
    next => cases hs
  | unregister id process handle =>
    simp only [step] at hs
    split at hs
    next hsta =>
      cases hs
      refine h.start hsta.1 hsta.2 ?_
      unfold startUnregister
      split
      next => rfl
      next => split <;> rfl
    next => cases hs
  | reclaim id nowNs leaseTimeoutNs =>
    simp only [step] at hs
    split at hs
    next hno =>
      cases hs
      exact h.start hno rfl rfl
    next => cases hs
  | advance id seed value =>
    simp only [step] at hs
    split at hs
    next => cases hs
    next call hca =>
    split at hs
    next hrn =>
      cases call with
      | register => exact h.stepRegister hca hrn hs
      | unregister => exact h.stepUnregister hca hrn hs
      | reclaim nowNs leaseTimeoutNs point =>
        refine h.stepReclaim hca (fun index hpoint hst => ?_) hs
        exact hc nowNs leaseTimeoutNs index (by rw [hca, hpoint]) hst
    next => cases hs
  | die process =>
    cases hs
    exact h.die process

def CarefulRun : Registry → List RegistryEvent → Prop
  | _, [] => True
  | r, event :: events => Careful r event ∧ ∀ r', r.step event = some r' → CarefulRun r' events

theorem Inv.run (h : Inv r) (hc : CarefulRun r events) (hs : r.run events = some r') : Inv r' := by
  induction events generalizing r with
  | nil =>
    cases hs
    exact h
  | cons event events ih =>
    obtain ⟨r1, hone, hrs⟩ := Option.bind_eq_some_iff.mp hs
    exact ih (h.step hc.1 hone) (hc.2 r1 hone) hrs

variable (maxReaders : Nat)

def fresh (epoch : UInt64) (alive : Process → Bool) : Registry :=
  { maxReaders := maxReaders, epoch := epoch, alive := alive }

theorem fresh_inv (epoch : UInt64) : Inv (fresh maxReaders epoch alive) :=
  fun _ => .free rfl (fun _ h => by cases h) rfl

theorem Inv.heldAt_le (h : Inv r) (i : Nat) : r.heldAt i = [] ∨ ∃ held, r.heldAt i = [held] := by
  cases h i with
  | free _ _ held => exact .inl held
  | quiet held at_ | claimed held at_ => exact .inr ⟨held, at_⟩

theorem mem_heldAt (h : held ∈ r.held) : held ∈ r.heldAt held.slot := mem_filter.mpr ⟨h, decide_eq_true rfl⟩

theorem Inv.unique (h : Inv r) {other : Registration} (hhd : held ∈ r.held) (hoth : other ∈ r.held)
    (hsl : held.slot = other.slot) : held = other := by
  have hheldAt := mem_heldAt hhd
  have hotherAt := mem_heldAt hoth
  rw [hsl] at hheldAt
  rcases h.heldAt_le other.slot with hno | ⟨one, hone⟩
  · rw [hno] at hheldAt
    cases hheldAt
  · rw [hone] at hheldAt hotherAt
    rw [mem_singleton.mp hheldAt, mem_singleton.mp hotherAt]

theorem Inv.reclaims_dead {nowNs lease index : Nat} (h : Inv r)
    (hca : r.calls id = some (.reclaim nowNs lease (.storeFree index)))
    (hhd : held ∈ r.held) (hsl : held.slot = index) : r.alive held.process = false := by
  obtain ⟨one, hone, -, fits⟩ := h.owner hca rfl rfl
  have hat := mem_heldAt hhd
  rw [hsl, hone] at hat
  rw [mem_singleton.mp hat]
  exact fits.2

/-- Whatever registers, gives back and reclaims slots in whatever order: a slot has one registration that is neither
released nor reclaimed, and a slot that `reclaim_stale` frees has none of a live process. This takes that no slot is
suspected while a call of a live process is between taking it and finishing with it. -/
theorem reader_slot_one_owner (epoch : UInt64) (alive : Process → Bool)
    (events : List RegistryEvent) (r : Registry) (hrun : (fresh maxReaders epoch alive).run events = some r)
    (hcareful : CarefulRun (fresh maxReaders epoch alive) events) :
    (∀ held ∈ r.held, ∀ other ∈ r.held, held.slot = other.slot → held = other) ∧
    ∀ id nowNs leaseTimeoutNs index, r.calls id = some (.reclaim nowNs leaseTimeoutNs (.storeFree index)) →
      ∀ held ∈ r.held, held.slot = index → r.alive held.process = false := by
  have h := (fresh_inv maxReaders epoch).run hcareful hrun
  exact ⟨fun held hheld other hother hslot => h.unique hheld hother hslot,
    fun id nowNs leaseTimeoutNs index hcall held hheld hslot => h.reclaims_dead hcall hheld hslot⟩

def plain (r : Registry) : RegistryEvent → Bool
  | .advance id _ _ =>
    match r.calls id with
    | some (.reclaim _ _ (.suspectInitializing _)) => false
    | _ => true
  | _ => true

def plainRun : Registry → List RegistryEvent → Bool
  | _, [] => true
  | r, event :: events =>
    r.plain event && match r.step event with
      | some r' => plainRun r' events
      | none => true

theorem careful_of_plain (h : r.plain event = true) : Careful r event := by
  cases event with
  | advance id seed value =>
    intro nowNs leaseTimeoutNs index hca
    simp [plain, hca] at h
  | _ => trivial

theorem carefulRun_of_plain (h : plainRun r events = true) : CarefulRun r events := by
  induction events generalizing r with
  | nil => trivial
  | cons event events ih =>
    obtain ⟨hone, hrs⟩ := Bool.and_eq_true_iff.mp h
    refine ⟨careful_of_plain hone, fun r' hst => ih ?_⟩
    rw [hst] at hrs
    exact hrs

def numbered (pid : Nat) : Process := ⟨pid, 1⟩

def oneSlot : Registry := fresh 1 3 fun process => decide (process.pid ≠ 0)

def steps (id n : Nat) : List RegistryEvent := replicate n (.advance id 5 0)

def deadReader : List RegistryEvent :=
  [.register 0 (numbered 7) 100] ++ steps 0 7 ++ [.die (numbered 7), .reclaim 1 1000 10] ++ steps 1 13

theorem reader_slot_one_owner_dead :
    ∃ r, oneSlot.run deadReader = some r ∧ r.calls 1 = some (.reclaim 1000 10 (.storeFree 0)) ∧
      (∀ held ∈ r.held, ∀ other ∈ r.held, held.slot = other.slot → held = other) ∧
      ∀ held ∈ r.held, held.slot = 0 → r.alive held.process = false := by
  have hcalls : (oneSlot.run deadReader).map (·.calls 1) = some (some (.reclaim 1000 10 (.storeFree 0))) := by
    decide +kernel
  obtain ⟨r, hrun, hcall⟩ := Option.map_eq_some_iff.mp hcalls
  have hcareful : CarefulRun oneSlot deadReader := carefulRun_of_plain (by decide +kernel)
  have h := reader_slot_one_owner 1 3 _ deadReader r hrun hcareful
  exact ⟨r, hrun, hcall, h.1, h.2 1 1000 10 0 hcall⟩

/-- A reader takes the slot, which still has the heartbeat and the process of before; `reclaim_stale` takes that for
a dead reader. -/
def freshReader : List RegistryEvent :=
  [.register 0 (numbered 7) 100] ++ steps 0 1 ++ [.reclaim 1 1000 10] ++ steps 1 7

/-- The slot is freed, another reader takes it, and both get to the end. -/
def bothReaders : List RegistryEvent :=
  freshReader ++ steps 1 1 ++ [.register 2 (numbered 8) 100, .advance 2 6 0] ++ steps 2 6 ++ steps 0 6

/-- The slot of a live reader is freed, and two live readers get the same slot. -/
theorem live_reader_reclaimed :
    ((oneSlot.run freshReader).map fun r => (r.calls 1, r.held, r.alive (numbered 7))) =
      some (some (.reclaim 1000 10 (.storeFree 0)), [⟨0, numbered 7, 0, newToken 5⟩], true) ∧
    ((oneSlot.run bothReaders).map fun r => (r.calls 0, r.calls 2)) =
      some (some (.register (numbered 7) 100 (.returned (.ok ⟨0, newToken 5, 3⟩))),
        some (.register (numbered 8) 100 (.returned (.ok ⟨0, newToken 6, 3⟩)))) ∧
    ((oneSlot.run bothReaders).map fun r => (r.held.map (·.slot), r.held.map fun held => r.alive held.process)) =
      some ([0, 0], [true, true]) := by
  refine ⟨by decide +kernel, by decide +kernel, by decide +kernel⟩

end Registry

end SelfQuant.Mds.Transport
