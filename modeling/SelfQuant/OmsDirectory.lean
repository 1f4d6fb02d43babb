import SelfQuant.OmsStateEngine
import SelfQuant.OmsTableSpec

namespace SelfQuant.Oms

open Probe List ProbeMap Option

inductive Lifecycle
  | active | retiring
deriving DecidableEq

/-- The part of a route that tells two instruments of one venue and product apart. -/
inductive RouteArm
  | crypto (venueSymbol : VenueSymbol)
  | ibkr (conId : Int) (securityType : IbkrSecurityType)
  | polymarket (outcome : PolymarketOutcome) (conditionId tokenId : List UInt8)
deriving DecidableEq

structure RouteKey where
  kind : ExecutionRouteKind
  (venue productType : Nat)
  arm : RouteArm
deriving DecidableEq

def routeKey (routing : ResolvedInstrument) : RouteKey :=
  { kind := routing.kind, venue := routing.venue, productType := routing.productType
    arm := match routing.kind with
      | .crypto => .crypto routing.venueSymbol
      | .ibkr => .ibkr routing.conId routing.securityType
      | _ => .polymarket routing.outcome routing.conditionId routing.tokenId }

def sameRoute (left right : ResolvedInstrument) : Bool :=
  if left.kind ≠ right.kind ∨ left.venue ≠ right.venue ∨ left.productType ≠ right.productType then false
  else
    match left.kind with
    | .crypto => decide (left.venueSymbol = right.venueSymbol)
    | .ibkr => decide (left.conId = right.conId ∧ left.securityType = right.securityType)
    | _ => decide (left.outcome = right.outcome ∧ left.conditionId = right.conditionId ∧ left.tokenId = right.tokenId)

structure VenueInstrumentRef where
  kind : ExecutionRouteKind := .crypto
  (venue productType : Nat := 0)
  outcome : PolymarketOutcome := .unknown
  venueSymbol : VenueSymbol := ⟨[]⟩
  (conditionId tokenId : List UInt8 := [])
  conId : Int := 0
  securityType : IbkrSecurityType := .unknown
deriving DecidableEq

def referenceRoute (reference : VenueInstrumentRef) : ResolvedInstrument :=
  let key : ResolvedInstrument :=
    { kind := reference.kind, venue := reference.venue, productType := reference.productType
      outcome := reference.outcome }
  match reference.kind with
  | .crypto => { key with venueSymbol := reference.venueSymbol }
  | .ibkr => { key with conId := reference.conId, securityType := reference.securityType }
  | _ => { key with conditionId := reference.conditionId, tokenId := reference.tokenId }

def validRoute (routing : ResolvedInstrument) : Bool :=
  if routing.venue = 0 ∨ routing.productType = 0 ∨ routing.catalogRevision = 0 ∨
      routing.priceScale > 18 ∨ routing.quantityScale > 18 ∨ routing.tickSize ≤ 0 ∨
      routing.lotSize ≤ 0 then false
  else
    match routing.kind with
    | .crypto => validId routing.venueSymbol
    | .ibkr => decide (0 < routing.conId ∧ routing.securityType ≠ .unknown)
    | .polymarket => decide (routing.outcome = .yes ∨ routing.outcome = .no) &&
        decide (0 < routing.minimumOrderSize) && hasAnyByte routing.conditionId &&
        hasAnyByte routing.tokenId
    | .other _ => false

structure DirectoryHashes where
  instrument : InstrumentId → Nat
  route : RouteKey → Nat

def hashInstrument (value : InstrumentId) : Nat := hashMix (integerBytes 8 value) 1469598103934665603

def routeKindByte : ExecutionRouteKind → Nat
  | .crypto => 1
  | .polymarket => 2
  | .ibkr => 3
  | .other raw => raw

def securityTypeByte : IbkrSecurityType → Nat
  | .unknown => 0
  | .stock => 1
  | .commodity => 2
  | .cash => 3

def outcomeByte : PolymarketOutcome → Nat
  | .unknown => 0
  | .yes => 1
  | .no => 2

/-- A negative contract identifier lies in memory as its two's complement. -/
def hashRoute (key : RouteKey) : Nat :=
  let hash := hashMix (integerBytes 1 key.productType) (hashMix (integerBytes 1 key.venue)
    (hashMix (integerBytes 1 (routeKindByte key.kind)) 1469598103934665603))
  match key.arm with
  | .crypto symbol => hashMix (integerBytes 2 symbol.length) (hashMix symbol.value hash)
  | .ibkr conId securityType => hashMix (integerBytes 1 (securityTypeByte securityType))
      (hashMix (integerBytes 8 (conId % 2 ^ 64).toNat) hash)
  | .polymarket outcome conditionId tokenId => hashMix (integerBytes 1 (outcomeByte outcome))
      (hashMix tokenId (hashMix conditionId hash))

def sourceDirectoryHashes : DirectoryHashes := ⟨hashInstrument, hashRoute⟩

structure DirectoryEntry where
  instrumentId : InstrumentId := 0
  routing : ResolvedInstrument := {}
  lifecycle : Lifecycle := .active
  occupied : Bool := false
deriving DecidableEq

/-- The instrument directory; the free list is kept top first. -/
structure ExecutionDirectory where
  entries : List DirectoryEntry
  freeSlots : List Nat
  size : Nat := 0
  byId : ProbeMap InstrumentId Nat
  byRoute : ProbeMap RouteKey Nat
deriving DecidableEq

namespace ExecutionDirectory

def create (capacity : Nat) : Option ExecutionDirectory :=
  if capacity = 0 ∨ capacity > (2 ^ 32 - 1) / 2 then none
  else
    let size := max 4 (nextPowerOfTwo (capacity * 2))
    some { entries := replicate capacity {}, freeSlots := range capacity
           byId := replicate size .empty, byRoute := replicate size .empty }

variable (D : DirectoryHashes) (d : ExecutionDirectory) (instrumentId : InstrumentId)

def findSlot : Option Nat := lookup D.instrument d.byId instrumentId

def find : Option DirectoryEntry := (d.findSlot D instrumentId).map fun slot => (d.entries[slot]?).getD {}

def findRoute (routing : ResolvedInstrument) : InstrumentId :=
  match lookup D.route d.byRoute (routeKey routing) with
  | some slot => ((d.entries[slot]?).getD {}).instrumentId
  | none => 0

def findReference (reference : VenueInstrumentRef) : InstrumentId := d.findRoute D (referenceRoute reference)

def register (routing : ResolvedInstrument) : Error × ExecutionDirectory :=
  if instrumentId = 0 ∨ !validRoute routing then (.invalidArgument, d)
  else
    match d.find D instrumentId with
    | some existing =>
      (if existing.lifecycle = .active ∧ sameRoute existing.routing routing then .duplicate
        else .conflict, d)
    | none =>
      if (lookup D.route d.byRoute (routeKey routing)).isSome then (.duplicate, d)
      else
        match d.freeSlots with
        | [] => (.capacityExceeded, d)
        | slot :: freeSlots =>
          let byId := store D.instrument d.byId instrumentId slot
          let byRoute := store D.route d.byRoute (routeKey routing) slot
          match byId, byRoute with
          | some byId, some byRoute =>
            (.ok, { entries := d.entries.set slot ⟨instrumentId, routing, .active, true⟩
                    freeSlots := freeSlots, size := d.size + 1, byId := byId, byRoute := byRoute })
          | _, _ =>
            (.capacityExceeded, { d with
              entries := d.entries.set slot {}
              byId := remove D.instrument (byId.getD d.byId) instrumentId
              byRoute := remove D.route (byRoute.getD d.byRoute) (routeKey routing) })

def retire (hasActiveOrInflight : Bool) : Error × ExecutionDirectory :=
  match d.findSlot D instrumentId with
  | none => (.notFound, d)
  | some slot =>
    let entry := (d.entries[slot]?).getD {}
    if hasActiveOrInflight then
      (.deferred, { d with entries := d.entries.set slot { entry with lifecycle := .retiring } })
    else
      (.ok, { entries := d.entries.set slot {}, freeSlots := slot :: d.freeSlots
              size := d.size - 1
              byId := remove D.instrument d.byId instrumentId
              byRoute := remove D.route d.byRoute (routeKey entry.routing) })

end ExecutionDirectory

open Function

theorem sameRoute_iff {left right : ResolvedInstrument} : sameRoute left right ↔ routeKey left = routeKey right := by
  unfold sameRoute routeKey
  by_cases hk : left.kind = right.kind
  · by_cases hv : left.venue = right.venue
    · by_cases hp : left.productType = right.productType
      · rw [← hk, ← hv, ← hp]
        cases left.kind <;> simp
      · simp [hp]
    · simp [hv]
  · simp [hk]

namespace ExecutionDirectory

variable {D : DirectoryHashes} {d d' : ExecutionDirectory} {slot : Nat} {e : DirectoryEntry}
  {inst : InstrumentId} {routing : ResolvedInstrument}

def entryAt (d : ExecutionDirectory) (slot : Nat) : Option DirectoryEntry :=
  (d.entries[slot]?).filter fun e => e.occupied

/-- Both indexes agree with the entries, and the free list holds the other slots. -/
structure Indexed (D : DirectoryHashes) (d : ExecutionDirectory) : Prop where
  byId : SlotIndex D.instrument d.byId d.entryAt fun e => e.instrumentId
  byRoute : SlotIndex D.route d.byRoute d.entryAt fun e => routeKey e.routing
  freeNodup : d.freeSlots.Nodup
  free : ∀ slot, slot ∈ d.freeSlots ↔ slot < d.entries.length ∧ d.entryAt slot = none
  idPos : ∀ {slot e}, d.entryAt slot = some e → e.instrumentId ≠ 0
  active : ∀ {slot e}, d.entryAt slot = some e → e.lifecycle = .active
  room : d.entries.length < d.byId.length ∧ d.entries.length < d.byRoute.length

theorem entryAt_eq_some : d.entryAt slot = some e ↔ d.entries[slot]? = some e ∧ e.occupied := by
  simp [entryAt, filter_eq_some_iff]

theorem entryAt_lt (h : d.entryAt slot = some e) : slot < d.entries.length :=
  (List.getElem?_eq_some_iff.mp (entryAt_eq_some.mp h).1).1

theorem entryAt_set (hb : slot < d.entries.length) (e : DirectoryEntry)
    (he : d'.entries = d.entries.set slot e) :
    d'.entryAt = update d.entryAt slot (if e.occupied then some e else none) := by
  funext s
  unfold entryAt
  rw [he]
  by_cases hs : s = slot
  · subst hs
    rw [update_self, getElem?_set_self hb]
    rfl
  · rw [update_of_ne hs, getElem?_set_ne (Ne.symm hs)]

theorem create_indexed {cap : Nat} (h : create cap = some d) : Indexed D d := by
  unfold create at h
  split at h
  next => cases h
  next hc =>
  cases h
  have hno : ∀ s, ExecutionDirectory.entryAt
      { entries := replicate cap {}, freeSlots := range cap
        byId := replicate (max 4 (nextPowerOfTwo (cap * 2))) .empty
        byRoute := replicate (max 4 (nextPowerOfTwo (cap * 2))) .empty } s = none := by
    intro s
    rw [eq_none_iff_forall_ne_some]
    intro e he
    obtain ⟨he, hocc⟩ := entryAt_eq_some.mp he
    obtain ⟨_, rfl⟩ := List.getElem?_eq_some_iff.mp he
    simp at hocc
  have hsz := OrderTable.le_nextPowerOfTwo (show cap * 2 ≤ 2 ^ 63 by omega)
  have hentries := funext hno
  refine ⟨?_, ?_, nodup_range, fun s => ?_, fun he => ?_, fun he => ?_, ?_⟩
  · rw [hentries]
    exact slotIndex_replicate ..
  · rw [hentries]
    exact slotIndex_replicate ..
  · simp [hno]
  · rw [hno] at he
    cases he
  · rw [hno] at he
    cases he
  · simp only [length_replicate]
    omega

section

variable (h : Indexed D d)

include h

theorem Indexed.find_eq_some : d.find D inst = some e ↔ ∃ slot, d.entryAt slot = some e ∧ e.instrumentId = inst := by
  unfold find findSlot
  rw [map_eq_some_iff]
  constructor
  · rintro ⟨slot, hl, he⟩
    obtain ⟨x, hx, hk⟩ := (h.byId.agrees _ _).mp hl
    rw [(entryAt_eq_some.mp hx).1] at he
    cases he
    exact ⟨slot, hx, hk⟩
  · rintro ⟨slot, he, rfl⟩
    exact ⟨slot, h.byId.lookup_of he, by rw [(entryAt_eq_some.mp he).1]; rfl⟩

theorem Indexed.findRoute_of (he : d.entryAt slot = some e)
    (hr : routeKey e.routing = routeKey routing) : d.findRoute D routing = e.instrumentId := by
  unfold findRoute
  rw [← hr, h.byRoute.lookup_of he]
  dsimp only
  rw [(entryAt_eq_some.mp he).1]
  rfl

theorem Indexed.findRoute_eq_zero : d.findRoute D routing = 0 ↔
    lookup D.route d.byRoute (routeKey routing) = none := by
  constructor
  · intro hz
    by_contra hl
    obtain ⟨slot, hl⟩ := ne_none_iff_exists'.mp hl
    obtain ⟨e, he, hk⟩ := (h.byRoute.agrees _ _).mp hl
    rw [h.findRoute_of he hk] at hz
    exact h.idPos he hz
  · intro hl
    rw [findRoute, hl]

theorem Indexed.placed {rest : List Nat} {byId : ProbeMap InstrumentId Nat}
    {byRoute : ProbeMap RouteKey Nat} (hfe : d.freeSlots = slot :: rest)
    (hid : inst ≠ 0) (hn : lookup D.instrument d.byId inst = none)
    (hr : lookup D.route d.byRoute (routeKey routing) = none)
    (hbyId : store D.instrument d.byId inst slot = some byId)
    (hbyRoute : store D.route d.byRoute (routeKey routing) slot = some byRoute)
    (hd' : d' = { entries := d.entries.set slot ⟨inst, routing, .active, true⟩
                  freeSlots := rest, size := d.size + 1, byId := byId, byRoute := byRoute }) :
    Indexed D d' ∧ d'.entryAt = update d.entryAt slot (some ⟨inst, routing, .active, true⟩) := by
  obtain ⟨hb, hno⟩ := (h.free slot).mp (by simp [hfe])
  obtain ⟨hnot, hrs⟩ : slot ∉ rest ∧ rest.Nodup := by
    have := h.freeNodup
    rwa [hfe, nodup_cons] at this
  have hset : d'.entries = d.entries.set slot ⟨inst, routing, .active, true⟩ := by rw [hd']
  have hent : d'.entryAt = update d.entryAt slot (some ⟨inst, routing, .active, true⟩) := entryAt_set hb _ hset
  have hcases : ∀ {s x}, d'.entryAt s = some x → x = ⟨inst, routing, .active, true⟩ ∨ d.entryAt s = some x := by
    intro s x hx
    rw [hent] at hx
    obtain ⟨-, hx⟩ | ⟨-, hx⟩ := update_eq_some.mp hx
    · exact .inl (some.inj hx).symm
    · exact .inr hx
  refine ⟨⟨?_, ?_, by rw [hd']; exact hrs, fun s => ?_, fun hx => ?_, fun hx => ?_, ?_⟩, hent⟩
  · rw [hent, hd']
    exact h.byId.place hno hn hbyId
  · rw [hent, hd']
    exact h.byRoute.place hno hr hbyRoute
  · have hold := h.free s
    rw [hfe] at hold
    rw [hent, show d'.freeSlots = rest by rw [hd'], show d'.entries.length = d.entries.length by rw [hd']; simp]
    by_cases hs : s = slot
    · subst hs
      simp [hnot]
    · simpa [hs] using hold
  · rcases hcases hx with rfl | hx
    · exact hid
    · exact h.idPos hx
  · rcases hcases hx with rfl | hx
    · rfl
    · exact h.active hx
  · rw [hd']
    rw [length_set, store_length hbyId, store_length hbyRoute]
    exact h.room

theorem Indexed.retired : Indexed D (d.retire D inst false).2 := by
  unfold retire
  split
  next => exact h
  next slot hl =>
  obtain ⟨e, he, hk⟩ := (h.byId.agrees _ _).mp hl
  have hget := (entryAt_eq_some.mp he).1
  have hb := entryAt_lt he
  have hent : ∀ d' : ExecutionDirectory, d'.entries = d.entries.set slot {} →
      d'.entryAt = update d.entryAt slot none := fun d' hd' => entryAt_set hb {} hd'
  simp only [Bool.false_eq_true, if_false, hget, getD_some]
  refine ⟨?_, ?_, ?_, fun s => ?_, fun hx => ?_, fun hx => ?_, ?_⟩
  · rw [hent _ rfl, ← hk]
    exact h.byId.drop he
  · rw [hent _ rfl]
    exact h.byRoute.drop he
  · rw [nodup_cons]
    refine ⟨fun hm => ?_, h.freeNodup⟩
    rw [((h.free slot).mp hm).2] at he
    cases he
  · rw [hent _ rfl, mem_cons, h.free]
    by_cases hs : s = slot
    · subst hs
      simp [hb]
    · simp [hs]
  · rw [hent _ rfl] at hx
    exact h.idPos (of_update_none hx).2
  · rw [hent _ rfl] at hx
    exact h.active (of_update_none hx).2
  · rw [length_set, remove_length, remove_length]
    exact h.room

end

inductive Registered (D : DirectoryHashes) (d : ExecutionDirectory) (instrumentId : InstrumentId)
    (routing : ResolvedInstrument) : Error × ExecutionDirectory → Prop
  | refused {error : Error} (he : error ≠ .ok ∧ error ≠ .duplicate) :
      Registered D d instrumentId routing (error, d)
  | known {e : DirectoryEntry} (hf : d.find D instrumentId = some e) (ha : e.lifecycle = .active)
      (hr : sameRoute e.routing routing) : Registered D d instrumentId routing (.duplicate, d)
  | owned (hid : instrumentId ≠ 0) (hf : d.find D instrumentId = none)
      (hr : d.findRoute D routing ≠ 0) : Registered D d instrumentId routing (.duplicate, d)
  | placed {slot : Nat} {d' : ExecutionDirectory} (hid : instrumentId ≠ 0)
      (hf : d.find D instrumentId = none) (hr : d.findRoute D routing = 0) (hi : Indexed D d')
      (hfree : d.entryAt slot = none) (he : d'.entryAt = update d.entryAt slot
        (some ⟨instrumentId, routing, .active, true⟩)) :
      Registered D d instrumentId routing (.ok, d')

theorem Indexed.register (h : Indexed D d) (inst : InstrumentId) (routing : ResolvedInstrument) :
    Registered D d inst routing (d.register D inst routing) := by
  unfold ExecutionDirectory.register
  split
  next => exact .refused (by simp)
  next harg =>
  simp only [not_or] at harg
  split
  next e hf =>
    split
    next hc => exact .known hf hc.1 hc.2
    next => exact .refused (by simp)
  next hf =>
    split
    next hr =>
      refine .owned harg.1 hf fun hz => ?_
      rw [h.findRoute_eq_zero.mp hz] at hr
      cases hr
    next hr =>
      have hrt : lookup D.route d.byRoute (routeKey routing) = none := by simpa using hr
      split
      next => exact .refused (by simp)
      next slot rest hfe =>
      obtain ⟨byId, hbyId⟩ := isSome_iff_exists.mp (h.byId.store_isSome
        (fun _ _ he => entryAt_lt he) h.room.1 inst slot)
      obtain ⟨byRoute, hbyRoute⟩ := isSome_iff_exists.mp (h.byRoute.store_isSome
        (fun _ _ he => entryAt_lt he) h.room.2 (routeKey routing) slot)
      simp only [hbyId, hbyRoute]
      obtain ⟨hi, he⟩ := h.placed hfe harg.1 (by simpa [find, findSlot] using hf) hrt hbyId hbyRoute rfl
      exact .placed harg.1 hf (h.findRoute_eq_zero.mpr hrt) hi ((h.free slot).mp (by simp [hfe])).2 he

theorem Indexed.registered (h : Indexed D d) (inst : InstrumentId)
    (routing : ResolvedInstrument) : Indexed D (d.register D inst routing).2 := by
  have hr := h.register inst routing
  generalize d.register D inst routing = result at hr
  cases hr with
  | refused | known | owned => exact h
  | placed _ _ _ hi => exact hi

end ExecutionDirectory

end SelfQuant.Oms
