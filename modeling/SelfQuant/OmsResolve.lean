import SelfQuant.OmsStateEngine
import SelfQuant.OmsTableOps

namespace SelfQuant.Oms

open Probe OrderTable Option

variable {H : OrderHashes} {t t' : OrderTable} {slot : Nat} {event : VenueEvent}

namespace OrderTable

section

variable (hv : Valid H t)

include hv

theorem Valid.findToken_iff {token : RequestToken} :
    t.findToken H token = some slot ↔ ∃ r, t.order slot = some r ∧ r.request.token = token := by
  unfold findToken
  constructor
  · intro h
    obtain ⟨handle, hl, hs⟩ := bind_eq_some_iff.mp h
    obtain ⟨r, ho, hk, _⟩ := (hv.token.agrees token handle).mp hl
    obtain ⟨rfl, _⟩ := lookup_iff.mp hs
    exact ⟨r, ho, some.inj hk⟩
  · rintro ⟨r, ho, rfl⟩
    rw [hv.token.lookup_of ho rfl, bind_some, hv.lookup_of_order ho]

theorem Valid.findClient_order {id : ClientOrderId} (h : t.findClient H id = some slot) :
    ∃ r, t.order slot = some r ∧ r.request.clientOrderId = id := by
  unfold findClient at h
  split at h
  next =>
    obtain ⟨handle, hl, hs⟩ := bind_eq_some_iff.mp h
    obtain ⟨r, ho, hk, _⟩ := (hv.client.agrees id handle).mp hl
    obtain ⟨rfl, _⟩ := lookup_iff.mp hs
    exact ⟨r, ho, some.inj hk⟩
  next => simp at h

theorem Valid.findVenue_order {id : VenueOrderId}
    (h : t.findVenue H id = some slot) : ∃ r, t.order slot = some r ∧ r.venueOrderId = id := by
  unfold findVenue at h
  split at h
  next =>
    obtain ⟨handle, hl, hs⟩ := bind_eq_some_iff.mp h
    obtain ⟨r, ho, hk, _⟩ := (hv.venue.agrees id handle).mp hl
    obtain ⟨rfl, _⟩ := lookup_iff.mp hs
    refine ⟨r, ho, ?_⟩
    unfold venueKey at hk
    split at hk
    next => exact some.inj hk
    next => simp at hk
  next => simp at h

theorem Valid.findClient_of {r : OrderRecord} (ho : t.order slot = some r)
    (hid : validId r.request.clientOrderId) : t.findClient H r.request.clientOrderId = some slot := by
  rw [findClient, if_pos hid, hv.client.lookup_of ho rfl, bind_some, hv.lookup_of_order ho]

theorem Valid.findVenue_of {r : OrderRecord} (ho : t.order slot = some r)
    (hid : validId r.venueOrderId) : t.findVenue H r.venueOrderId = some slot := by
  have hlen : r.venueOrderId.length ≠ 0 := by
    simp only [validId, Bool.and_eq_true, decide_eq_true_eq] at hid
    exact ne_of_gt hid.1
  rw [findVenue, if_pos hid, hv.venue.lookup_of ho (if_pos hlen), bind_some, hv.lookup_of_order ho]

end

end OrderTable

variable {record found cand : Option Nat} {missing error : Error} {given : Prop}

theorem merge_eq_ok (h : merge record cand missing = .ok found) :
    found = cand ∧ cand.isSome ∧ (record = none ∨ record = cand) := by
  unfold merge at h
  cases cand with
  | none => simp at h
  | some slot =>
    simp only at h
    split at h
    next => simp at h
    next hc =>
    cases h
    refine ⟨rfl, rfl, ?_⟩
    by_cases hr : record = none
    · exact .inl hr
    · exact .inr (by_contra fun hne => hc ⟨hr, hne⟩)

/-- The order of `slot` carries every identifier the event gives; a venue identifier may be new. -/
structure Identified (H : OrderHashes) (t : OrderTable) (event : VenueEvent) (slot : Nat) : Prop where
  handle : event.handle.generation ≠ 0 → t.lookup event.handle = some slot
  token : event.token.sequence ≠ 0 → t.findToken H event.token = some slot
  client : event.clientOrderId.length ≠ 0 → t.findClient H event.clientOrderId = some slot
  venueValid : event.venueOrderId.length ≠ 0 → validId event.venueOrderId
  venue : event.venueOrderId.length ≠ 0 →
    t.findVenue H event.venueOrderId = none ∨ t.findVenue H event.venueOrderId = some slot
  named : event.handle.generation ≠ 0 ∨ event.token.sequence ≠ 0 ∨
    event.clientOrderId.length ≠ 0 ∨
    event.venueOrderId.length ≠ 0 ∧ t.findVenue H event.venueOrderId = some slot

/-- What one identifier makes of the order found before it: nothing if the event lacks it,
else the order it names, which has to be the one found before. -/
structure Merged (given : Prop) (record candidate found : Option Nat) : Prop where
  keeps : record.isSome → found = record
  names : given → found = candidate ∧ candidate.isSome
  skips : ¬given → found = record

theorem merge_merged (hg : given) (h : merge record cand missing = .ok found) :
    Merged given record cand found := by
  obtain ⟨hf, hs, hr⟩ := merge_eq_ok h
  refine ⟨fun hr' => ?_, fun _ => ⟨hf, hs⟩, fun hn => absurd hg hn⟩
  rcases hr with rfl | rfl
  · simp at hr'
  · exact hf

theorem skip_merged (hg : ¬given) (h : (.ok record : Except Error (Option Nat)) = .ok found) :
    Merged given record cand found := by
  cases h
  exact ⟨fun _ => rfl, fun hg' => absurd hg' hg, fun _ => rfl⟩

theorem identifyHandle_merged (h : identifyHandle t event = .ok found) :
    Merged (event.handle.generation ≠ 0) none (t.lookup event.handle) found := by
  unfold identifyHandle at h
  split at h
  next hg => exact merge_merged hg h
  next hg => exact skip_merged hg h

theorem identifyToken_merged (h : identifyToken H t event record = .ok found) :
    Merged (event.token.sequence ≠ 0) record (t.findToken H event.token) found := by
  unfold identifyToken at h
  split at h
  next hg => exact merge_merged hg h
  next hg => exact skip_merged hg h

theorem identifyClient_merged (h : identifyClient H t event record = .ok found) :
    Merged (event.clientOrderId.length ≠ 0) record (t.findClient H event.clientOrderId) found := by
  unfold identifyClient at h
  split at h
  next hg =>
    split at h
    next => simp at h
    next => exact merge_merged hg h
  next hg => exact skip_merged hg h

theorem identifyVenue_merged (h : identifyVenue H t event record = .ok found) :
    (event.venueOrderId.length ≠ 0 → validId event.venueOrderId) ∧
      Merged (event.venueOrderId.length ≠ 0 ∧ (t.findVenue H event.venueOrderId).isSome) record
        (t.findVenue H event.venueOrderId) found := by
  unfold identifyVenue at h
  split at h
  next hg =>
    split at h
    next => simp at h
    next hid =>
    refine ⟨fun _ => by simpa using hid, ?_⟩
    cases hf : t.findVenue H event.venueOrderId with
    | some slot =>
      rw [hf] at h
      exact merge_merged ⟨hg, rfl⟩ h
    | none =>
      rw [hf] at h
      exact skip_merged (by simp) h
  next hg => exact ⟨fun hg' => absurd hg' hg, skip_merged (fun hg' => hg hg'.1) h⟩

variable {ε β : Type} {x : Except ε α} {f : α → Except ε β}

theorem except_bind_eq_ok {b : β} (h : (x >>= f) = .ok b) : ∃ a, x = .ok a ∧ f a = .ok b := by
  cases x with
  | error e => cases h
  | ok a => exact ⟨a, rfl, h⟩

theorem except_bind_eq_error {e : ε} (h : (x >>= f) = .error e) : x = .error e ∨ ∃ a, x = .ok a ∧ f a = .error e := by
  cases x with
  | error e' => cases h; exact .inl rfl
  | ok a => exact .inr ⟨a, rfl, h⟩

theorem identify_eq_ok (h : identify H t event = .ok (some slot)) : Identified H t event slot := by
  obtain ⟨r₁, h₁, h⟩ := except_bind_eq_ok h
  obtain ⟨r₂, h₂, h⟩ := except_bind_eq_ok h
  obtain ⟨r₃, h₃, h⟩ := except_bind_eq_ok h
  have m₁ := identifyHandle_merged h₁
  have m₂ := identifyToken_merged h₂
  have m₃ := identifyClient_merged h₃
  obtain ⟨hid, m₄⟩ := identifyVenue_merged h
  have k₃ : r₃.isSome → r₃ = some slot := fun hs => (m₄.keeps hs).symm
  have k₂ : r₂.isSome → r₂ = some slot := by
    intro hs
    have he := m₃.keeps hs
    rw [← he] at hs ⊢
    exact k₃ hs
  have k₁ : r₁.isSome → r₁ = some slot := by
    intro hs
    have he := m₂.keeps hs
    rw [← he] at hs ⊢
    exact k₂ hs
  refine ⟨fun hg => ?_, fun hg => ?_, fun hg => ?_, hid, fun hg => ?_, ?_⟩
  · obtain ⟨he, hs⟩ := m₁.names hg
    rw [← he] at hs ⊢
    exact k₁ hs
  · obtain ⟨he, hs⟩ := m₂.names hg
    rw [← he] at hs ⊢
    exact k₂ hs
  · obtain ⟨he, hs⟩ := m₃.names hg
    rw [← he] at hs ⊢
    exact k₃ hs
  · cases hf : t.findVenue H event.venueOrderId with
    | none => exact .inl rfl
    | some s =>
      obtain ⟨he, _⟩ := m₄.names ⟨hg, by simp [hf]⟩
      exact .inr (by rw [he, hf])
  · by_contra hno
    simp only [not_or, not_not, not_and] at hno
    obtain ⟨hh, ht, hc, hve⟩ := hno
    have e₁ := m₁.skips (by simpa using hh)
    have e₂ := m₂.skips (by simpa using ht)
    have e₃ := m₃.skips (by simpa using hc)
    have hnone : r₃ = none := by rw [e₃, e₂, e₁]
    by_cases hg : event.venueOrderId.length ≠ 0 ∧ (t.findVenue H event.venueOrderId).isSome
    · exact hve hg.1 (m₄.names hg).1.symm
    · have e₄ := m₄.skips hg
      rw [hnone] at e₄
      simp at e₄

theorem merge_error_ne_ok (hm : missing ≠ .ok) (h : merge record cand missing = .error error) : error ≠ .ok := by
  unfold merge at h
  cases cand with
  | none =>
    cases h
    split
    · exact hm
    · simp
  | some slot =>
    simp only at h
    split at h
    next => cases h; simp
    next => cases h

theorem identify_error_ne_ok (h : identify H t event = .error error) : error ≠ .ok := by
  rcases except_bind_eq_error h with h | ⟨_, _, h⟩
  · unfold identifyHandle at h
    split at h
    next => exact merge_error_ne_ok (by simp) h
    next => cases h
  rcases except_bind_eq_error h with h | ⟨_, _, h⟩
  · unfold identifyToken at h
    split at h
    next => exact merge_error_ne_ok (by simp) h
    next => cases h
  rcases except_bind_eq_error h with h | ⟨_, _, h⟩
  · unfold identifyClient at h
    split at h
    next =>
      split at h
      next => cases h; simp
      next => exact merge_error_ne_ok (by simp) h
    next => cases h
  · unfold identifyVenue at h
    split at h
    next =>
      split at h
      next => cases h; simp
      split at h
      next => exact merge_error_ne_ok (by simp) h
      next => cases h
    next => cases h

theorem Identified.order (hv : Valid H t) (hi : Identified H t event slot) : ∃ r, t.order slot = some r := by
  rcases hi.named with hg | hg | hg | hg
  · obtain ⟨_, _, hb, ho⟩ := lookup_eq_some (hi.handle hg)
    exact ⟨_, order_of_occupied hb ho⟩
  · obtain ⟨r, ho, _⟩ := hv.findToken_iff.mp (hi.token hg)
    exact ⟨r, ho⟩
  · obtain ⟨r, ho, _⟩ := hv.findClient_order (hi.client hg)
    exact ⟨r, ho⟩
  · obtain ⟨r, ho, _⟩ := hv.findVenue_order hg.2
    exact ⟨r, ho⟩

def NewVenueId (H : OrderHashes) (t : OrderTable) (event : VenueEvent) : Prop :=
  event.venueOrderId.length ≠ 0 ∧ t.findVenue H event.venueOrderId = none

/-- What resolution does: it fails and changes nothing, or it finds a live order, to which it
binds the venue identifier of the event if that is new. -/
theorem resolve_spec (hv : Valid H t) : (∃ error, resolve H t event = (.error error, t) ∧ error ≠ .ok ∧
        ∀ slot, identify H t event = .ok (some slot) → (t.record slot).venueOrderId.length ≠ 0) ∨
      ∃ slot r t', resolve H t event = (.ok slot, t') ∧ identify H t event = .ok (some slot) ∧
        t.order slot = some r ∧ ((¬NewVenueId H t event ∧ t' = t) ∨
          (NewVenueId H t event ∧ Bound H t slot event.venueOrderId t')) := by
  unfold resolve
  cases hi : identify H t event with
  | error error => exact .inl ⟨error, rfl, identify_error_ne_ok hi, by simp⟩
  | ok found =>
    cases found with
    | none => exact .inl ⟨_, rfl, by simp, by simp⟩
    | some slot =>
      have hid := identify_eq_ok hi
      obtain ⟨r, ho⟩ := hid.order hv
      dsimp only
      split
      next hnew =>
        obtain ⟨hb, hocc, hco⟩ := order_eq_some ho
        have hl : t.lookup (t.handleOf slot) = some slot := by
          rw [handleOf, show (t.record slot).generation = r.generation by rw [hco]; rfl]
          exact hv.lookup_of_order ho
        rcases bindVenueId_spec hv hl (hid.venueValid hnew.1) hnew.2 with ⟨hset, he⟩ | ⟨t', he, hbd⟩
        · rw [he]
          exact .inl ⟨_, rfl, by simp, by rintro _ ⟨rfl⟩; exact hset⟩
        · rw [he]
          exact .inr ⟨slot, r, t', rfl, rfl, ho, .inr ⟨hnew, hbd⟩⟩
      next hnew => exact .inr ⟨slot, r, t, rfl, rfl, ho, .inl ⟨hnew, rfl⟩⟩

end SelfQuant.Oms
