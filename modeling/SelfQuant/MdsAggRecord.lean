import SelfQuant.MdsVenueIngest
import SelfQuant.SlotMask
import Mathlib.Algebra.BigOperators.Fin

namespace SelfQuant.Mds

open List

def Side.better : Side → Int → Int → Bool
  | .bid, price, other => decide (other < price)
  | .ask, price, other => decide (price < other)

abbrev Side.Beats (side : Side) (price other : Int) : Prop := side.better price other = true

def orderedLevels {α : Type} (side : Side) (valid : α → Bool) (price : α → Int) : List α → Bool
  | [] => true
  | [level] => valid level
  | level :: next :: levels =>
    valid level && side.better (price level) (price next) && orderedLevels side valid price (next :: levels)

section Order

variable {side : Side} {valid : α → Bool} {price : α → Int} {p q r : Int} {levels : List α}

theorem better_trans (h₁ : side.better p q = true) (h₂ : side.better q r = true) : side.better p r = true := by
  cases side <;> simp only [Side.better, decide_eq_true_eq] at h₁ h₂ ⊢ <;> omega

theorem orderedLevels_iff : orderedLevels side valid price levels = true ↔
    (∀ level ∈ levels, valid level = true) ∧
      levels.Pairwise fun level next => side.better (price level) (price next) = true := by
  induction levels with
  | nil => simp [orderedLevels]
  | cons level levels ih =>
    cases levels with
    | nil => simp [orderedLevels]
    | cons next levels =>
      rw [orderedLevels, Bool.and_eq_true, Bool.and_eq_true, ih]
      constructor
      · rintro ⟨⟨hval, hfst⟩, hall, hsrt⟩
        refine ⟨forall_mem_cons.mpr ⟨hval, hall⟩, pairwise_cons.mpr ⟨fun other hoth => ?_, hsrt⟩⟩
        rcases mem_cons.mp hoth with rfl | hoth
        · exact hfst
        · exact better_trans hfst ((pairwise_cons.mp hsrt).1 other hoth)
      · rintro ⟨hall, hsrt⟩
        obtain ⟨hval, hall⟩ := forall_mem_cons.mp hall
        obtain ⟨hfst, hsrt⟩ := pairwise_cons.mp hsrt
        exact ⟨⟨hval, hfst next mem_cons_self⟩, hall, hsrt⟩

end Order

def BboRecord.level (bbo : BboRecord) : Side → Level
  | .bid => bbo.bid
  | .ask => bbo.ask

namespace Agg

open SlotMask

def kAggVenueSlots : Nat := 8

def kAggMaxLevelsPerSide : Nat := 80

def kAggSkewEnforced : Nat := 1

def kAggMemberDataError : Nat := 2

structure AggBboSide where
  (price quantity : Int := 0)
  venueQuantity : Fin kAggVenueSlots → Int := fun _ => 0
  exchangeTsNs : Nat := 0
  venueMask : BitVec 32 := 0
  (worstIngressAgeUs bestVenue timestampVenue contributorCount : Nat := 0)
  reserved : Fin 5 → Nat := fun _ => 0
deriving DecidableEq

structure AggBboRawSide where
  (price quantity : Int := 0)
  venueMask : BitVec 32 := 0
  bestVenue : Nat := 0
  reserved : Fin 3 → Nat := fun _ => 0
deriving DecidableEq

structure AggBboRecord where
  header : RecordHeader := {}
  (gatedBid gatedAsk : AggBboSide := {})
  (rawBid rawAsk : AggBboRawSide := {})
  (baseAsset quoteAsset : Fin 16 → UInt8 := fun _ => 0)
  venueSlotIds : Fin kAggVenueSlots → Nat := fun _ => 0
  (priceScale quantityScale : UInt8 := 0)
  memberCount : Nat := 0
  identityReserved : Fin 5 → Nat := fun _ => 0
  (memberMask liveMask : BitVec 32 := 0)
  (rawCrossBps gatedCrossBps : Int := 0)
  (skewUs crossSkewThresholdUs fxAgeUs crossBidVenue crossAskVenue fxVenue : Nat := 0)
  summaryReserved : Fin 9 → Nat := fun _ => 0
deriving DecidableEq

structure AggLevel where
  (price quantity : Int := 0)
  venueQuantity : Fin kAggVenueSlots → Int := fun _ => 0
  venueMask : BitVec 32 := 0
  contributorCount : Nat := 0
  reserved : Fin 3 → Nat := fun _ => 0
deriving DecidableEq

/-- The first `bid_count` and `ask_count` entries of the two arrays; the rest of them is zero. -/
structure AggOrderBookRecord where
  header : RecordHeader := {}
  (baseAsset quoteAsset : Fin 16 → UInt8 := fun _ => 0)
  venueSlotIds : Fin kAggVenueSlots → Nat := fun _ => 0
  (priceScale quantityScale : UInt8 := 0)
  (memberCount metadataReserved : Nat := 0)
  (memberMask activeMask : BitVec 32 := 0)
  (bids asks : List AggLevel := [])
deriving DecidableEq

def AggOrderBookRecord.levels (record : AggOrderBookRecord) : Side → List AggLevel
  | .bid => record.bids
  | .ask => record.asks

/-- The loop over the venue quantities of a side or a level: the total, or `none` where it refuses. -/
def venueTotal (mask : BitVec 32) (venueQuantity : Fin kAggVenueSlots → Int) : Option Int :=
  (finRange kAggVenueSlots).foldlM
    (fun total slot =>
      if venueQuantity slot < 0 ∨ (mask.getLsbD slot = false ∧ venueQuantity slot ≠ 0) ∨
          int64Max - venueQuantity slot < total then none
      else some (total + venueQuantity slot)) 0

def validSide (side : AggBboSide) (liveMask : BitVec 32) : Bool := decide <|
  0 ≤ side.quantity ∧ side.contributorCount ≤ kAggVenueSlots ∧ side.venueMask.toNat < 2 ^ kAggVenueSlots ∧
  side.venueMask &&& ~~~liveMask = 0 ∧ popcount side.venueMask = side.contributorCount ∧
  (∀ byte, side.reserved byte = 0) ∧ venueTotal side.venueMask side.venueQuantity = some side.quantity ∧
  if side.venueMask = 0 then
    side.price = 0 ∧ side.quantity = 0 ∧ side.exchangeTsNs = 0 ∧ side.worstIngressAgeUs = 0 ∧
    side.bestVenue = 0 ∧ side.timestampVenue = 0 ∧ side.contributorCount = 0
  else
    0 < side.price ∧ side.bestVenue < kAggVenueSlots ∧ side.timestampVenue < kAggVenueSlots ∧
    side.venueMask.getLsbD side.bestVenue = true ∧ side.venueMask.getLsbD side.timestampVenue = true

def validRawSide (side : AggBboRawSide) (memberMask : BitVec 32) : Bool := decide <|
  0 ≤ side.quantity ∧ side.venueMask.toNat < 2 ^ kAggVenueSlots ∧ side.venueMask &&& ~~~memberMask = 0 ∧
  (∀ byte, side.reserved byte = 0) ∧
  if side.venueMask = 0 then side.price = 0 ∧ side.quantity = 0 ∧ side.bestVenue = 0
  else 0 < side.price ∧ side.bestVenue < kAggVenueSlots ∧ side.venueMask.getLsbD side.bestVenue = true

def slotsNamed (memberMask : BitVec 32) (venueSlotIds : Fin kAggVenueSlots → Nat) : Bool := decide <|
  ∀ slot : Fin kAggVenueSlots, memberMask.getLsbD slot = true ↔ venueSlotIds slot ≠ 0

def validAggBbo (record : AggBboRecord) : Bool := decide <|
  record.memberCount ≤ kAggVenueSlots ∧ record.memberMask.toNat < 2 ^ kAggVenueSlots ∧
  popcount record.memberMask = record.memberCount ∧ record.liveMask.toNat < 2 ^ kAggVenueSlots ∧
  record.liveMask &&& ~~~record.memberMask = 0 ∧ 0 ≤ record.rawCrossBps ∧ 0 ≤ record.gatedCrossBps ∧
  (∀ byte, record.identityReserved byte = 0) ∧ (∀ byte, record.summaryReserved byte = 0) ∧
  validSide record.gatedBid record.liveMask = true ∧ validSide record.gatedAsk record.liveMask = true ∧
  validRawSide record.rawBid record.memberMask = true ∧ validRawSide record.rawAsk record.memberMask = true ∧
  slotsNamed record.memberMask record.venueSlotIds = true ∧
  record.crossBidVenue = record.gatedBid.timestampVenue ∧ record.crossAskVenue = record.gatedAsk.timestampVenue

def validAggLevel (level : AggLevel) (activeMask : BitVec 32) : Bool := decide <|
  0 ≤ level.quantity ∧ level.contributorCount ≤ kAggVenueSlots ∧ level.venueMask.toNat < 2 ^ kAggVenueSlots ∧
  level.venueMask &&& ~~~activeMask = 0 ∧ popcount level.venueMask = level.contributorCount ∧
  level.venueMask ≠ 0 ∧ 0 < level.price ∧ (∀ byte, level.reserved byte = 0) ∧
  venueTotal level.venueMask level.venueQuantity = some level.quantity

def validAggSide (side : Side) (activeMask : BitVec 32) (levels : List AggLevel) : Bool :=
  orderedLevels side (validAggLevel · activeMask) (·.price) levels

def validAggOrderbook (record : AggOrderBookRecord) : Bool := decide <|
  record.memberCount ≤ kAggVenueSlots ∧ record.bids.length ≤ kAggMaxLevelsPerSide ∧
  record.asks.length ≤ kAggMaxLevelsPerSide ∧ record.memberMask.toNat < 2 ^ kAggVenueSlots ∧
  record.activeMask.toNat < 2 ^ kAggVenueSlots ∧ record.activeMask &&& ~~~record.memberMask = 0 ∧
  popcount record.memberMask = record.memberCount ∧ record.metadataReserved = 0 ∧
  slotsNamed record.memberMask record.venueSlotIds = true ∧
  validAggSide .bid record.activeMask record.bids = true ∧
  validAggSide .ask record.activeMask record.asks = true

end Agg

end SelfQuant.Mds
