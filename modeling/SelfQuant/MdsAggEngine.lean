import SelfQuant.MdsAggMath

namespace SelfQuant.Mds.Agg

open SlotMask List

def kMaxMembers : Nat := kAggVenueSlots

structure MemberConfig where
  venue : Venue := .unknown
  ttlUs : Nat := 0
  (priceScale quantityScale : UInt8 := 0)
  convertUsdcToUsdt : Bool := false

structure EngineConfig where
  instrumentId : Nat := 0
  (baseAsset quoteAsset : Fin 16 → UInt8 := fun _ => 0)
  (priceScale quantityScale : UInt8 := 0)
  crossSkewObserveOnly : Bool := true
  crossSkewThresholdUs : Nat := 50000
  fxTtlUs : Nat := 100000
  fxMaxDepegBps : Nat := 200

def deriveRawLivenessUs (ttlUs : Nat) : Nat :=
  let scaled := if ttlUs > uint64Max / 10 then uint64Max else ttlUs * 10
  if ttlUs > 5000000 then ttlUs else if scaled < 5000000 then scaled else 5000000

def venueId : Venue → Nat
  | .unknown => 0
  | .binance => 1
  | .okx => 2
  | .bybit => 3
  | .gate => 4
  | .bitget => 5
  | .polymarket => 6
  | .sse => 7
  | .hyperliquid => 8
  | .aster => 9
  | .lighter => 10
  | .ibkr => 11

theorem venueId_ne_zero {venue : Venue} (h : venue ≠ .unknown) : venueId venue ≠ 0 := by
  cases venue with
  | unknown => exact absurd rfl h
  | _ => decide

def validLadder (side : Side) (levels : List Level) : Bool :=
  orderedLevels side (fun level => decide (0 < level.price ∧ 0 < level.quantity)) (·.price) levels

section Ladders

variable {side : Side} {levels : List Level}

theorem validLadder_iff : validLadder side levels = true ↔
    (∀ level ∈ levels, 0 < level.price ∧ 0 < level.quantity) ∧
      levels.Pairwise fun level next => side.better level.price next.price = true := by
  unfold validLadder
  rw [orderedLevels_iff]
  simp only [decide_eq_true_eq]

theorem validLadder_take (h : validLadder side levels = true) (n : Nat) :
    validLadder side (levels.take n) = true := by
  rw [validLadder_iff] at h ⊢
  exact ⟨fun level hlvl => h.1 level (mem_of_mem_take hlvl), h.2.sublist (take_sublist n levels)⟩

end Ladders

structure Ladder (side : Side) where
  levels : List Level := []
  valid : validLadder side levels = true := by rfl
  bounded : levels.length ≤ kLevelsPerMember := by decide

def Ladder.copy {side : Side} (levels : List Level) (h : validLadder side levels = true) : Ladder side where
  levels := levels.take kLevelsPerMember
  valid := validLadder_take h kLevelsPerMember
  bounded := by
    rw [length_take]
    omega

def Priced (bbo : BboRecord) : Prop := 0 < bbo.bid.price ∧ 0 < bbo.ask.price

def Quoted (bbo : BboRecord) : Prop := Priced bbo ∧ 0 ≤ bbo.bid.quantity ∧ 0 ≤ bbo.ask.quantity

instance (bbo : BboRecord) : Decidable (Priced bbo) := inferInstanceAs (Decidable (_ ∧ _))

instance (bbo : BboRecord) : Decidable (Quoted bbo) := inferInstanceAs (Decidable (_ ∧ _))

structure MemberState where
  config : MemberConfig
  named : config.venue ≠ .unknown
  rawLivenessUs : Nat
  bbo : BboRecord := {}
  bids : Ladder .bid := {}
  asks : Ladder .ask := {}
  (bboIngressNs bookIngressNs bookExchangeTsNs generation : Nat := 0)
  configured : Bool := true
  (bboValid bookValid : Bool := false)
  quoted : bboValid = true → Quoted bbo := by intro h; cases h

structure FxState where
  bbo : BboRecord := {}
  ingressNs : Nat := 0
  priceScale : UInt8 := 0
  venue : Venue := .unknown
  valid : Bool := false
  priced : valid = true → Priced bbo := by intro h; cases h

structure AggregationEngine where
  config : EngineConfig
  members : List MemberState := []
  bounded : members.length ≤ kMaxMembers := by decide
  fx : FxState := {}
  generation : Nat := 1
  sourceSequence : Nat := 0
  /-- The last record that differed from the one before it, with its flags. -/
  previousBbo : Option (AggBboRecord × Nat) := none
  previousBook : Option AggOrderBookRecord := none

def AggregationEngine.create (config : EngineConfig) : AggregationEngine := { config }

def Acceptable (engine : EngineConfig) (config : MemberConfig) : Prop :=
  config.venue ≠ .unknown ∧ config.ttlUs ≠ 0 ∧ config.priceScale ≤ engine.priceScale ∧
  config.quantityScale ≤ engine.quantityScale ∧
  (config.convertUsdcToUsdt = true → config.venue = .hyperliquid)

instance (engine : EngineConfig) (config : MemberConfig) : Decidable (Acceptable engine config) :=
  inferInstanceAs (Decidable (_ ∧ _))

variable (m : MemberState)

def MemberState.invalidate : MemberState :=
  { m with bboValid := false, bookValid := false, quoted := fun h => by cases h }

def MemberState.configure (config : MemberConfig) (h : config.venue ≠ .unknown) : MemberState :=
  { m.invalidate with
    config := config, named := h, rawLivenessUs := deriveRawLivenessUs config.ttlUs, configured := true }

def MemberState.generationChanged (input : Nat) : Bool := m.generation ≠ 0 ∧ input ≠ 0 ∧ m.generation ≠ input

def MemberState.levels : Side → List Level
  | .bid => m.bids.levels
  | .ask => m.asks.levels

namespace AggregationEngine

variable (s : AggregationEngine)

def touch : AggregationEngine := { s with generation := (s.generation + 1) % 2 ^ 32 }

variable (slot : Nat)

def withMember (member : MemberState) : AggregationEngine :=
  { s with
    members := s.members.set slot member
    bounded := by
      rw [length_set]
      exact s.bounded }

def addMember (config : MemberConfig) : Bool × AggregationEngine :=
  if h : s.members.length < kMaxMembers ∧ Acceptable s.config config then
    let member := { config := config, named := h.2.1, rawLivenessUs := deriveRawLivenessUs config.ttlUs }
    (true, touch { s with
      members := s.members ++ [member]
      bounded := by
        rw [length_append]
        exact h.1 })
  else (false, s)

def excludeMember : AggregationEngine :=
  match s.members[slot]? with
  | none => s
  | some member => (s.withMember slot { member.invalidate with configured := false }).touch

def reconfigureMember (config : MemberConfig) : Bool × AggregationEngine :=
  match s.members[slot]? with
  | none => (false, s.excludeMember slot)
  | some member =>
    if h : config.venue = member.config.venue ∧ Acceptable s.config config then
      (true, (s.withMember slot (member.configure config h.2.1)).touch)
    else (false, s.excludeMember slot)

def invalidateMember : AggregationEngine :=
  match s.members[slot]? with
  | none => s
  | some member => (s.withMember slot member.invalidate).touch

def invalidateFx : AggregationEngine :=
  touch { s with fx := { s.fx with valid := false, priced := fun h => by cases h } }

def updateBbo (record : BboRecord) (ingressMonoNs : Nat) : Bool × AggregationEngine :=
  match s.members[slot]? with
  | none => (false, s)
  | some member =>
    if h : member.configured = true ∧ record.header.state = .live ∧ Quoted record then
      let inputGeneration := record.header.bookGeneration
      let generationChanged := member.generationChanged inputGeneration
      let rejoined := !member.bboValid || generationChanged
      let updated := { member with
        bookValid := if generationChanged then false else member.bookValid
        generation := if inputGeneration ≠ 0 then inputGeneration else member.generation
        bbo := record, bboIngressNs := ingressMonoNs, bboValid := true, quoted := fun _ => h.2.2 }
      let s := s.withMember slot updated
      (true, if rejoined then s.touch else s)
    else (false, s)

def updateBook (input : BookInput) : Bool × AggregationEngine :=
  match s.members[slot]? with
  | none => (false, s)
  | some member =>
    if h : (member.configured = true ∧ input.bids ≠ [] ∧ input.asks ≠ []) ∧
        validLadder .bid input.bids = true ∧ validLadder .ask input.asks = true then
      let generationChanged := member.generationChanged input.generation
      let rejoined := !member.bookValid || generationChanged
      let kept := if generationChanged then
        { member with bboValid := false, quoted := fun h => by cases h } else member
      let updated := { kept with
        bids := .copy input.bids h.2.1, asks := .copy input.asks h.2.2, bookIngressNs := input.ingressMonoNs
        bookExchangeTsNs := input.exchangeTsNs
        generation := if input.generation ≠ 0 then input.generation else member.generation
        bookValid := true }
      let s := s.withMember slot updated
      (true, if rejoined then s.touch else s)
    else (false, s)

def updateFx (record : BboRecord) (priceScale : UInt8) (ingressMonoNs : Nat) (venue : Venue) : AggregationEngine :=
  { s with fx := {
      bbo := record, ingressNs := ingressMonoNs, priceScale := priceScale, venue := venue
      valid := decide (venue = .binance ∧ record.header.state = .live ∧ Priced record)
      priced := fun h => (of_decide_eq_true h).2.2 } }

end AggregationEngine

structure BboBuild where
  record : AggBboRecord := {}
  flags : Nat := 0
  (changed memberDataError : Bool := false)

structure BookBuild where
  record : AggOrderBookRecord := {}
  (changed publishable : Bool := false)

def AggBboRecord.semantic (record : AggBboRecord) : AggBboRecord :=
  { record with
    header := {}, gatedBid := { record.gatedBid with worstIngressAgeUs := 0 }
    gatedAsk := { record.gatedAsk with worstIngressAgeUs := 0 }, fxAgeUs := 0 }

def AggOrderBookRecord.semantic (record : AggOrderBookRecord) : AggOrderBookRecord := { record with header := {} }

namespace AggregationEngine

variable (s : AggregationEngine) (now : Nat)

def fxUsable : Bool :=
  match rescale 1 0 s.fx.priceScale with
  | none => false
  | some one =>
    let midpoint := (s.fx.bbo.bid.price + s.fx.bbo.ask.price).tdiv 2
    let deviation := if midpoint > one then midpoint - one else one - midpoint
    s.fx.valid && decide (ageUs now s.fx.ingressNs ≤ s.config.fxTtlUs) &&
      decide (deviation * 10000 ≤ one * s.config.fxMaxDepegBps)

def maskWhere (p : MemberState → Bool) : BitVec 32 := ofSlots 32 ((s.members.zipIdx.filter fun x => p x.1).map (·.2))

def venueSlotIds (slot : Fin kAggVenueSlots) : Nat :=
  match s.members[slot.val]? with
  | none => 0
  | some member => venueId member.config.venue

variable (m : MemberState)

def convert (side : Side) (level : Level) : Option Level :=
  let price :=
    if m.config.convertUsdcToUsdt then
      multiplyScaled level.price m.config.priceScale (s.fx.bbo.level side).price s.fx.priceScale
        s.config.priceScale (side = .ask)
    else rescale level.price m.config.priceScale s.config.priceScale
  price.bind fun price =>
    (rescale level.quantity m.config.quantityScale s.config.quantityScale).map fun quantity => ⟨price, quantity⟩

def normalized (side : Side) : Option Level := s.convert m side (m.bbo.level side)

def quotable : Bool := m.configured && m.bboValid && (!m.config.convertUsdcToUsdt || s.fxUsable now)

def rawMask : BitVec 32 :=
  s.maskWhere fun m => s.quotable now m && decide (ageUs now m.bboIngressNs ≤ m.rawLivenessUs)

def gatedMask : BitVec 32 :=
  s.maskWhere fun m => s.quotable now m && decide (ageUs now m.bboIngressNs ≤ m.config.ttlUs)

def needsFx : Bool := s.members.any fun m => m.configured && m.bboValid && m.config.convertUsdcToUsdt

variable (side : Side) (mask : BitVec 32)

def rawTurn (found : Option AggBboRawSide) (x : MemberState × Nat) : Option AggBboRawSide :=
  if mask.getLsbD x.2 = false then found
  else
    match s.normalized x.1 side, found with
    | none, _ => found
    | some quote, none => some {
        price := quote.price, quantity := quote.quantity, bestVenue := x.2, venueMask := .twoPow 32 x.2 }
    | some quote, some value =>
      if side.better quote.price value.price then some {
        price := quote.price, quantity := quote.quantity, bestVenue := x.2, venueMask := .twoPow 32 x.2 }
      else if quote.price = value.price then some { value with
        quantity := saturatingAdd value.quantity quote.quantity
        venueMask := value.venueMask ||| .twoPow 32 x.2 }
      else some value

def rawSide : AggBboRawSide := (s.members.zipIdx.foldl (s.rawTurn side mask) none).getD {}

def contribute (value : AggBboSide) (m : MemberState) (slot : Nat) (quantity : Int) : AggBboSide :=
  let timestamp := m.bbo.header.exchangeTsNs
  let older := timestamp ≠ 0 ∧ (value.exchangeTsNs = 0 ∨ timestamp < value.exchangeTsNs)
  { value with
    quantity := saturatingAdd value.quantity quantity
    venueQuantity := fun i => if i.val = slot then quantity else value.venueQuantity i
    venueMask := value.venueMask ||| .twoPow 32 slot, contributorCount := value.contributorCount + 1
    worstIngressAgeUs := max value.worstIngressAgeUs (clampU32 (ageUs now m.bboIngressNs))
    exchangeTsNs := if older then timestamp else value.exchangeTsNs
    timestampVenue := if older then slot else value.timestampVenue }

def gatedTurn (found : Option AggBboSide) (x : MemberState × Nat) : Option AggBboSide :=
  if mask.getLsbD x.2 = false then found
  else
    match s.normalized x.1 side, found with
    | none, _ => found
    | some quote, none => some (contribute now
        { price := quote.price, bestVenue := x.2, timestampVenue := x.2 } x.1 x.2 quote.quantity)
    | some quote, some value =>
      if side.better quote.price value.price then some (contribute now
        { price := quote.price, bestVenue := x.2, timestampVenue := x.2 } x.1 x.2 quote.quantity)
      else if quote.price = value.price then some (contribute now value x.1 x.2 quote.quantity)
      else some value

def gatedSide : AggBboSide := (s.members.zipIdx.foldl (s.gatedTurn now side mask) none).getD {}

/-- The part of the output that the loop over the skew works on. -/
structure Gate where
  mask : BitVec 32
  (bid ask : AggBboSide)
  (skewUs flags : Nat := 0)
  memberDataError : Bool := false

def Gate.skew (g : Gate) : Nat :=
  let difference := if g.bid.exchangeTsNs > g.ask.exchangeTsNs then g.bid.exchangeTsNs - g.ask.exchangeTsNs
    else g.ask.exchangeTsNs - g.bid.exchangeTsNs
  clampU32 (difference / 1000)

def Gate.olderSlot (g : Gate) : Nat :=
  if g.bid.exchangeTsNs < g.ask.exchangeTsNs then g.bid.timestampVenue else g.ask.timestampVenue

def openGate : Gate :=
  let mask := s.gatedMask now
  let bid := s.gatedSide now .bid mask
  let ask := s.gatedSide now .ask mask
  { mask, bid, ask, memberDataError := decide (bid.price > ask.price ∧ bid.timestampVenue = ask.timestampVenue) }

def dropVenue (g : Gate) (slot : Nat) : Gate :=
  let mask := g.mask &&& ~~~(.twoPow 32 slot)
  { g with
    mask
    bid := s.gatedSide now .bid mask, ask := s.gatedSide now .ask mask
    flags := g.flags ||| kAggSkewEnforced }

def enforceSkew (s : AggregationEngine) (now : Nat) : Nat → Gate → Gate
  | 0, g => g
  | turns + 1, g =>
    if g.bid.price > g.ask.price then
      let sameVenue := decide (g.bid.timestampVenue = g.ask.timestampVenue)
      if sameVenue ∨ g.bid.exchangeTsNs = 0 ∨ g.ask.exchangeTsNs = 0 then { g with memberDataError := sameVenue }
      else
        let g := { g with skewUs := g.skew }
        if g.skewUs ≤ s.config.crossSkewThresholdUs then g
        else if s.members.length ≤ g.olderSlot ∨ g.mask.getLsbD g.olderSlot = false then
          { g with memberDataError := true }
        else enforceSkew s now turns (s.dropVenue now g g.olderSlot)
    else g

def settledGate : Gate :=
  if s.config.crossSkewObserveOnly then s.openGate now
  else s.enforceSkew now (s.members.length - 1) (s.openGate now)

/-- The skew of the two sides is written once more after the loop. -/
def gate : Gate :=
  let g := s.settledGate now
  { g with skewUs := if g.bid.exchangeTsNs ≠ 0 ∧ g.ask.exchangeTsNs ≠ 0 then g.skew else g.skewUs }

def header : RecordHeader :=
  { instrumentId := s.config.instrumentId
    bookGeneration := s.generation, sourceSeq := (s.sourceSequence + 1) % 2 ^ 64, state := .live }

def bboRecord : AggBboRecord :=
  let g := s.gate now
  let rawBid := s.rawSide .bid (s.rawMask now)
  let rawAsk := s.rawSide .ask (s.rawMask now)
  { header := s.header
    gatedBid := g.bid, gatedAsk := g.ask
    rawBid, rawAsk
    baseAsset := s.config.baseAsset, quoteAsset := s.config.quoteAsset, venueSlotIds := s.venueSlotIds
    priceScale := s.config.priceScale, quantityScale := s.config.quantityScale
    memberCount := s.members.length, memberMask := s.maskWhere (·.configured), liveMask := g.mask
    rawCrossBps := crossBps rawBid.price rawAsk.price, gatedCrossBps := crossBps g.bid.price g.ask.price
    skewUs := g.skewUs, crossSkewThresholdUs := s.config.crossSkewThresholdUs
    fxAgeUs := if s.needsFx then clampU32 (ageUs now s.fx.ingressNs) else 0
    crossBidVenue := g.bid.timestampVenue, crossAskVenue := g.ask.timestampVenue
    fxVenue := if s.needsFx then venueId s.fx.venue else 0 }

def bboFlags : Nat :=
  let g := s.gate now
  if g.memberDataError then g.flags ||| kAggMemberDataError else g.flags

def buildBbo : BboBuild × AggregationEngine :=
  let record := s.bboRecord now
  let flags := s.bboFlags now
  let changed := match s.previousBbo with
    | none => true
    | some (previous, previousFlags) => !decide (flags = previousFlags ∧ record.semantic = previous.semantic)
  ({ record, flags, changed, memberDataError := (s.gate now).memberDataError },
    { s with
      sourceSequence := (s.sourceSequence + 1) % 2 ^ 64
      previousBbo := bif changed then some (record, flags) else s.previousBbo })

def active : Bool :=
  m.configured && m.bookValid && decide (ageUs now m.bookIngressNs ≤ m.config.ttlUs) &&
    (!m.config.convertUsdcToUsdt || s.fxUsable now)

def normalizeLevel (side : Side) (level : Level) : Option Level :=
  (s.convert m side level).filter fun level => decide (level.quantity > 0)

/-- A member that takes part in a merge, its slot, and the levels from its cursor on. -/
structure Cursor where
  member : MemberState
  slot : Nat
  levels : List Level

def cursors : List Cursor :=
  (s.members.zipIdx.filter fun x => s.active now x.1).map fun x => ⟨x.1, x.2, x.1.levels side⟩

def skipLevels (s : AggregationEngine) (m : MemberState) (side : Side) : List Level → List Level
  | [] => []
  | level :: levels =>
    match s.normalizeLevel m side level with
    | none => s.skipLevels m side levels
    | some _ => level :: levels

def Cursor.skip (c : Cursor) : Cursor := { c with levels := s.skipLevels c.member side c.levels }

def Cursor.price (s : AggregationEngine) (side : Side) (c : Cursor) : Option Int :=
  c.levels.head?.bind fun level => (s.normalizeLevel c.member side level).map (·.price)

def bestPrice (cursors : List Cursor) : Option Int :=
  cursors.foldl (fun best c =>
    match c.price s side, best with
    | none, _ => best
    | some price, none => some price
    | some price, some found => if side.better price found then some price else some found) none

/-- The second loop, for one member: what is left, the quantity of the level, the quantity of the
venue, and whether the member contributed. -/
def drainLevels (s : AggregationEngine) (m : MemberState) (side : Side) (price : Int) :
    List Level → Int × Int × Bool → List Level × Int × Int × Bool
  | [], sums => ([], sums)
  | level :: levels, (total, venue, contributed) =>
    match s.normalizeLevel m side level with
    | none => s.drainLevels m side price levels (total, venue, contributed)
    | some candidate =>
      if candidate.price ≠ price then (level :: levels, total, venue, contributed)
      else s.drainLevels m side price levels
        (saturatingAdd total candidate.quantity, saturatingAdd venue candidate.quantity, true)

def drain (price : Int) (level : AggLevel) (c : Cursor) : AggLevel × Cursor :=
  let (levels, total, venue, contributed) := s.drainLevels c.member side price c.levels (level.quantity, 0, false)
  let level := { level with
    quantity := total, venueQuantity := fun i => if i.val = c.slot then venue else level.venueQuantity i }
  (if contributed then { level with
      venueMask := level.venueMask ||| .twoPow 32 c.slot, contributorCount := level.contributorCount + 1 }
    else level, { c with levels })

def collect (s : AggregationEngine) (side : Side) (price : Int) : AggLevel → List Cursor → AggLevel × List Cursor
  | level, [] => (level, [])
  | level, c :: cursors =>
    let (level, c) := s.drain side price level c
    let (level, rest) := s.collect side price level cursors
    (level, c :: rest)

def mergeSide (s : AggregationEngine) (side : Side) : Nat → List Cursor → List AggLevel
  | 0, _ => []
  | room + 1, cursors =>
    let cursors := cursors.map (Cursor.skip s side)
    match s.bestPrice side cursors with
    | none => []
    | some price =>
      let (level, cursors) := s.collect side price { price } cursors
      level :: s.mergeSide side room cursors

def bookRecord : AggOrderBookRecord :=
  { header := s.header
    baseAsset := s.config.baseAsset, quoteAsset := s.config.quoteAsset, venueSlotIds := s.venueSlotIds
    priceScale := s.config.priceScale, quantityScale := s.config.quantityScale
    memberCount := s.members.length, memberMask := s.maskWhere (·.configured)
    activeMask := s.maskWhere (s.active now)
    bids := s.mergeSide .bid kAggMaxLevelsPerSide (s.cursors now .bid)
    asks := s.mergeSide .ask kAggMaxLevelsPerSide (s.cursors now .ask) }

def buildOrderbook : BookBuild × AggregationEngine :=
  let record := s.bookRecord now
  let changed := match s.previousBook with
    | none => true
    | some previous => !decide (record.semantic = previous.semantic)
  ({ record, changed
     publishable := decide (record.activeMask ≠ 0 ∧ record.bids ≠ [] ∧ record.asks ≠ []) },
    { s with
      sourceSequence := (s.sourceSequence + 1) % 2 ^ 64
      previousBook := bif changed then some record else s.previousBook })

end AggregationEngine

inductive EngineCall
  | addMember (config : MemberConfig)
  | reconfigureMember (slot : Nat) (config : MemberConfig)
  | excludeMember (slot : Nat)
  | invalidateMember (slot : Nat)
  | updateBbo (slot : Nat) (record : BboRecord) (ingressMonoNs : Nat)
  | updateBook (slot : Nat) (input : BookInput)
  | updateFx (record : BboRecord) (priceScale : UInt8) (ingressMonoNs : Nat) (venue : Venue)
  | invalidateFx
  | buildBbo (now : Nat)
  | buildOrderbook (now : Nat)

namespace AggregationEngine

def step (s : AggregationEngine) : EngineCall → AggregationEngine
  | .addMember config => (s.addMember config).2
  | .reconfigureMember slot config => (s.reconfigureMember slot config).2
  | .excludeMember slot => s.excludeMember slot
  | .invalidateMember slot => s.invalidateMember slot
  | .updateBbo slot record ingressMonoNs => (s.updateBbo slot record ingressMonoNs).2
  | .updateBook slot input => (s.updateBook slot input).2
  | .updateFx record priceScale ingressMonoNs venue => s.updateFx record priceScale ingressMonoNs venue
  | .invalidateFx => s.invalidateFx
  | .buildBbo now => (s.buildBbo now).2
  | .buildOrderbook now => (s.buildOrderbook now).2

def run (s : AggregationEngine) (calls : List EngineCall) : AggregationEngine := calls.foldl step s

def after (config : EngineConfig) (calls : List EngineCall) : AggregationEngine := run (create config) calls

end AggregationEngine

end SelfQuant.Mds.Agg
