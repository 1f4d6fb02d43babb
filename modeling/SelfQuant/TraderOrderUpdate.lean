import SelfQuant.TraderClaim

namespace SelfQuant.Trader

open List Prod

open Except (ok)

inductive OrderStatus
  | pending
  | unknown
  | open
  | partiallyFilled
  | filled
  | canceled
  | rejected
  | expired
  deriving DecidableEq, Repr

def OrderStatus.terminal : OrderStatus → Bool
  | .filled | .canceled | .rejected | .expired => true
  | .pending | .unknown | .open | .partiallyFilled => false

/-- A status that the table does not list has rank zero. -/
def OrderStatus.rank : OrderStatus → Nat
  | .pending => 1
  | .open => 2
  | .partiallyFilled => 3
  | _ => 0

inductive NumberText
  | blank
  | number (value : Decimal)
  | garbled
  deriving DecidableEq

def NumberText.value : NumberText → Decimal
  | .number value => value
  | .blank | .garbled => 0

inductive StatusText
  | blank
  | status (status : OrderStatus)
  | garbled
  deriving DecidableEq

structure Order where
  quantity : Decimal
  (filledQuantity averagePrice : Decimal := 0)
  status : OrderStatus := .pending
  (venueOrderID errorCode : String := "")
  errorMessage : List UInt8 := []
  /-- Nanoseconds since the epoch, or the zero time. -/
  lastVenueEventAt : Option Int := none
  deriving DecidableEq

structure VenueResult where
  venueOrderID : String := ""
  status : StatusText := .blank
  (filledQuantity averagePrice : NumberText := .blank)
  (errorCode errorMessage : String := "")
  localCommandAck : Bool := false
  deriving DecidableEq

structure OrderFill where
  tradeID : String
  (quantity price : NumberText)
  deriving DecidableEq

/-- The texts of the errors; all of them wrap `ErrInvalidArgument`. -/
inductive UpdateError
  | invalidFilledQuantity
  | invalidAveragePrice
  | invalidStatus
  | fillIDsRequired
  | invalidFillQuantity
  | invalidFillPrice
  deriving DecidableEq, Repr

/-- What `strings.TrimSpace` cuts off. -/
def isSpace (c : Char) : Bool :=
  c.toNat ∈ [9, 10, 11, 12, 13, 32, 0x85, 0xa0, 0x1680, 0x2028, 0x2029, 0x202f, 0x205f, 0x3000] ∨
    0x2000 ≤ c.toNat ∧ c.toNat ≤ 0x200a

/-- The first 500 bytes, which may end within a character. -/
def truncateMessage (value : String) : List UInt8 :=
  let trimmed := ((value.toList.dropWhile isSpace).reverse.dropWhile isSpace).reverse
  (trimmed.flatMap String.utf8EncodeChar).take 500

def year2000 : Int := 946684800 * 10 ^ 9

def hasVenueEventWatermark : Option Int → Bool
  | none => false
  | some time => year2000 ≤ time

def mergeOrderStatus (current : OrderStatus) (incoming : StatusText) (filled quantity : Decimal) :
    Except UpdateError OrderStatus :=
  if 0 < quantity ∧ quantity ≤ filled then .ok .filled
  else if current.terminal then .ok current
  else
    match incoming with
    | .blank => .ok (if 0 < filled then .partiallyFilled else current)
    | .garbled => .error .invalidStatus
    | .status incoming =>
      if incoming.terminal then .ok incoming
      else if incoming.rank < current.rank then .ok current
      else if 0 < filled then .ok .partiallyFilled
      else .ok incoming

def readAverage (text : NumberText) (old : Decimal) : Except UpdateError Decimal :=
  match text with
  | .blank => .ok old
  | .number average => if average < 0 then .error .invalidAveragePrice else .ok average
  | .garbled => .error .invalidAveragePrice

def Order.filledTo (order : Order) (filled average : Decimal) : Order :=
  { order with filledQuantity := filled, averagePrice := average }

/-- A late answer to an own command: the venue has told more since, so only a larger quantity counts. -/
def mergeAck (current : Order) (result : VenueResult) : Except UpdateError Order :=
  match result.filledQuantity with
  | .blank => .ok current
  | .garbled => .error .invalidFilledQuantity
  | .number candidate =>
    if candidate < 0 then .error .invalidFilledQuantity
    else if candidate ≤ current.filledQuantity then .ok current
    else if result.averagePrice = .blank then .ok current
    else
      match readAverage result.averagePrice current.averagePrice with
      | .error e => .error e
      | .ok average => .ok (current.filledTo candidate average)

variable (div : Decimal → Decimal → Decimal)

def mergeFills (current : Order) (result : VenueResult) (fresh : Bool)
    (insertedFills : List OrderFill) : Except UpdateError (Decimal × Decimal) :=
  match result.filledQuantity with
  | .garbled => .error .invalidFilledQuantity
  | .number candidate =>
    if candidate < 0 then .error .invalidFilledQuantity
    else if current.filledQuantity < candidate then
      match readAverage result.averagePrice current.averagePrice with
      | .error e => .error e
      | .ok average => .ok (candidate, average)
    else if candidate = current.filledQuantity ∧ fresh then
      match readAverage result.averagePrice current.averagePrice with
      | .error e => .error e
      | .ok average => .ok (current.filledQuantity, average)
    else .ok (current.filledQuantity, current.averagePrice)
  | .blank =>
    if insertedFills = [] then .ok (current.filledQuantity, current.averagePrice)
    else
      let filled := current.filledQuantity + (insertedFills.map (·.quantity.value)).sum
      let notional := current.filledQuantity * current.averagePrice +
        (insertedFills.map fun fill => fill.quantity.value * fill.price.value).sum
      .ok (filled, if 0 < filled then div notional filled else current.averagePrice)

/-- Not older than what the venue told before. -/
def isFresh (lastEventAt eventAt : Option Int) : Bool :=
  match lastEventAt, eventAt with
  | some last, some time => last ≤ time
  | _, _ => true

def capFilled (filled quantity : Decimal) : Decimal := if 0 < quantity ∧ quantity ≤ filled then quantity else filled

def mergeReport (current : Order) (result : VenueResult)
    (fresh : Bool) (insertedFills : List OrderFill) : Except UpdateError Order :=
  match mergeFills div current result fresh insertedFills with
  | .error e => .error e
  | .ok (filled, average) =>
    let filled := capFilled filled current.quantity
    match mergeOrderStatus current.status (if fresh then result.status else .blank) filled current.quantity with
    | .error e => .error e
    | .ok status =>
      .ok { current with
        filledQuantity := filled, averagePrice := average
        status
        errorCode := if fresh then result.errorCode else current.errorCode
        errorMessage := if fresh then truncateMessage result.errorMessage else current.errorMessage }

def Order.named (order : Order) (result : VenueResult) : Order :=
  { order with venueOrderID := if order.venueOrderID = "" then result.venueOrderID else order.venueOrderID }

def mergeOrderUpdate (current : Order) (result : VenueResult)
    (eventAt : Option Int) (insertedFills : List OrderFill) (skipVenueWatermark : Bool) :
    Except UpdateError Order :=
  if result.localCommandAck ∧ hasVenueEventWatermark current.lastVenueEventAt then
    mergeAck (current.named result) result
  else if skipVenueWatermark then .ok (current.named result)
  else mergeReport div (current.named result) result (isFresh current.lastVenueEventAt eventAt) insertedFills

/-- What is written to `last_venue_event_at`: the later one of the two times. -/
def advanceWatermark (last : Option Int) (time : Int) : Int :=
  match last with
  | none => time
  | some last => max last time

section Inversion

variable {div : Decimal → Decimal → Decimal} {current merged : Order} {result : VenueResult}
  {fresh : Bool} {insertedFills : List OrderFill} {incoming : StatusText} {status now : OrderStatus}
  {filled average quantity old : Decimal}

theorem readAverage_number (h : 0 ≤ average) :
    readAverage (.number average) old = .ok average := if_neg (not_lt.mpr h)

theorem readAverage_ok {text : NumberText} (hblk : text ≠ .blank)
    (h : readAverage text old = .ok average) : text = .number average ∧ 0 ≤ average := by
  unfold readAverage at h
  split at h
  next => exact absurd rfl hblk
  next given =>
    split_ifs at h with hneg
    cases h
    exact ⟨rfl, not_lt.mp hneg⟩
  next => cases h

theorem mergeOrderStatus_of_terminal (hnow : now.terminal)
    (h : mergeOrderStatus now incoming filled quantity = .ok status) : status = now ∨ status = .filled := by
  unfold mergeOrderStatus at h
  split at h
  next => exact .inr (ok.inj h).symm
  next => exact .inl (ok.inj h).symm

theorem mergeReport_ok (h : mergeReport div current result fresh insertedFills = .ok merged) :
    ∃ filled average status, mergeFills div current result fresh insertedFills = .ok (filled, average) ∧
      mergeOrderStatus current.status (if fresh then result.status else .blank)
        (capFilled filled current.quantity) current.quantity = .ok status ∧
      merged = { current with
        filledQuantity := capFilled filled current.quantity, averagePrice := average
        status
        errorCode := if fresh then result.errorCode else current.errorCode
        errorMessage := if fresh then truncateMessage result.errorMessage else current.errorMessage } := by
  unfold mergeReport at h
  split at h
  next => cases h
  next filled average hfls =>
  dsimp only at h
  split at h
  next => cases h
  next status hstt => exact ⟨filled, average, status, hfls, hstt, (ok.inj h).symm⟩

theorem mergeAck_ok (h : mergeAck current result = .ok merged) : merged = current ∨
    ∃ candidate average, result.filledQuantity = .number candidate ∧ result.averagePrice ≠ .blank ∧
      readAverage result.averagePrice current.averagePrice = .ok average ∧
      current.filledQuantity < candidate ∧
      merged = current.filledTo candidate average := by
  unfold mergeAck at h
  split at h
  next => exact .inl (ok.inj h).symm
  next => cases h
  next candidate hcand =>
  split_ifs at h with hneg hle hblk
  · exact .inl (ok.inj h).symm
  · exact .inl (ok.inj h).symm
  · split at h
    next => cases h
    next average havg =>
    exact .inr ⟨candidate, average, hcand, hblk, havg, not_le.mp hle, (ok.inj h).symm⟩

theorem mergeAck_of_number {cand : Decimal} (hcand : result.filledQuantity = .number cand)
    (havg : result.averagePrice = .number average) (hnn : 0 ≤ average)
    (hfil : 0 ≤ current.filledQuantity) (hmo : current.filledQuantity < cand) :
    mergeAck current result = .ok (current.filledTo cand average) := by
  have hneg : ¬ cand < 0 := not_lt.mpr (hfil.trans hmo.le)
  unfold mergeAck
  rw [hcand, havg]
  simp only [if_neg hneg, if_neg (not_le.mpr hmo), reduceCtorEq, if_false, readAverage_number hnn]

theorem mergeOrderUpdate_cases {eventAt : Option Int} {skip : Bool}
    (h : mergeOrderUpdate div current result eventAt insertedFills skip = .ok merged) :
    (result.localCommandAck ∧ hasVenueEventWatermark current.lastVenueEventAt ∧
      mergeAck (current.named result) result = .ok merged) ∨
    (¬ (result.localCommandAck ∧ hasVenueEventWatermark current.lastVenueEventAt) ∧
      (merged = current.named result ∨ mergeReport div (current.named result) result
        (isFresh current.lastVenueEventAt eventAt) insertedFills = .ok merged)) := by
  unfold mergeOrderUpdate at h
  split_ifs at h with hack hskip
  · exact .inl ⟨hack.1, hack.2, h⟩
  · exact .inr ⟨hack, .inl (ok.inj h).symm⟩
  · exact .inr ⟨hack, .inr h⟩

theorem mergeFills_mono (hfls : ∀ fill ∈ insertedFills, 0 ≤ fill.quantity.value)
    (h : mergeFills div current result fresh insertedFills = .ok (filled, average)) :
    current.filledQuantity ≤ filled := by
  unfold mergeFills at h
  split at h
  next => cases h
  next candidate =>
    split_ifs at h with hneg hmo hsm
    · split at h
      next => cases h
      next => exact hmo.le.trans (congrArg fst (ok.inj h)).le
    · split at h
      next => cases h
      next => exact (congrArg fst (ok.inj h)).le
    · exact (congrArg fst (ok.inj h)).le
  next =>
    split_ifs at h with hno
    · exact (congrArg fst (ok.inj h)).le
    · have hsum : 0 ≤ (insertedFills.map (·.quantity.value)).sum := sum_nonneg (forall_mem_map.mpr hfls)
      have hfil : current.filledQuantity + (insertedFills.map (·.quantity.value)).sum = filled :=
        congrArg fst (ok.inj h)
      rw [← hfil]
      exact le_add_of_nonneg_right hsum

end Inversion

/-- `orderFillAverageState`, without the lock and what is only logged. -/
structure FillAverageState where
  terminal : Bool := false
  expiresAt : Option Int := none
  ensured : Bool := false
  (authoritativeQty fillQty fillNotional lastPricedQty : Decimal := 0)
  seenTradeIDs : List String := []
  (seededPriced averageFinalized : Bool := false)

structure FillAveragePending where
  newTradeIDs : List String := []
  (deltaFillQty deltaFillNotional : Decimal := 0)
  (candidateAuthoritativeQty candidateLastPricedQty : Decimal)
  writeAverage : Bool := false

namespace FillAverageState

def terminalTTL : Int := 600 * 10 ^ 9

variable (state : FillAverageState)

/-- `canPruneLocked` of the tracker's own entry. -/
def canPrune (refs : Nat) (now : Int) : Bool := state.terminal ∧ refs = 0 ∧ state.expiresAt.any (· ≤ now)

/-- The entry of an order when an update takes hold of it, after old entries were pruned. -/
def acquire (entry : Option FillAverageState) (refs : Nat) (now : Int) : FillAverageState :=
  match entry with
  | none => {}
  | some state => if state.canPrune refs now then {} else state

def marked (now : Int) (markTerminal : Bool) : FillAverageState :=
  if markTerminal then { state with terminal := true, expiresAt := some (now + terminalTTL) } else state

/-- The entry once the update lets go of it; `refs` updates still hold it. -/
def release (refs : Nat) (now : Int) (markTerminal : Bool) : Option FillAverageState :=
  if (state.marked now markTerminal).canPrune refs now then none else some (state.marked now markTerminal)

/-- `ensureLocked`: an entry starts from what is stored with the order. -/
def ensure (order : Order) : FillAverageState :=
  if state.ensured then state
  else if 0 < order.averagePrice then
    { state with
      ensured := true, authoritativeQty := order.filledQuantity, fillQty := order.filledQuantity
      fillNotional := order.filledQuantity * order.averagePrice, lastPricedQty := order.filledQuantity
      seededPriced := true, averageFinalized := true }
  else
    { state with
      ensured := true, authoritativeQty := order.filledQuantity, fillQty := 0, fillNotional := 0
      lastPricedQty := 0, seededPriced := false, averageFinalized := false }

/-- `observeFillLocked`: a trade counts once, and only with a positive quantity and price. -/
def observeFill (pending : FillAveragePending) (fill : OrderFill) : FillAveragePending :=
  if fill.tradeID = "" then pending
  else if fill.tradeID ∈ state.seenTradeIDs then pending
  else if fill.tradeID ∈ pending.newTradeIDs then pending
  else
    match fill.quantity, fill.price with
    | .number quantity, .number price =>
      if quantity ≤ 0 then pending
      else if price ≤ 0 then pending
      else { pending with
        newTradeIDs := fill.tradeID :: pending.newTradeIDs, deltaFillQty := pending.deltaFillQty + quantity
        deltaFillNotional := pending.deltaFillNotional + quantity * price }
    | _, _ => pending

/-- `Prepare` of an entry that was ensured: what to commit, and the average if it is to be written. -/
def prepare (div : Decimal → Decimal → Decimal) (state : FillAverageState) (status : OrderStatus)
    (authoritativeQty : Decimal) (incoming inserted : List OrderFill) :
    FillAveragePending × Option Decimal :=
  let fills := if state.seededPriced then inserted else incoming
  let pending := fills.foldl state.observeFill
    { candidateAuthoritativeQty := authoritativeQty, candidateLastPricedQty := state.lastPricedQty }
  let candidateFillQty := state.fillQty + pending.deltaFillQty
  let candidateNotional := state.fillNotional + pending.deltaFillNotional
  if !state.averageFinalized ∧ status.terminal ∧ 0 < authoritativeQty ∧
      candidateFillQty = authoritativeQty ∧ 0 < candidateFillQty then
    ({ pending with writeAverage := true, candidateLastPricedQty := authoritativeQty },
      some (div candidateNotional candidateFillQty))
  else (pending, none)

def commit (pending : FillAveragePending) : FillAverageState :=
  { state with
    seenTradeIDs := pending.newTradeIDs ++ state.seenTradeIDs
    fillQty := state.fillQty + pending.deltaFillQty
    fillNotional := state.fillNotional + pending.deltaFillNotional
    authoritativeQty := pending.candidateAuthoritativeQty
    lastPricedQty := if pending.writeAverage then pending.candidateLastPricedQty else state.lastPricedQty
    averageFinalized := pending.writeAverage || state.averageFinalized }

end FillAverageState

/-- One call of `applyOrderUpdate`, with what the outside decides: the time, how many other calls hold the
order's tracker entry, and whether the transaction commits. -/
structure OrderUpdate where
  result : VenueResult
  eventAt : Option Int := none
  stream : Bool := false
  fills : List OrderFill := []
  skipVenueWatermark : Bool := false
  now : Int := 0
  refs : Nat := 0
  commits : Bool := true
  deriving DecidableEq

/-- The row of an order, the trades stored for it under its venue order ids, and its tracker entry. -/
structure OrderStore where
  row : Order
  (hyperliquid arbitrage : Bool := false)
  storedTrades : List (String × String) := []
  tracker : Option FillAverageState := none

namespace OrderStore

variable (div : Decimal → Decimal → Decimal) (store : OrderStore)

def tracked : Bool := store.hyperliquid && store.arbitrage

/-- The row as it is read: a missing event time is read as the epoch. -/
def current : Order := { store.row with lastVenueEventAt := some (store.row.lastVenueEventAt.getD 0) }

/-- A fill that is fit to be stored, with a missing price as zero. -/
def checkFill (venueOrderID : String) (fill : OrderFill) : Except UpdateError OrderFill :=
  if fill.tradeID = "" ∨ venueOrderID = "" then .error .fillIDsRequired
  else
    match fill.quantity with
    | .blank | .garbled => .error .invalidFillQuantity
    | .number quantity =>
      if quantity ≤ 0 then .error .invalidFillQuantity
      else
        match fill.price with
        | .garbled => .error .invalidFillPrice
        | .blank => .ok { fill with price := .number 0 }
        | .number price => if price < 0 then .error .invalidFillPrice else .ok fill

def insertFills (hyperliquid : Bool) (venueOrderID : String) (storedTrades : List (String × String)) :
    List OrderFill → Except UpdateError (List OrderFill × List (String × String))
  | [] => .ok ([], storedTrades)
  | fill :: fills =>
    match checkFill venueOrderID fill with
    | .error e => .error e
    | .ok checked =>
      -- trades without a price come again with one on this venue
      if hyperliquid ∧ checked.price.value ≤ 0 then insertFills hyperliquid venueOrderID storedTrades fills
      else if (venueOrderID, checked.tradeID) ∈ storedTrades then
        insertFills hyperliquid venueOrderID storedTrades fills
      else
        match insertFills hyperliquid venueOrderID ((venueOrderID, checked.tradeID) :: storedTrades) fills with
        | .error e => .error e
        | .ok (inserted, stored) => .ok (checked :: inserted, stored)

def venueOrderID (store : OrderStore) (update : OrderUpdate) : String :=
  if store.row.venueOrderID = "" then update.result.venueOrderID else store.row.venueOrderID

variable (update : OrderUpdate)

def mergeUpdate : Except UpdateError (Order × List OrderFill × List (String × String)) :=
  match insertFills store.hyperliquid (store.venueOrderID update) store.storedTrades update.fills with
  | .error e => .error e
  | .ok (inserted, stored) =>
    match mergeOrderUpdate div store.current update.result update.eventAt inserted update.skipVenueWatermark with
    | .error e => .error e
    | .ok merged => .ok (merged, inserted, stored)

/-- The column `last_venue_event_at` after the update. The callers leave out the time only with the answer
to an own command. -/
def venueEventAt : Option Int :=
  if update.result.localCommandAck ∨ update.skipVenueWatermark then store.row.lastVenueEventAt
  else
    match update.eventAt with
    | none => store.row.lastVenueEventAt
    | some time => some (advanceWatermark store.row.lastVenueEventAt time)

variable (merged : Order)

def authoritativeQty : Decimal :=
  if update.stream ∧ !update.skipVenueWatermark then merged.filledQuantity else store.row.filledQuantity

def entry : FillAverageState := FillAverageState.acquire store.tracker update.refs update.now

def ensured : FillAverageState := (store.entry update).ensure store.current

variable (inserted : List OrderFill)

def prepared : FillAveragePending × Option Decimal :=
  (store.ensured update).prepare div merged.status (store.authoritativeQty update merged) update.fills inserted

def written : Order :=
  { merged with
    averagePrice :=
      if store.tracked then (store.prepared div update merged inserted).2.getD merged.averagePrice
      else merged.averagePrice
    lastVenueEventAt := store.venueEventAt update }

/-- The store when the transaction is rolled back: only the tracker's entry was touched. -/
def rolledBack (entry : FillAverageState) : OrderStore :=
  { store with tracker := if store.tracked then entry.release update.refs update.now false else store.tracker }

def committed (stored : List (String × String)) : OrderStore :=
  { store with
    row := store.written div update merged inserted, storedTrades := stored
    tracker :=
      if store.tracked then
        ((store.ensured update).commit (store.prepared div update merged inserted).1).release update.refs
          update.now merged.status.terminal
      else store.tracker }

def applyOrderUpdate : OrderStore :=
  match mergeUpdate div store update with
  | .error _ => store.rolledBack update (store.entry update)
  | .ok (merged, inserted, stored) =>
    if update.commits then store.committed div update merged inserted stored
    else store.rolledBack update (store.ensured update)

def run (updates : List OrderUpdate) : OrderStore := updates.foldl (applyOrderUpdate div) store

section Inversion

variable {div : Decimal → Decimal → Decimal} {store : OrderStore} {update : OrderUpdate}
  {venueOrderID : String} {hyperliquid : Bool} {storedTrades stored : List (String × String)}
  {fill checked : OrderFill} {fills inserted : List OrderFill} {merged : Order}

theorem checkFill_pos (h : checkFill venueOrderID fill = .ok checked) : 0 < checked.quantity.value := by
  unfold checkFill at h
  split_ifs at h with hids
  split at h
  next => cases h
  next => cases h
  next quantity hqty =>
  split_ifs at h with hle
  have hvl : 0 < fill.quantity.value := by
    rw [hqty]
    exact not_le.mp hle
  split at h
  next => cases h
  next =>
    cases h
    exact hvl
  next =>
    split_ifs at h
    cases h
    exact hvl

theorem insertFills_pos (h : insertFills hyperliquid venueOrderID storedTrades fills = .ok (inserted, stored)) :
    ∀ fill ∈ inserted, 0 < fill.quantity.value := by
  induction fills generalizing inserted stored storedTrades with
  | nil =>
    cases h
    exact fun fill hmem => absurd hmem not_mem_nil
  | cons fill fills ih =>
    unfold insertFills at h
    split at h
    next => cases h
    next checked hchk =>
    split_ifs at h with hpriceless hdup
    · exact ih h
    · exact ih h
    · split at h
      next => cases h
      next later stored hlat =>
      cases h
      intro fill hmem
      rcases mem_cons.mp hmem with rfl | hmem
      · exact checkFill_pos hchk
      · exact ih hlat fill hmem

theorem checkFill_of_insertFills
    (h : insertFills hyperliquid venueOrderID storedTrades fills = .ok (inserted, stored)) :
    ∀ fill ∈ fills, ∃ checked, checkFill venueOrderID fill = .ok checked := by
  induction fills generalizing inserted stored storedTrades with
  | nil => exact fun fill hmem => absurd hmem not_mem_nil
  | cons fill fills ih =>
    unfold insertFills at h
    split at h
    next => cases h
    next checked hchk =>
    have hrs : ∀ fill ∈ fills, ∃ checked, checkFill venueOrderID fill = .ok checked := by
      split_ifs at h with hpriceless hdup
      · exact ih h
      · exact ih h
      · split at h
        next => cases h
        next later stored hlat => exact ih hlat
    exact forall_mem_cons.mpr ⟨⟨checked, hchk⟩, hrs⟩

theorem insertFills_ok (h : ∀ fill ∈ fills, ∃ checked, checkFill venueOrderID fill = .ok checked) :
    ∃ inserted stored, insertFills hyperliquid venueOrderID storedTrades fills = .ok (inserted, stored) := by
  induction fills generalizing storedTrades with
  | nil => exact ⟨[], storedTrades, rfl⟩
  | cons fill fills ih =>
    obtain ⟨checked, hchk⟩ := h fill mem_cons_self
    have hrs := fun other hmem => h other (mem_cons_of_mem fill hmem)
    unfold insertFills
    rw [hchk]
    dsimp only
    split_ifs
    · exact ih hrs
    · exact ih hrs
    · obtain ⟨inserted, stored, hins⟩ : ∃ inserted stored, insertFills hyperliquid venueOrderID
          ((venueOrderID, checked.tradeID) :: storedTrades) fills = .ok (inserted, stored) := ih hrs
      exact ⟨checked :: inserted, stored, by rw [hins]⟩

theorem mergeUpdate_ok (h : mergeUpdate div store update = .ok (merged, inserted, stored)) :
    insertFills store.hyperliquid (store.venueOrderID update) store.storedTrades update.fills =
        .ok (inserted, stored) ∧
      mergeOrderUpdate div store.current update.result update.eventAt inserted
        update.skipVenueWatermark = .ok merged := by
  unfold mergeUpdate at h
  split at h
  next => cases h
  next inserted stored hins =>
  split at h
  next => cases h
  next merged hmrg =>
  cases h
  exact ⟨hins, hmrg⟩

theorem applyOrderUpdate_cases : ((applyOrderUpdate div store update).row = store.row ∧
      ∀ merged inserted stored, mergeUpdate div store update = .ok (merged, inserted, stored) →
        update.commits = false) ∨
    ∃ merged inserted stored, mergeUpdate div store update = .ok (merged, inserted, stored) ∧
      update.commits = true ∧
      applyOrderUpdate div store update = store.committed div update merged inserted stored := by
  unfold applyOrderUpdate
  split
  next e he => exact .inl ⟨rfl, fun merged inserted stored h => by rw [he] at h; cases h⟩
  next merged inserted stored hmrg =>
  split_ifs with hcms
  · exact .inr ⟨merged, inserted, stored, hmrg, hcms, rfl⟩
  · exact .inl ⟨rfl, fun _ _ _ _ => Bool.eq_false_iff.mpr hcms⟩

theorem mergeUpdate_keeps (h : mergeUpdate div store update = .ok (merged, inserted, stored)) :
    merged.quantity = store.row.quantity ∧ (store.row.status.terminal = true → merged.status.terminal = true) := by
  rcases mergeOrderUpdate_cases (mergeUpdate_ok h).2 with ⟨-, -, hack⟩ | ⟨-, hnamed | hreport⟩
  · rcases mergeAck_ok hack with rfl | ⟨candidate, average, -, -, -, -, rfl⟩
    · exact ⟨rfl, id⟩
    · exact ⟨rfl, id⟩
  · rw [hnamed]
    exact ⟨rfl, id⟩
  · obtain ⟨filled, average, status, -, hstt, rfl⟩ := mergeReport_ok hreport
    refine ⟨rfl, fun htm => ?_⟩
    rcases mergeOrderStatus_of_terminal htm hstt with hsm | hfil
    · exact (congrArg OrderStatus.terminal hsm).trans htm
    · exact congrArg OrderStatus.terminal hfil

theorem applyOrderUpdate_keeps : (applyOrderUpdate div store update).row.quantity = store.row.quantity ∧
      (store.row.status.terminal = true → (applyOrderUpdate div store update).row.status.terminal = true) := by
  rcases applyOrderUpdate_cases with ⟨hrow, -⟩ | ⟨merged, inserted, stored, hmrg, -, hrow⟩
  · rw [hrow]
    exact ⟨rfl, id⟩
  · obtain ⟨hqty, htm⟩ := mergeUpdate_keeps hmrg
    rw [hrow]
    exact ⟨hqty, htm⟩

end Inversion

end OrderStore

end SelfQuant.Trader
