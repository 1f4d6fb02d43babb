import SelfQuant.BitScan
import Mathlib.Algebra.Order.Ring.Int

namespace SelfQuant.Mds

open BitScan

inductive Side
  | bid | ask
deriving DecidableEq

inductive BookState
  | empty | building | live | invalid | needsRestart
deriving DecidableEq

structure Level where
  (price quantity : Int := 0)
deriving DecidableEq

def kMaxLadderLevels : Nat := 16384

inductive LadderResult
  | ok | invalidPrice | outOfWindow | needsRestart
deriving DecidableEq

/-- One side of a book: a window of `capacity` prices from `windowBaseTicks` up, one tick apart.
`bestIndex` is `none` where the source has -1, and `occupied` are the words of the bitmap. -/
structure Ladder where
  side : Side
  capacity : Nat
  (windowBaseTicks tickSize : Int := 0)
  generation : Nat := 0
  state : BookState := .empty
  bestIndex : Option Nat := none
  quantities : Nat → Int := fun _ => 0
  occupied : Nat → BitVec 64 := fun _ => 0

namespace Ladder

def create (side : Side) (capacity : Nat) : Ladder :=
  { side := side, capacity := max 1 (min capacity kMaxLadderLevels) }

variable (l : Ladder)

def reset (windowBaseTicks tickSize : Int) (generation : Nat) : Ladder :=
  { l with
    windowBaseTicks := windowBaseTicks, tickSize := tickSize, generation := generation
    state := if tickSize > 0 then .building else .invalid
    bestIndex := none, quantities := fun _ => 0, occupied := fun _ => 0 }

def wordWithin (word : Nat) : BitVec 64 :=
  if word = l.capacity / 64 ∧ l.capacity % 64 ≠ 0 then l.occupied word &&& (1#64 <<< (l.capacity % 64) - 1#64)
  else l.occupied word

def recomputeBest : Ladder :=
  { l with bestIndex := match l.side with
      | .ask => firstSet l.occupied ((l.capacity + 63) / 64)
      | .bid => lastSet l.wordWithin ((l.capacity + 63) / 64) }

def improves (side : Side) (index best : Nat) : Bool :=
  match side with
  | .bid => decide (index > best)
  | .ask => decide (index < best)

def bestWith (side : Side) (index : Nat) : Option Nat → Nat
  | none => index
  | some best => if improves side index best then index else best

def put (index : Nat) (quantity : Int) : Ladder :=
  if quantity = 0 then
    let l := { l with quantities := Function.update l.quantities index 0, occupied := clearBit l.occupied index }
    if l.bestIndex = some index then l.recomputeBest else l
  else
    { l with
      quantities := Function.update l.quantities index quantity, occupied := setBit l.occupied index
      bestIndex := some (bestWith l.side index l.bestIndex) }

def apply (price quantity : Int) : LadderResult × Ladder :=
  if l.state = .needsRestart then (.needsRestart, l)
  else if l.state = .invalid ∨ l.tickSize ≤ 0 ∨ price < 0 ∨ quantity < 0 ∨ price % l.tickSize ≠ 0 then
    (.invalidPrice, { l with state := .invalid })
  else
    let relative := price / l.tickSize - l.windowBaseTicks
    if relative < 0 ∨ relative ≥ l.capacity then (.outOfWindow, { l with state := .invalid })
    else (.ok, l.put relative.toNat quantity)

def levelAt (index : Nat) : Level := ⟨(l.windowBaseTicks + index) * l.tickSize, l.quantities index⟩

def best : Option Level := l.bestIndex.map l.levelAt

def at? (index : Nat) : Option Level :=
  if index ≥ l.capacity ∨ !isSet l.occupied index then none else some (l.levelAt index)

def setLive : Ladder := if l.state = .building then { l with state := .live } else l

def changeTickSize (tickSize : Int) : LadderResult × Ladder :=
  if tickSize = l.tickSize then (.ok, l) else (.needsRestart, { l with state := .needsRestart })

end Ladder

structure OrderBook where
  (bids asks : Ladder)

namespace OrderBook

def create (capacityPerSide : Nat) : OrderBook :=
  ⟨Ladder.create .bid capacityPerSide, Ladder.create .ask capacityPerSide⟩

variable (b : OrderBook)

def reset (bidBaseTicks askBaseTicks tickSize : Int) (generation : Nat) : OrderBook :=
  ⟨b.bids.reset bidBaseTicks tickSize generation, b.asks.reset askBaseTicks tickSize generation⟩

def ladder : Side → Ladder
  | .bid => b.bids
  | .ask => b.asks

def setLadder (l : Ladder) : Side → OrderBook
  | .bid => { b with bids := l }
  | .ask => { b with asks := l }

def apply (side : Side) (price quantity : Int) : LadderResult × OrderBook :=
  let (result, l) := (b.ladder side).apply price quantity
  (result, b.setLadder l side)

def changeTickSize (tickSize : Int) : LadderResult × OrderBook :=
  let (bid, bids) := b.bids.changeTickSize tickSize
  let (ask, asks) := b.asks.changeTickSize tickSize
  (if bid = .needsRestart ∨ ask = .needsRestart then .needsRestart else .ok, ⟨bids, asks⟩)

def setLive : OrderBook := ⟨b.bids.setLive, b.asks.setLive⟩

def state : BookState :=
  if b.bids.state = .needsRestart ∨ b.asks.state = .needsRestart then .needsRestart
  else if b.bids.state = .invalid ∨ b.asks.state = .invalid then .invalid
  else if b.bids.state = .live ∧ b.asks.state = .live then .live
  else .building

end OrderBook

structure DepthSnapshot where
  lastUpdateId : Nat := 0
  (bids asks : List Level := [])
deriving DecidableEq

structure DepthUpdate where
  (firstUpdateId finalUpdateId : Nat := 0)
  (bids asks : List Level := [])
deriving DecidableEq

inductive BridgeAction
  | applied | resync | invalidSnapshot
deriving DecidableEq

inductive BridgeResyncReason
  | none | notLoaded | invalidRange | emptySide | invalidLevel | outsideImproving | ladderApplyFailed
  | boundaryExhausted | crossedBook
deriving DecidableEq

structure SnapshotLoadResult where
  action : BridgeAction := .invalidSnapshot
  (loadedBids loadedAsks outsideBids outsideAsks : Nat := 0)
  (bidBaseTicks askBaseTicks : Int := 0)
deriving DecidableEq

def int64Min : Int := -2 ^ 63

def int64Max : Int := 2 ^ 63 - 1

def validLevel (level : Level) (tickSize : Int) : Bool :=
  decide (tickSize > 0 ∧ level.price ≥ 0 ∧ level.quantity ≥ 0 ∧ level.price % tickSize = 0)

structure BookBridge where
  book : OrderBook
  (configuredTickSize tickSize preparedTickSize : Int)
  (bidBaseTicks askBaseTicks : Int := 0)
  (lastUpdateId outsideUpdatesIgnored : Nat := 0)
  lastResyncReason : BridgeResyncReason := .none
  (refineSnapshotTick allowEmptySides loaded : Bool := false)

namespace BookBridge

variable (book : OrderBook)

def create (tickSize : Int) (refineSnapshotTick allowEmptySides : Bool) : BookBridge :=
  { book := book, configuredTickSize := tickSize, tickSize := tickSize, preparedTickSize := tickSize
    refineSnapshotTick := refineSnapshotTick, allowEmptySides := allowEmptySides }

def refineTick (tick : Int) (levels : List Level) : Int :=
  levels.foldl (fun tick level => if level.price > 0 then Int.gcd tick level.price else tick) tick

variable (b : BookBridge)

def snapshotTickSize (bids asks : List Level) : Int :=
  if !b.refineSnapshotTick ∨ b.configuredTickSize ≤ 0 then b.configuredTickSize
  else refineTick (refineTick b.preparedTickSize bids) asks

def prepareSnapshotTick (bids asks : List Level) : BookBridge :=
  { b with preparedTickSize := b.snapshotTickSize bids asks }

def baseTicks : Side → Int
  | .bid => b.bidBaseTicks
  | .ask => b.askBaseTicks

variable (side : Side)

def inWindow (price : Int) : Bool :=
  if price < 0 ∨ b.tickSize ≤ 0 ∨ price % b.tickSize ≠ 0 then false
  else
    let ticks := price / b.tickSize
    let base := b.baseTicks side
    decide (ticks ≥ base ∧ ticks - base < b.book.bids.capacity)

def bestPrice (better : Int → Int → Int) (start : Int) (levels : List Level) : Int :=
  levels.foldl (fun best level => if level.quantity > 0 then better best level.price else best) start

/-- The levels of one side of a snapshot are put into the book and counted by whether they are in the window; `false` if
the book refuses one. -/
def loadSide (b : BookBridge) (side : Side) : List Level → Nat → Nat → Bool × BookBridge × Nat × Nat
  | [], inside, outside => (true, b, inside, outside)
  | level :: levels, inside, outside =>
    if level.quantity = 0 then loadSide b side levels inside outside
    else if !b.inWindow side level.price then loadSide b side levels inside (outside + 1)
    else
      match b.book.apply side level.price level.quantity with
      | (.ok, book) => loadSide { b with book := book } side levels (inside + 1) outside
      | (_, book) => (false, { b with book := book }, inside, outside)

/-- The two windows for the best prices of a snapshot, with a quarter of each kept for better
prices. -/
def placeWindows (bestBid bestAsk : Int) (generation : Nat) : BookBridge :=
  let capacity : Int := b.book.bids.capacity
  let improvementHeadroom := max 1 (capacity / 4)
  let bidBase := bestBid / b.tickSize - (capacity - improvementHeadroom - 1)
  let askBase := bestAsk / b.tickSize - improvementHeadroom
  { b with
    bidBaseTicks := bidBase, askBaseTicks := askBase
    book := b.book.reset bidBase askBase b.tickSize generation }

variable (snapshot : DepthSnapshot) (generation : Nat)

def loadLevels : SnapshotLoadResult × BookBridge :=
  let (bidsOk, b, loadedBids, outsideBids) := b.loadSide .bid snapshot.bids 0 0
  let (asksOk, b, loadedAsks, outsideAsks) := if bidsOk then b.loadSide .ask snapshot.asks 0 0 else (false, b, 0, 0)
  let result : SnapshotLoadResult :=
    { loadedBids := loadedBids, loadedAsks := loadedAsks, outsideBids := outsideBids
      outsideAsks := outsideAsks, bidBaseTicks := b.bidBaseTicks, askBaseTicks := b.askBaseTicks }
  if !asksOk ∨ (snapshot.bids ≠ [] ∧ loadedBids = 0) ∨ (snapshot.asks ≠ [] ∧ loadedAsks = 0) then
    (result, { b with book := b.book.reset 0 0 0 generation })
  else ({ result with action := .applied }, { b with lastUpdateId := snapshot.lastUpdateId, loaded := true })

def beginLoad : BookBridge :=
  let b := { b with loaded := false, lastResyncReason := .none, book := b.book.reset 0 0 0 generation }
  let b := b.prepareSnapshotTick snapshot.bids snapshot.asks
  { b with tickSize := b.preparedTickSize }

def loadSnapshot : SnapshotLoadResult × BookBridge :=
  let b := b.beginLoad snapshot generation
  if b.tickSize ≤ 0 ∨ (snapshot.bids = [] ∧ snapshot.asks = []) ∨
      (!b.allowEmptySides ∧ (snapshot.bids = [] ∨ snapshot.asks = [])) then ({}, b)
  else if !snapshot.bids.all (validLevel · b.tickSize) then ({}, b)
  else if !snapshot.asks.all (validLevel · b.tickSize) then ({}, b)
  else
    let bestBid := bestPrice max int64Min snapshot.bids
    let bestAsk := bestPrice min int64Max snapshot.asks
    let hasBid := bestBid ≠ int64Min
    let hasAsk := bestAsk ≠ int64Max
    if (¬hasBid ∧ ¬hasAsk) ∨ (!b.allowEmptySides ∧ (¬hasBid ∨ ¬hasAsk)) ∨
        (hasBid ∧ hasAsk ∧ bestBid ≥ bestAsk) then ({}, b)
    else
      let bestBid := if ¬hasBid then max 0 (bestAsk - b.tickSize) else bestBid
      let bestAsk := if ¬hasAsk then bestBid + b.tickSize else bestAsk
      (b.placeWindows bestBid bestAsk generation).loadLevels snapshot generation

def strictlyWorse (price best : Int) : Bool :=
  match side with
  | .bid => decide (price < best)
  | .ask => decide (price > best)

def refusal (best : Int) (level : Level) : Option BridgeResyncReason :=
  if !validLevel level b.tickSize then
    -- the deletion of a price that is not on the grid
    if b.tickSize > 0 ∧ level.price ≥ 0 ∧ level.quantity = 0 ∧ level.price % b.tickSize ≠ 0 then none
    else some .invalidLevel
  else if b.inWindow side level.price then none
  else if level.quantity ≠ 0 ∧ !strictlyWorse side level.price best then some .outsideImproving
  else none

def validate (oldBest : Option Level) (levels : List Level) : Option BridgeResyncReason :=
  let best := match oldBest with
    | some level => level.price
    | none => b.baseTicks side * b.tickSize
  levels.findSome? (b.refusal side best)

/-- Apply the levels of one side; the flag of the result is `false` if the book refuses one, and the
second flag says whether the old best price was deleted. -/
def applySide (b : BookBridge) (side : Side) (oldBest : Int) : List Level → Bool → Bool × Bool × BookBridge
  | [], deletedBest => (true, deletedBest, b)
  | level :: levels, deletedBest =>
    if !b.inWindow side level.price then
      applySide { b with outsideUpdatesIgnored := b.outsideUpdatesIgnored + 1 } side oldBest levels deletedBest
    else
      let deletedBest := deletedBest || decide (level.quantity = 0 ∧ level.price = oldBest)
      match b.book.apply side level.price level.quantity with
      | (.ok, book) => applySide { b with book := book } side oldBest levels deletedBest
      | (_, book) => (false, deletedBest, { b with book := book })

def resync (b : BookBridge) (reason : BridgeResyncReason) : BridgeAction × BookBridge :=
  (.resync, { b with loaded := false, lastResyncReason := reason })

def crossed : Bool :=
  match book.bids.best, book.asks.best with
  | some bid, some ask => decide (bid.price ≥ ask.price)
  | _, _ => false

def bidExhausted (deletedBest : Bool) : Prop := deletedBest ∧ (book.bids.best = none ∨ book.bids.bestIndex = some 0)

def askExhausted (deletedBest : Bool) : Prop :=
  deletedBest ∧ (book.asks.best = none ∨ book.asks.bestIndex = some (book.asks.capacity - 1))

instance (book : OrderBook) (deletedBest : Bool) : Decidable (bidExhausted book deletedBest) :=
  inferInstanceAs (Decidable (_ ∧ _))

instance (book : OrderBook) (deletedBest : Bool) : Decidable (askExhausted book deletedBest) :=
  inferInstanceAs (Decidable (_ ∧ _))

def settle (deletedBestBid deletedBestAsk : Bool) (finalUpdateId : Nat) : BridgeAction × BookBridge :=
  if !b.allowEmptySides ∧ (bidExhausted b.book deletedBestBid ∨ askExhausted b.book deletedBestAsk) then
    b.resync .boundaryExhausted
  else if !b.allowEmptySides ∧ (b.book.bids.best = none ∨ b.book.asks.best = none) then b.resync .emptySide
  else if crossed b.book then b.resync .crossedBook
  else (.applied, { b with lastUpdateId := finalUpdateId })

def apply (update : DepthUpdate) : BridgeAction × BookBridge :=
  if !b.loaded then (.resync, { b with lastResyncReason := .notLoaded })
  else if update.firstUpdateId > update.finalUpdateId then (.resync, { b with lastResyncReason := .invalidRange })
  else if update.finalUpdateId ≤ b.lastUpdateId then (.applied, b)
  else
    let oldBid := b.book.bids.best
    let oldAsk := b.book.asks.best
    if !b.allowEmptySides ∧ (oldBid = none ∨ oldAsk = none) then b.resync .emptySide
    else
      match (b.validate .bid oldBid update.bids).or (b.validate .ask oldAsk update.asks) with
      | some reason => b.resync reason
      | none =>
        let (bidsOk, deletedBestBid, b) := b.applySide .bid ((oldBid.map (·.price)).getD int64Min) update.bids false
        if !bidsOk then b.resync .ladderApplyFailed
        else
          let (asksOk, deletedBestAsk, b) := b.applySide .ask ((oldAsk.map (·.price)).getD int64Max) update.asks false
          if !asksOk then b.resync .ladderApplyFailed
          else b.settle deletedBestBid deletedBestAsk update.finalUpdateId

def setLive (b : BookBridge) : BookBridge := { b with book := b.book.setLive }

end BookBridge

end SelfQuant.Mds
