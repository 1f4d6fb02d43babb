import SelfQuant.MdsReconstructSpec
import SelfQuant.MdsBridgeSpec

namespace SelfQuant.Mds

open List Option Ladder

namespace WirePublisher

/-- Publish the levels that have been gathered, if there are any; the number is that of the next
chunk. -/
def flush (header : EventHeader) (side : Side) (chunk : List Level) (chunkIndex : Nat) (p : WirePublisher) :
    Bool × Nat × WirePublisher :=
  if chunk.length = 0 then (true, chunkIndex, p)
  else
    let (ok, p) := p.publish header 0 (.snapshotChunk chunkIndex side chunk)
    (ok, chunkIndex + 1, p)

/-- Go through the indices of a ladder and publish a chunk whenever one is full, and at the end what is
left. -/
def publishLadder (header : EventHeader) (l : Ladder) (side : Side) :
    List Nat → List Level → Nat → WirePublisher → Bool × WirePublisher
  | [], chunk, chunkIndex, p =>
    let (ok, _, p) := flush header side chunk chunkIndex p
    (ok, p)
  | index :: indices, chunk, chunkIndex, p =>
    match l.at? index with
    | none => publishLadder header l side indices chunk chunkIndex p
    | some level =>
      if (chunk ++ [level]).length = kSnapshotLevelsPerChunk then
        match flush header side (chunk ++ [level]) chunkIndex p with
        | (false, _, p) => (false, p)
        | (true, chunkIndex, p) => publishLadder header l side indices [] chunkIndex p
      else publishLadder header l side indices (chunk ++ [level]) chunkIndex p

end WirePublisher

namespace Ladder

def indices (l : Ladder) : Side → List Nat
  | .bid => (range l.capacity).reverse
  | .ask => range l.capacity

def countLevels (l : Ladder) (indices : List Nat) : Nat :=
  indices.foldl (fun count index => if (l.at? index).isSome then count + 1 else count) 0

end Ladder

namespace WirePublisher

def publishBook (p : WirePublisher) (header : EventHeader) (book : OrderBook) (checksum : Nat) :
    Bool × WirePublisher :=
  let bidCount := book.bids.countLevels (book.bids.indices .bid)
  let askCount := book.asks.countLevels (book.asks.indices .ask)
  let totalChunks := chunkCount bidCount + chunkCount askCount
  if bidCount + askCount > 2 ^ 32 - 1 then (false, p)
  else if totalChunks > 2 ^ 32 - 1 then (false, p)
  else
    match p.publish header 0 (.snapshotBegin (bidCount + askCount) totalChunks) with
    | (false, p) => (false, p)
    | (true, p) =>
      match publishLadder header book.bids .bid (book.bids.indices .bid) [] 0 p with
      | (false, p) => (false, p)
      | (true, p) =>
        match publishLadder header book.asks .ask (book.asks.indices .ask) [] 0 p with
        | (false, p) => (false, p)
        | (true, p) => p.publish header 0 (.snapshotEnd (bidCount + askCount) checksum)

end WirePublisher

/-- The books that the operations of a book can lead to. -/
inductive OrderBook.Built : OrderBook → Prop
  | create (capacityPerSide : Nat) : Built (create capacityPerSide)
  | reset {b : OrderBook} (h : Built b) (bidBaseTicks askBaseTicks tickSize : Int) (generation : Nat) :
      Built (b.reset bidBaseTicks askBaseTicks tickSize generation)
  | apply {b : OrderBook} (h : Built b) (side : Side) (price quantity : Int) :
      Built (b.apply side price quantity).2
  | changeTickSize {b : OrderBook} (h : Built b) (tickSize : Int) :
      Built (b.changeTickSize tickSize).2
  | setLive {b : OrderBook} (h : Built b) : Built b.setLive

namespace Ladder

variable {l : Ladder} {level level' : Level} {index i j : Nat}

structure Kept (l : Ladder) : Prop where
  sound : l.Sound
  capacity : l.capacity ≤ kMaxLadderLevels
  tick : ∀ i, 0 < l.quantities i → 0 < l.tickSize

theorem Kept.withState (h : l.Kept) (state : BookState) : Kept { l with state := state } :=
  ⟨⟨h.sound.nonneg, h.sound.occupied, h.sound.within, h.sound.best⟩, h.capacity, h.tick⟩

variable (side : Side)

theorem create_kept (cap : Nat) : (create side cap).Kept := by
  refine ⟨⟨fun i => le_rfl, fun i => ?_, fun i hi => absurd hi (lt_irrefl _), fun i => lt_irrefl _⟩, ?_,
    fun i hi => absurd hi (lt_irrefl _)⟩
  · simp [create, BitScan.isSet]
  · show max 1 (min cap kMaxLadderLevels) ≤ kMaxLadderLevels
    unfold kMaxLadderLevels
    omega

theorem at?_eq_some_iff : l.at? index = some level ↔
    index < l.capacity ∧ BitScan.isSet l.occupied index ∧ l.levelAt index = level := by
  unfold at?
  split
  next hout =>
    refine ⟨fun h => absurd h (some_ne_none level).symm, fun h => ?_⟩
    obtain hge | hclr := hout
    · exact absurd h.1 (not_lt.mpr hge)
    · rw [h.2.1] at hclr
      cases hclr
  next hin =>
    rw [not_or] at hin
    refine ⟨fun h => ⟨by omega, by simpa using hin.2, some.inj h⟩, fun h => congrArg some h.2.2⟩

def levels (l : Ladder) (side : Side) : List Level := (l.indices side).filterMap l.at?

theorem mem_indices {side : Side} : index ∈ l.indices side ↔ index < l.capacity := by
  cases side with
  | bid => exact mem_reverse.trans mem_range
  | ask => exact mem_range

theorem nodup_indices : (l.indices side).Nodup := by
  cases side with
  | bid => exact nodup_reverse.mpr nodup_range
  | ask => exact nodup_range

theorem mem_levels {side : Side} : level ∈ l.levels side ↔ ∃ index, l.at? index = some level := by
  unfold levels
  rw [mem_filterMap]
  refine ⟨fun h => h.imp fun index hix => hix.2, fun h => ?_⟩
  obtain ⟨index, hat⟩ := h
  exact ⟨index, mem_indices.mpr (at?_eq_some_iff.mp hat).1, hat⟩

theorem levels_length_le : (l.levels side).length ≤ l.capacity := by
  have hfilt := length_filterMap_le l.at? (l.indices side)
  have hindices : (l.indices side).length = l.capacity := by cases side <;> simp [indices]
  unfold levels
  omega

theorem countLevels_eq : l.countLevels (l.indices side) = (l.levels side).length := by
  have hfold : ∀ (indices : List Nat) (count : Nat),
      indices.foldl (fun count index => if (l.at? index).isSome then count + 1 else count) count =
        count + (indices.filterMap l.at?).length := by
    intro indices
    induction indices with
    | nil => exact fun count => rfl
    | cons index indices ih =>
      intro count
      rw [foldl_cons, ih]
      cases hat : l.at? index with
      | none => rw [filterMap_cons_none hat, isSome_none, if_neg Bool.false_ne_true]
      | some level =>
        rw [filterMap_cons_some hat, isSome_some, if_pos rfl, length_cons]
        omega
  have hcnt := hfold (l.indices side) 0
  rw [Nat.zero_add] at hcnt
  exact hcnt

section

variable (h : l.Kept)

include h

theorem Kept.reset (base tick : Int) (gen : Nat) : (l.reset base tick gen).Kept :=
  ⟨reset_sound base tick gen, h.capacity, fun _ hi => absurd hi (lt_irrefl _)⟩

theorem Kept.apply (price quantity : Int) : (l.apply price quantity).2.Kept := by
  unfold Ladder.apply
  split
  next => exact h
  split
  next => exact h.withState _
  next hval =>
  dsimp only
  split
  next => exact h.withState _
  next hin =>
  have hput := put_changed h.sound (show (price / l.tickSize - l.windowBaseTicks).toNat < l.capacity by omega)
    (show 0 ≤ quantity by omega)
  refine ⟨hput.sound, ?_, fun _ _ => ?_⟩
  · rw [hput.frame]
    exact h.capacity
  · rw [hput.frame]
    show 0 < l.tickSize
    omega

theorem Kept.setLive : l.setLive.Kept := by
  unfold Ladder.setLive
  split
  next => exact h.withState _
  next => exact h

theorem Kept.changeTickSize (tick : Int) : (l.changeTickSize tick).2.Kept := by
  unfold Ladder.changeTickSize
  split
  next => exact h
  next => exact h.withState _

theorem Kept.at_pos (hat : l.at? index = some level) : 0 < level.quantity ∧ 0 < l.tickSize := by
  obtain ⟨-, hset, rfl⟩ := at?_eq_some_iff.mp hat
  have hpos := (h.sound.occupied index).mp hset
  exact ⟨hpos, h.tick index hpos⟩

theorem Kept.at_inj (hi : l.at? i = some level) (hj : l.at? j = some level')
    (hpx : level.price = level'.price) : i = j := by
  have htick := (h.at_pos hi).2
  obtain ⟨-, -, rfl⟩ := at?_eq_some_iff.mp hi
  obtain ⟨-, -, rfl⟩ := at?_eq_some_iff.mp hj
  exact PriceWindow.priceAt_inj (w := l.window) htick hpx

theorem Kept.levels_distinct (side : Side) : (l.levels side).Pairwise fun a b => a.price ≠ b.price := by
  refine Pairwise.filterMap l.at? ?_ (l.nodup_indices side)
  intro i j hne a ha b hb hpx
  exact hne (h.at_inj ha hb hpx)

end

end Ladder

theorem OrderBook.Built.kept {book : OrderBook} (h : book.Built) (side : Side) : (book.ladder side).Kept := by
  induction h generalizing side with
  | create capacityPerSide => cases side <;> exact create_kept _ _
  | reset _ bidBaseTicks askBaseTicks tickSize generation ih =>
    cases side with
    | bid => exact (ih .bid).reset _ _ _
    | ask => exact (ih .ask).reset _ _ _
  | apply _ other price quantity ih =>
    have hchanged := (ih other).apply price quantity
    cases side <;> cases other
    · exact hchanged
    · exact ih .bid
    · exact ih .ask
    · exact hchanged
  | changeTickSize _ tickSize ih =>
    cases side with
    | bid => exact (ih .bid).changeTickSize tickSize
    | ask => exact (ih .ask).changeTickSize tickSize
  | setLive _ ih =>
    cases side with
    | bid => exact (ih .bid).setLive
    | ask => exact (ih .ask).setLive

namespace WirePublisher

open OrderBookReconstructor

variable {p : WirePublisher} {header : EventHeader} {flags : Nat} {body : Body} {side : Side} {l : Ladder}
  {chunk : List Level} {indices : List Nat} {turns chunkIndex : Nat} {book : OrderBook}

def putAll (p : WirePublisher) (items : List Item) : WirePublisher :=
  { p with
    currentBusSeq := p.currentBusSeq + items.length, ringSequence := p.ringSequence + items.length
    published := p.published ++ numbered p.currentBusSeq p.ringSequence items }

theorem putAll_nil : p.putAll [] = p := by
  unfold putAll
  rw [numbered, append_nil]
  rfl

theorem putAll_putAll (items items' : List Item) : (p.putAll items).putAll items' = p.putAll (items ++ items') := by
  unfold putAll
  simp only [numbered_append, append_assoc, length_append, add_assoc]

theorem publish_eq (hop : p.busSeqExhausted = false) (hrm : p.currentBusSeq + 1 < 2 ^ 64)
    (hit : Item.Encodable ⟨header, flags, body⟩) (hlvs : validLevels body) :
    p.publish header flags body = (true, p.putAll [⟨header, flags, body⟩]) := by
  have hencode : encode (headerFields header (p.currentBusSeq + 1) flags) body =
      some ⟨headerFields header (p.currentBusSeq + 1) flags, body⟩ := if_pos ⟨hit.1, hit.2, hlvs⟩
  unfold publish
  rw [if_neg (by rw [hop]; exact Bool.false_ne_true), if_neg (by omega)]
  dsimp only
  rw [hencode]
  rfl

theorem flush_eq (hop : p.busSeqExhausted = false) (hrm : p.currentBusSeq + 1 < 2 ^ 64) (hne : chunk ≠ [])
    (hle : chunk.length ≤ kSnapshotLevelsPerChunk) (hpos : ∀ level ∈ chunk, 0 < level.quantity) :
    flush header side chunk chunkIndex p =
      (true, chunkIndex + 1, p.putAll [⟨header, 0, .snapshotChunk chunkIndex side chunk⟩]) := by
  have hlvs : validLevels (.snapshotChunk chunkIndex side chunk) :=
    all_eq_true.mpr fun level hlvl => decide_eq_true (hpos level hlvl).le
  unfold flush
  rw [if_neg fun hnil => hne (eq_nil_of_length_eq_zero hnil),
    publish_eq hop hrm (chunk_encodable chunkIndex hne hle) hlvs]

theorem publishLadder_eq (hl : l.Kept) (hop : p.busSeqExhausted = false)
    (hlt : chunk.length < kSnapshotLevelsPerChunk) (hpos : ∀ level ∈ chunk, 0 < level.quantity)
    (htrn : (chunk ++ indices.filterMap l.at?).length ≤ turns)
    (hrm : p.currentBusSeq + chunkCount (chunk ++ indices.filterMap l.at?).length < 2 ^ 64) :
    publishLadder header l side indices chunk chunkIndex p =
      (true, p.putAll (chunkItems header side turns chunkIndex (chunk ++ indices.filterMap l.at?))) := by
  induction indices generalizing chunk chunkIndex turns p with
  | nil =>
    rw [filterMap_nil, append_nil] at *
    by_cases hne : chunk = []
    · subst hne
      show (true, p) = _
      rw [chunkItems, putAll_nil]
    · have hlen : 0 < chunk.length := length_pos_iff.mpr hne
      obtain ⟨turns, rfl⟩ : ∃ n, turns = n + 1 := ⟨turns - 1, by omega⟩
      rw [chunkCount_step hlen] at hrm
      rw [publishLadder, flush_eq hop (by omega) hne hlt.le hpos, chunkItems_step hne,
        take_of_length_le hlt.le, drop_of_length_le hlt.le, chunkItems]
  | cons index indices ih =>
    cases hat : l.at? index with
    | none =>
      rw [filterMap_cons_none hat] at htrn hrm ⊢
      rw [publishLadder, hat]
      exact ih hop hlt hpos htrn hrm
    | some level =>
      have happend : chunk ++ level :: indices.filterMap l.at? = (chunk ++ [level]) ++ indices.filterMap l.at? := by
        rw [append_assoc]
        rfl
      have hpos' : ∀ other ∈ chunk ++ [level], 0 < other.quantity := by
        intro other hoth
        rcases mem_append.mp hoth with hmem | hmem
        · exact hpos other hmem
        · rw [mem_singleton.mp hmem]
          exact (hl.at_pos hat).1
      rw [filterMap_cons_some hat, happend] at htrn hrm ⊢
      rw [publishLadder, hat]
      dsimp only
      have hsz : (chunk ++ [level]).length = chunk.length + 1 := length_append
      have hne : chunk ++ [level] ≠ [] := ne_nil_of_length_pos (by omega)
      split
      next hfu =>
        obtain ⟨turns, rfl⟩ : ∃ n, turns = n + 1 := ⟨turns - 1, by rw [length_append] at htrn; omega⟩
        have hcnt : chunkCount ((chunk ++ [level]) ++ indices.filterMap l.at?).length =
            chunkCount (indices.filterMap l.at?).length + 1 := by
          rw [length_append, hfu, chunkCount_step (by unfold kSnapshotLevelsPerChunk; omega), Nat.add_sub_cancel_left]
        rw [length_append] at htrn
        rw [flush_eq hop (by omega) hne hfu.le hpos']
        dsimp only
        rw [ih (show (p.putAll _).busSeqExhausted = false from hop) (by decide)
            (fun _ h => absurd h not_mem_nil) (show _ ≤ turns by rw [nil_append]; omega)
            (show p.currentBusSeq + 1 + _ < _ by rw [nil_append]; omega),
          putAll_putAll, chunkItems_step (append_ne_nil_of_left_ne_nil hne _),
          take_left' hfu, drop_left' hfu]
        rfl
      next hpart => exact ih hop (by omega) hpos' htrn hrm

def recordCount (book : OrderBook) : Nat :=
  chunkCount (book.bids.levels .bid).length + chunkCount (book.asks.levels .ask).length + 2

theorem chunkItems_length {levels : List Level} (htrn : levels.length ≤ turns) :
    (chunkItems header side turns chunkIndex levels).length = chunkCount levels.length := by
  induction turns generalizing chunkIndex levels with
  | zero =>
    obtain rfl := eq_nil_of_length_eq_zero (Nat.le_zero.mp htrn)
    rfl
  | succ turns ih =>
    by_cases hne : levels = []
    · subst hne
      rfl
    · have hlen : 0 < levels.length := length_pos_iff.mpr hne
      have hdrop : (levels.drop kSnapshotLevelsPerChunk).length = levels.length - kSnapshotLevelsPerChunk :=
        length_drop
      have hsz : 0 < kSnapshotLevelsPerChunk := by decide
      rw [chunkItems_step hne, length_cons, ih (by omega), hdrop, ← chunkCount_step hlen]

theorem levels_length_of_built (h : book.Built) :
    (book.bids.levels .bid).length ≤ 16384 ∧ (book.asks.levels .ask).length ≤ 16384 :=
  ⟨(book.bids.levels_length_le .bid).trans (h.kept .bid).capacity,
    (book.asks.levels_length_le .ask).trans (h.kept .ask).capacity⟩

theorem publishBook_eq (hbk : book.Built) (hop : p.busSeqExhausted = false)
    (hrm : p.currentBusSeq + recordCount book < 2 ^ 64) (checksum : Nat) :
    p.publishBook header book checksum =
      (true, p.putAll (checkedItems header (book.bids.levels .bid) (book.asks.levels .ask) checksum)) := by
  have hlen := levels_length_of_built hbk
  unfold recordCount at hrm
  unfold publishBook
  simp only [countLevels_eq]
  set bids := book.bids.levels .bid
  set asks := book.asks.levels .ask
  have hbidChunks := chunkCount_le bids.length
  have haskChunks := chunkCount_le asks.length
  let p1 := p.putAll [⟨header, 0, .snapshotBegin (bids.length + asks.length)
    (chunkCount bids.length + chunkCount asks.length)⟩]
  let p2 := p1.putAll (chunkItems header .bid bids.length 0 bids)
  let p3 := p2.putAll (chunkItems header .ask asks.length 0 asks)
  have hbus1 : p1.currentBusSeq = p.currentBusSeq + 1 := rfl
  have hbus2 : p2.currentBusSeq = p.currentBusSeq + 1 + chunkCount bids.length := by
    show p1.currentBusSeq + _ = _
    rw [chunkItems_length (le_refl _), hbus1]
  have hbus3 : p3.currentBusSeq = p.currentBusSeq + 1 + chunkCount bids.length + chunkCount asks.length := by
    show p2.currentBusSeq + _ = _
    rw [chunkItems_length (le_refl _), hbus2]
  have hfst : publishLadder header book.bids .bid (book.bids.indices .bid) [] 0 p1 = (true, p2) :=
    publishLadder_eq (hbk.kept .bid) hop (by decide) (fun _ h => absurd h not_mem_nil)
      (le_refl _) (show p1.currentBusSeq + chunkCount bids.length < _ by omega)
  have hsecond : publishLadder header book.asks .ask (book.asks.indices .ask) [] 0 p2 = (true, p3) :=
    publishLadder_eq (hbk.kept .ask) hop (by decide) (fun _ h => absurd h not_mem_nil)
      (le_refl _) (show p2.currentBusSeq + chunkCount asks.length < _ by omega)
  have hla : p3.publish header 0 (.snapshotEnd (bids.length + asks.length) checksum) =
      (true, p3.putAll [⟨header, 0, .snapshotEnd (bids.length + asks.length) checksum⟩]) :=
    publish_eq hop (by omega) ⟨rfl, rfl⟩ rfl
  rw [if_neg (by omega), if_neg (by omega), publish_eq hop (by omega) (begin_encodable _ _) rfl]
  dsimp only
  rw [hfst]
  dsimp only
  rw [hsecond]
  dsimp only
  rw [hla, putAll_putAll, putAll_putAll, putAll_putAll, checkedItems, append_assoc]
  rfl

end WirePublisher

namespace OrderBookReconstructor

open WirePublisher

variable {side : Side} {price quantity : Int} {levels : List Level} {book : OrderBook}

theorem find?_insertAll {m : SideMap side} (h : levels.Pairwise fun a b => a.price ≠ b.price) :
    (insertAll m levels).find? price = some quantity ↔
      ⟨price, quantity⟩ ∈ levels ∨ (∀ level ∈ levels, level.price ≠ price) ∧ m.find? price = some quantity := by
  induction levels generalizing m with
  | nil => simp [insertAll]
  | cons level levels ih =>
    obtain ⟨hfst, hrs⟩ := pairwise_cons.mp h
    show (insertAll (m.insert level.price level.quantity) levels).find? price = _ ↔ _
    rw [ih hrs, SortedMap.find?_insert, mem_cons, forall_mem_cons]
    by_cases hpx : price = level.price
    · subst hpx
      have hla : ∀ other ∈ levels, other.price ≠ level.price := fun other hoth => (hfst other hoth).symm
      have hnot : ⟨level.price, quantity⟩ ∉ levels := fun hmem => hla _ hmem rfl
      have hlvl : (⟨level.price, quantity⟩ : Level) = level ↔ level.quantity = quantity :=
        ⟨fun heq => (congrArg Level.quantity heq).symm, fun heq => by rw [← heq]⟩
      rw [if_pos rfl, some.injEq, hlvl]
      exact ⟨fun h => .inl (.inl (h.resolve_left hnot).2),
        fun h => .inr ⟨hla, (h.resolve_right fun hne => hne.1.1 rfl).resolve_right hnot⟩⟩
    · have hne : (⟨price, quantity⟩ : Level) ≠ level := fun heq => hpx (congrArg Level.price heq)
      rw [if_neg hpx]
      exact ⟨fun h => h.imp .inr fun hold => ⟨⟨Ne.symm hpx, hold.1⟩, hold.2⟩,
        fun h => h.imp (fun hmem => hmem.resolve_left hne) fun hold => ⟨hold.1.2, hold.2⟩⟩

/-- Whatever book is published, the records of its snapshot are taken by a reconstructor that is not
ahead of it. The reconstructor is then in the state that the header told, and if that is live it has
the levels of the book and no others. -/
theorem book_snapshot_round_trip (hbook : book.Built) (header : EventHeader) (checksum : Nat) {w : WirePublisher}
    (hopen : w.busSeqExhausted = false) (hroom : w.currentBusSeq + recordCount book < 2 ^ 64)
    {r : OrderBookReconstructor} (hgeneration : r.generation ≤ header.bookGeneration) :
    ∃ w' records r', w.publishBook header book checksum = (true, w') ∧ w'.published = w.published ++ records ∧
      r.feed (records.map (·.record)) = some r' ∧ r'.state = header.state ∧
      (header.state = .live → ∀ side price quantity, (r'.book side).find? price = some quantity ↔
        ∃ index, (book.ladder side).at? index = some ⟨price, quantity⟩) ∧
      (header.state ≠ .live → ∀ side price, (r'.book side).find? price = none) := by
  have hlen := levels_length_of_built hbook
  have hsides : ∀ side, sideLevels (book.bids.levels .bid) (book.asks.levels .ask) side =
      (book.ladder side).levels side := fun side => by cases side <;> rfl
  obtain ⟨r', hfeed, hstate, -, -, hmaps⟩ := feed_snapshot hgeneration
    (show (book.bids.levels .bid).length + (book.asks.levels .ask).length < 2 ^ 32 by omega)
  refine ⟨_, _, r', publishBook_eq hbook hopen hroom checksum, rfl, ?_, hstate, ?_, ?_⟩
  · rw [feed_numbered]
    exact hfeed
  · intro hlive side price quantity
    rw [hmaps, if_pos hlive, hsides, find?_insertAll ((hbook.kept side).levels_distinct side), mem_levels]
    exact ⟨fun h => h.resolve_right fun hold => absurd hold.2.symm (some_ne_none quantity), .inl⟩
  · intro hdown side price
    rw [hmaps, if_neg hdown]
    rfl

def twoSided : OrderBook :=
  let book := (OrderBook.create 8).reset 95 101 1 1
  let book := (book.apply .bid 100 5).2
  let book := (book.apply .bid 98 3).2
  (book.apply .ask 101 4).2.setLive

theorem twoSided_built : twoSided.Built :=
  .setLive (.apply (.apply (.apply (.reset (.create 8) 95 101 1 1) .bid 100 5) .bid 98 3) .ask 101 4)

def liveHeader : EventHeader := { instrumentId := 7, bookGeneration := 1, state := .live }

theorem book_snapshot_round_trip_twoSided :
    ∃ w' records r', publishBook {} liveHeader twoSided 0 = (true, w') ∧
      w'.published = [] ++ records ∧
      ({} : OrderBookReconstructor).feed (records.map (·.record)) = some r' ∧ r'.state = .live ∧
      (liveHeader.state = .live → ∀ side price quantity, (r'.book side).find? price = some quantity ↔
        ∃ index, (twoSided.ladder side).at? index = some ⟨price, quantity⟩) ∧
      (liveHeader.state ≠ .live → ∀ side price, (r'.book side).find? price = none) :=
  book_snapshot_round_trip twoSided_built liveHeader 0 rfl (by decide +kernel) (by decide)

/-- The image of a book that is not live yet, as it is written again for a late reader: the reader is
not live either and has no levels. -/
theorem building_snapshot_not_live :
    twoSided.Built ∧ twoSided.bids.best = some ⟨100, 5⟩ ∧ twoSided.asks.best = some ⟨101, 4⟩ ∧
      (publishBook {} { liveHeader with state := .building } twoSided 0).1 = true ∧
      (({} : OrderBookReconstructor).feed ((publishBook {}
          { liveHeader with state := .building } twoSided 0).2.published.map (·.record))).map
        (fun r => (r.state, r.best .bid, r.best .ask)) = some (.building, none, none) :=
  ⟨twoSided_built, by decide +kernel, by decide +kernel, by decide +kernel, by decide +kernel⟩

end OrderBookReconstructor

end SelfQuant.Mds
