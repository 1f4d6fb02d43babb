import SelfQuant.SortedMap
import SelfQuant.MdsPublishSpec
import SelfQuant.MdsReferenceBook

namespace SelfQuant.Mds

open Item Nat Function

instance (side : Side) : DecidableRel (Ahead side) := fun a b =>
  match side with
  | .bid => inferInstanceAs (Decidable (b < a))
  | .ask => inferInstanceAs (Decidable (a < b))

instance (side : Side) : IsStrictTotalOrder Int (Ahead side) where
  trichotomous a b := by cases side <;> simp only [Ahead] <;> omega
  irrefl a := by cases side <;> simp only [Ahead] <;> omega
  trans a b c := by cases side <;> simp only [Ahead] <;> omega

abbrev SideMap (side : Side) := SortedMap Int Int (Ahead side)

inductive ReconstructionError
  | none | staleGeneration | needsSnapshot | invalidSnapshot | invalidSide
deriving DecidableEq

/-- What the source has twice, for bids and asks, is given by the side. -/
structure OrderBookReconstructor where
  (instrumentId generation expectedLevels expectedChunks receivedLevels receivedChunks : Nat := 0)
  nextChunk : Side → Nat := fun _ => 0
  state : BookState := .empty
  snapshotActive : Bool := false
  (book staging : (side : Side) → SideMap side := fun _ => .empty)

namespace OrderBookReconstructor

variable (r : OrderBookReconstructor)

def reset (state : BookState) : OrderBookReconstructor :=
  { instrumentId := r.instrumentId, generation := r.generation, state := state }

def invalidSnapshot (r : OrderBookReconstructor) : ReconstructionError × OrderBookReconstructor :=
  (.invalidSnapshot, r.reset .invalid)

variable (header : RecordHeader)

def applySnapshotBegin (itemCount chunkCount : Nat) : ReconstructionError × OrderBookReconstructor :=
  if header.bookGeneration < r.generation then (.staleGeneration, r)
  else
    (.none,
      { instrumentId := header.instrumentId, generation := header.bookGeneration
        expectedLevels := itemCount, expectedChunks := chunkCount
        snapshotActive := true, state := .building })

def insertAll {side : Side} (m : SideMap side) (levels : List Level) : SideMap side :=
  levels.foldl (fun m level => m.insert level.price level.quantity) m

def applyChunk (chunkIndex : Nat) (side : Side)
    (levels : List Level) : ReconstructionError × OrderBookReconstructor :=
  if !r.snapshotActive ∨ header.instrumentId ≠ r.instrumentId ∨ header.bookGeneration ≠ r.generation ∨
      chunkIndex ≠ r.nextChunk side ∨ levels.length > kSnapshotLevelsPerChunk ∨
      r.receivedChunks ≥ r.expectedChunks ∨ (r.receivedLevels + levels.length) % 2 ^ 32 > r.expectedLevels then
    r.invalidSnapshot
  else
    (.none,
      { r with
        staging := update r.staging side (insertAll (r.staging side) levels)
        nextChunk := update r.nextChunk side ((r.nextChunk side + 1) % 2 ^ 32)
        receivedChunks := (r.receivedChunks + 1) % 2 ^ 32
        receivedLevels := (r.receivedLevels + levels.length) % 2 ^ 32 })

def applySnapshotEnd (itemCount : Nat) : ReconstructionError × OrderBookReconstructor :=
  if !r.snapshotActive ∨ header.instrumentId ≠ r.instrumentId ∨ header.bookGeneration ≠ r.generation ∨
      r.receivedChunks ≠ r.expectedChunks ∨ r.receivedLevels ≠ r.expectedLevels ∨ itemCount ≠ r.receivedLevels then
    r.invalidSnapshot
  else if header.state = .live then
    (.none, { r with snapshotActive := false, state := header.state, book := r.staging, staging := fun _ => {} })
  else (.none, { r with snapshotActive := false, state := header.state, book := fun _ => {}, staging := fun _ => {} })

def setEntry {side : Side} (m : SideMap side) (level : Level) : SideMap side :=
  if level.quantity = 0 then m.erase level.price else m.insert level.price level.quantity

def applyDelta (side : Side) (level : Level) : ReconstructionError × OrderBookReconstructor :=
  if header.bookGeneration < r.generation then (.staleGeneration, r)
  else if header.bookGeneration ≠ r.generation ∨ r.state ≠ .live ∨ header.instrumentId ≠ r.instrumentId ∨
      header.state ≠ .live then
    (.needsSnapshot,
      { r with instrumentId := header.instrumentId, generation := header.bookGeneration }.reset .needsRestart)
  else (.none, { r with book := update r.book side (setEntry (r.book side) level) })

/-- Records that are not about the levels of the book are passed over. -/
def apply (record : WireRecord) : ReconstructionError × OrderBookReconstructor :=
  match record.body with
  | .snapshotBegin itemCount chunkCount => r.applySnapshotBegin record.header itemCount chunkCount
  | .snapshotChunk chunkIndex side levels => r.applyChunk record.header chunkIndex side levels
  | .snapshotEnd itemCount _ => r.applySnapshotEnd record.header itemCount
  | .bookDelta side level => r.applyDelta record.header side level
  | _ => (.none, r)

/-- The record is decoded and then applied; `none` if either fails. -/
def consume (record : WireRecord) : Option OrderBookReconstructor :=
  if validateHeader record = .ok ∧ validBody record.header.instrumentId record.body then
    match r.apply record with
    | (.none, r) => some r
    | _ => none
  else none

def feed (records : List WireRecord) : Option OrderBookReconstructor := records.foldlM consume r

def best (side : Side) : Option Level := (r.book side).first?.map fun entry => ⟨entry.1, entry.2⟩

end OrderBookReconstructor

open List Function WirePublisher

namespace OrderBookReconstructor

variable {r r' : OrderBookReconstructor} {item : Item} {items items' : List Item} {header : EventHeader}
  {side : Side} {levels bids asks : List Level} {checksum turns : Nat}

def feedItems (r : OrderBookReconstructor) (items : List Item) : Option OrderBookReconstructor :=
  items.foldlM (fun r item => r.consume (item.record 0)) r

theorem feed_numbered (r : OrderBookReconstructor) (bus ring : Nat) :
    r.feed ((numbered bus ring items).map (·.record)) = r.feedItems items := by
  induction items generalizing r bus ring with
  | nil => rfl
  | cons item items ih => exact congrArg _ (funext fun r => ih r _ _)

theorem feedItems_append : r.feedItems (items ++ items') = (r.feedItems items).bind (·.feedItems items') :=
  foldlM_append

theorem feedItems_cons : r.feedItems (item :: items) = (r.consume (item.record 0)).bind (·.feedItems items) := rfl

theorem consume_item (h : item.Encodable) (ha : r.apply (item.record 0) = (.none, r')) :
    r.consume (item.record 0) = some r' := by
  have hhdr : validateHeader (item.record 0) = .ok := by
    have hflg : validFlags item.body item.flags = true := h.1
    have hbd := h.2
    unfold validateHeader
    split
    next type hunk =>
      have hb : item.body = .unknown type := hunk
      rw [hb] at hbd
      cases hbd
    next =>
      have hval : validFlags (item.record 0).body (item.record 0).header.flags = true := hflg
      rw [hval]
      rfl
  unfold consume
  rw [if_pos ⟨hhdr, h.2⟩, ha]

theorem insertAll_append {m : SideMap side} (levels' : List Level) :
    insertAll m (levels ++ levels') = insertAll (insertAll m levels) levels' := foldl_append

theorem chunkCount_zero : chunkCount 0 = 0 := rfl

theorem chunkCount_step {n : Nat} (h : 0 < n) : chunkCount n = chunkCount (n - kSnapshotLevelsPerChunk) + 1 := by
  unfold chunkCount kSnapshotLevelsPerChunk
  split_ifs <;> omega

theorem chunkCount_le (n : Nat) : chunkCount n ≤ n := by
  unfold chunkCount kSnapshotLevelsPerChunk
  split_ifs <;> omega

structure Receiving (header : EventHeader) (r : OrderBookReconstructor) : Prop where
  active : r.snapshotActive = true
  instrumentId : r.instrumentId = header.instrumentId
  generation : r.generation = header.bookGeneration
  levels : r.expectedLevels < 2 ^ 32
  chunks : r.expectedChunks < 2 ^ 32
  nextChunk : ∀ side, r.nextChunk side ≤ r.receivedChunks

def received (r : OrderBookReconstructor) (side : Side) (levels : List Level) : OrderBookReconstructor :=
  { r with
    staging := update r.staging side (insertAll (r.staging side) levels)
    nextChunk := update r.nextChunk side (r.nextChunk side + chunkCount levels.length)
    receivedChunks := r.receivedChunks + chunkCount levels.length
    receivedLevels := r.receivedLevels + levels.length }

theorem received_nil : r.received side [] = r := by
  unfold received insertAll
  simp [chunkCount_zero]

theorem Receiving.received (h : Receiving header r) (side : Side) (levels : List Level) :
    Receiving header (r.received side levels) := by
  refine ⟨h.active, h.instrumentId, h.generation, h.levels, h.chunks, fun other => ?_⟩
  have hoth := h.nextChunk other
  show update r.nextChunk side _ other ≤ r.receivedChunks + chunkCount levels.length
  by_cases heq : other = side
  · subst heq
    rw [update_self]
    omega
  · rw [update_of_ne heq]
    omega

theorem received_received {levels levels' : List Level}
    (h : chunkCount (levels.length + levels'.length) = chunkCount levels.length + chunkCount levels'.length) :
    (r.received side levels).received side levels' = r.received side (levels ++ levels') := by
  unfold received
  simp only [update_self, update_idem, insertAll_append, length_append, h, add_assoc]

theorem chunk_encodable (chunk : Nat) (hne : levels ≠ []) (hle : levels.length ≤ kSnapshotLevelsPerChunk) :
    Encodable ⟨header, 0, .snapshotChunk chunk side levels⟩ := ⟨rfl, decide_eq_true ⟨hne, hle⟩⟩

theorem consume_chunk (h : Receiving header r) (hne : levels ≠ []) (hle : levels.length ≤ kSnapshotLevelsPerChunk)
    (hcks : r.receivedChunks < r.expectedChunks)
    (hlvs : r.receivedLevels + levels.length ≤ r.expectedLevels) :
    r.consume (record ⟨header, 0, .snapshotChunk (r.nextChunk side) side levels⟩ 0) =
      some (r.received side levels) := by
  have hpos : 0 < levels.length := length_pos_iff.mpr hne
  have hlvs' := h.levels
  have hcks' := h.chunks
  have hnx := h.nextChunk side
  have hone : chunkCount levels.length = 1 := by
    rw [chunkCount_step hpos, Nat.sub_eq_zero_of_le hle, chunkCount_zero]
  have hmod : (r.receivedLevels + levels.length) % 2 ^ 32 = r.receivedLevels + levels.length :=
    mod_eq_of_lt (by omega)
  refine consume_item (chunk_encodable _ hne hle) ?_
  show r.applyChunk (headerFields header 0 0) (r.nextChunk side) side levels = _
  unfold applyChunk received
  rw [if_neg, hmod, hone, mod_eq_of_lt (show r.receivedChunks + 1 < 2 ^ 32 by omega),
    mod_eq_of_lt (show r.nextChunk side + 1 < 2 ^ 32 by omega)]
  rw [h.active]
  rintro (hact | hid | hgen | hix | hlen | hmany | hfu)
  · cases hact
  · exact hid h.instrumentId.symm
  · exact hgen h.generation.symm
  · exact hix rfl
  · omega
  · omega
  · omega

theorem feed_chunks (h : Receiving header r) (htrn : levels.length ≤ turns)
    (hcks : r.receivedChunks + chunkCount levels.length ≤ r.expectedChunks)
    (hlvs : r.receivedLevels + levels.length ≤ r.expectedLevels) :
    r.feedItems (chunkItems header side turns (r.nextChunk side) levels) = some (r.received side levels) := by
  induction turns generalizing r levels with
  | zero =>
    obtain rfl := eq_nil_of_length_eq_zero (le_zero.mp htrn)
    rw [received_nil]
    rfl
  | succ turns ih =>
    cases levels with
    | nil =>
      rw [received_nil]
      rfl
    | cons level levels =>
      have hpos : 0 < (level :: levels).length := succ_pos _
      have hcnt := chunkCount_step hpos
      generalize level :: levels = all at *
      have htake : (all.take kSnapshotLevelsPerChunk).length = min kSnapshotLevelsPerChunk all.length := length_take
      have hdrop : (all.drop kSnapshotLevelsPerChunk).length = all.length - kSnapshotLevelsPerChunk := length_drop
      have hsz : 0 < kSnapshotLevelsPerChunk := by decide
      rw [chunkItems_step (ne_nil_of_length_pos hpos), feedItems_cons]
      have hspl := take_append_drop kSnapshotLevelsPerChunk all
      generalize all.take kSnapshotLevelsPerChunk = first at *
      generalize all.drop kSnapshotLevelsPerChunk = rest at *
      have hone : chunkCount first.length = 1 := by
        rw [chunkCount_step (by omega), Nat.sub_eq_zero_of_le (by omega), chunkCount_zero]
      have hfst : r.consume (record ⟨header, 0, .snapshotChunk (r.nextChunk side) side first⟩ 0) =
          some (r.received side first) :=
        consume_chunk h (ne_nil_of_length_pos (by omega)) (by omega) (by omega) (by omega)
      have hnx : (r.received side first).nextChunk side = r.nextChunk side + 1 := by
        show update r.nextChunk side _ side = _
        rw [update_self, hone]
      have hrs : (r.received side first).feedItems (chunkItems header side turns (r.nextChunk side + 1) rest) =
          some ((r.received side first).received side rest) := by
        rw [← hnx]
        refine ih (h.received _ _) (by omega) ?_ ?_
        · show r.receivedChunks + _ + _ ≤ r.expectedChunks
          rw [hdrop]
          omega
        · show r.receivedLevels + _ + _ ≤ r.expectedLevels
          omega
      rw [hfst, Option.bind_some, hrs, received_received, hspl]
      rw [← length_append, hspl, hcnt, hone, hdrop, add_comm]

def started (header : EventHeader) (itemCount chunks : Nat) : OrderBookReconstructor :=
  { instrumentId := header.instrumentId, generation := header.bookGeneration, expectedLevels := itemCount
    expectedChunks := chunks, snapshotActive := true, state := .building }

theorem begin_encodable (bidCount askCount : Nat) : Encodable
    ⟨header, 0, .snapshotBegin (bidCount + askCount) (chunkCount bidCount + chunkCount askCount)⟩ := by
  have hbi := chunkCount_le bidCount
  have has := chunkCount_le askCount
  have hcounts : (bidCount + askCount + kSnapshotLevelsPerChunk - 1) / kSnapshotLevelsPerChunk ≤
      chunkCount bidCount + chunkCount askCount := by
    unfold chunkCount kSnapshotLevelsPerChunk
    split_ifs <;> omega
  refine ⟨rfl, decide_eq_true ⟨hcounts, ?_⟩⟩
  split_ifs <;> omega

theorem consume_end (h : Receiving header r) (hcks : r.receivedChunks = r.expectedChunks)
    (hlvs : r.receivedLevels = r.expectedLevels) :
    ∃ r', r.consume (record ⟨header, 0, .snapshotEnd r.expectedLevels checksum⟩ 0) = some r' ∧
      r'.state = header.state ∧ r'.generation = header.bookGeneration ∧ r'.instrumentId = header.instrumentId ∧
      ∀ side, r'.book side = if header.state = .live then r.staging side else {} := by
  have happ : r.apply (record ⟨header, 0, .snapshotEnd r.expectedLevels checksum⟩ 0) =
      (.none, { r with
        snapshotActive := false, state := header.state
        book := fun side => if header.state = .live then r.staging side else {}
        staging := fun _ => {} }) := by
    show r.applySnapshotEnd (headerFields header 0 0) r.expectedLevels = _
    unfold applySnapshotEnd
    rw [if_neg]
    · by_cases hlv : header.state = .live
      · rw [if_pos (show (headerFields header 0 0).state = .live from hlv)]
        simp only [if_pos hlv]
        rfl
      · rw [if_neg (show ¬(headerFields header 0 0).state = .live from hlv)]
        simp only [if_neg hlv]
        rfl
    · rw [h.active]
      rintro (hact | hid | hgen | hcnt | hcnt | hcnt)
      · cases hact
      · exact hid h.instrumentId.symm
      · exact hgen h.generation.symm
      · exact hcnt hcks
      · exact hcnt hlvs
      · exact hcnt hlvs.symm
  exact ⟨_, consume_item ⟨rfl, rfl⟩ happ, rfl, h.generation, h.instrumentId, fun _ => rfl⟩

def checkedItems (header : EventHeader) (bids asks : List Level) (checksum : Nat) : List Item :=
  ⟨header, 0, .snapshotBegin (bids.length + asks.length) (chunkCount bids.length + chunkCount asks.length)⟩ ::
    (chunkItems header .bid bids.length 0 bids ++ chunkItems header .ask asks.length 0 asks ++
      [⟨header, 0, .snapshotEnd (bids.length + asks.length) checksum⟩])

def sideLevels (bids asks : List Level) : Side → List Level
  | .bid => bids
  | .ask => asks

theorem feed_snapshot (hgen : r.generation ≤ header.bookGeneration) (hsz : bids.length + asks.length < 2 ^ 32) :
    ∃ r', r.feedItems (checkedItems header bids asks checksum) = some r' ∧ r'.state = header.state ∧
      r'.generation = header.bookGeneration ∧ r'.instrumentId = header.instrumentId ∧
      ∀ side, r'.book side = if header.state = .live then insertAll {} (sideLevels bids asks side) else {} := by
  have hbi := chunkCount_le bids.length
  have has := chunkCount_le asks.length
  have hcks : chunkCount bids.length + chunkCount asks.length < 2 ^ 32 := by omega
  let r0 := started header (bids.length + asks.length) (chunkCount bids.length + chunkCount asks.length)
  have h0 : Receiving header r0 := ⟨rfl, rfl, rfl, hsz, hcks, fun _ => le_refl _⟩
  have h2 : Receiving header ((r0.received .bid bids).received .ask asks) := (h0.received _ _).received _ _
  have hfst : r0.feedItems (chunkItems header .bid bids.length 0 bids) = some (r0.received .bid bids) :=
    feed_chunks h0 (le_refl _) (by show 0 + _ ≤ _ + _; omega) (by show 0 + _ ≤ _ + _; omega)
  have hsecond : (r0.received .bid bids).feedItems (chunkItems header .ask asks.length 0 asks) =
      some ((r0.received .bid bids).received .ask asks) :=
    feed_chunks (h0.received _ _) (le_refl _) (by show 0 + _ + _ ≤ _ + _; omega) (by show 0 + _ + _ ≤ _ + _; omega)
  obtain ⟨r', hend, hst, hgen', hid, hbk⟩ := consume_end h2 (by show 0 + _ + _ = _ + _; omega)
    (by show 0 + _ + _ = _ + _; omega)
  refine ⟨r', ?_, hst, hgen', hid, fun side => ?_⟩
  · unfold checkedItems
    have hbg : r.consume (record ⟨header, 0, .snapshotBegin _ _⟩ 0) = some r0 :=
      consume_item (begin_encodable bids.length asks.length) (if_neg (not_lt.mpr hgen))
    rw [feedItems_cons, hbg, Option.bind_some, feedItems_append, feedItems_append]
    rw [hfst, Option.bind_some, hsecond]
    exact congrArg (bind · (·.feedItems [])) hend
  · rw [hbk]
    cases side <;> rfl

theorem feed_image (hlv : header.state = .live) (hgen : r.generation ≤ header.bookGeneration)
    (hsz : bids.length + asks.length < 2 ^ 32) :
    ∃ r', r.feedItems (snapshotItems header bids asks) = some r' ∧ r'.state = .live ∧
      r'.generation = header.bookGeneration ∧ r'.instrumentId = header.instrumentId ∧
      ∀ side, r'.book side = insertAll {} (sideLevels bids asks side) := by
  obtain ⟨r', hfe, hst, hrs⟩ := feed_snapshot hgen hsz
  simp only [if_pos hlv] at hrs
  exact ⟨r', hfe, hst.trans hlv, hrs⟩

end OrderBookReconstructor

end SelfQuant.Mds
