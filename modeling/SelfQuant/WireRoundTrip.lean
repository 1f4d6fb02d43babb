import SelfQuant.WireCodec

namespace SelfQuant.Wire

open Record UInt16 Except

def RecordHeader.fields (header : RecordHeader) : HeaderFields where
  instrumentId := header.instrumentId
  busSeq := header.busSeq
  sourceSeq := header.sourceSeq
  exchangeTsNs := header.exchangeTsNs
  receiveTsc := header.receiveTsc
  publishTsc := header.publishTsc
  bookGeneration := header.bookGeneration
  state := header.state
  sourceId := header.sourceId
  flags := header.flags

/-- What an encoder is given, besides the fields of the header. -/
inductive Message
  | instrument (instrument : Instrument)
  | instrumentCatalog (catalog : InstrumentCatalog)
  | bbo (bid ask : Level)
  | ticker (event : TickerEvent)
  | delta (side : UInt8) (level : Level)
  | snapshotBegin (levelCount chunkCount : UInt32)
  | snapshotChunk (chunkIndex : UInt32) (side : UInt8) (levels : List Level)
  | snapshotEnd (receivedLevels checksum : UInt32)
  | aggBbo (value : AggBboRecord)
  | aggOrderBook (value : AggOrderBookRecord)
  | fairPrice (value : FairPriceRecordV1)
  | fairPriceV2 (value : FairPriceRecordV2)

namespace Message

def type : Message → MessageType
  | instrument .. => .instrumentUpdate
  | instrumentCatalog .. => .instrumentCatalog
  | bbo .. => .bbo
  | ticker .. => .ticker
  | delta .. => .bookDelta
  | snapshotBegin .. => .snapshotBegin
  | snapshotChunk .. => .snapshotChunk
  | snapshotEnd .. => .snapshotEnd
  | aggBbo .. => .aggBbo
  | aggOrderBook .. => .aggOrderBook
  | fairPrice .. => .fairPrice
  | fairPriceV2 .. => .fairPriceV2

def encode (capacity : Nat) (header : HeaderFields) : Message → Except CodecError (List UInt8)
  | instrument value => encodeInstrument capacity header value
  | instrumentCatalog catalog => encodeInstrumentCatalog capacity header catalog
  | bbo bid ask => encodeBbo capacity header bid ask
  | ticker event => encodeTicker capacity header event
  | delta side level => encodeDelta capacity header side level
  | snapshotBegin levelCount chunkCount => encodeSnapshotBegin capacity header levelCount chunkCount
  | snapshotChunk chunkIndex side levels => encodeSnapshotChunk capacity header chunkIndex side levels
  | snapshotEnd receivedLevels checksum => encodeSnapshotEnd capacity header receivedLevels checksum
  | aggBbo value => encodeAggBbo capacity header value
  | aggOrderBook value => encodeAggOrderBook capacity header value
  | fairPrice value => encodeFairPrice capacity header value
  | fairPriceV2 value => encodeFairPriceV2 capacity header value

def header (message : Message) (fields : HeaderFields) : RecordHeader :=
  makeHeader message.type message.type.size fields

def record (message : Message) (fields : HeaderFields) : AnyRecord :=
  match message with
  | instrument value => .instrument ⟨message.header fields, value⟩
  | instrumentCatalog catalog => .instrumentCatalog ⟨message.header fields, catalog⟩
  | bbo bid ask => .bbo ⟨message.header fields, bid.price, bid.quantity, ask.price, ask.quantity⟩
  | ticker event => .ticker ⟨message.header fields, event.bid.price, event.bid.quantity, event.ask.price,
      event.ask.quantity, event.lastPrice, event.lastQuantity, event.markPrice, event.indexPrice, event.fundingRate,
      event.openPrice, event.highPrice, event.lowPrice, event.closePrice⟩
  | delta side level => .delta ⟨message.header fields, side, fun _ => 0, level.price, level.quantity⟩
  | snapshotBegin levelCount chunkCount => .snapshotBegin ⟨message.header fields, levelCount, chunkCount⟩
  | snapshotChunk chunkIndex side levels => .snapshotChunk ⟨message.header fields, chunkIndex,
      ofNat levels.length, side, 0, fun index => levels.getD index {}⟩
  | snapshotEnd receivedLevels checksum => .snapshotEnd ⟨message.header fields, receivedLevels, checksum⟩
  | aggBbo value => .aggBbo ⟨message.header fields, value.body⟩
  | aggOrderBook value => .aggOrderBook ⟨message.header fields, value.body⟩
  | fairPrice value => .fairPrice ⟨message.header fields, value.body⟩
  | fairPriceV2 value => .fairPriceV2 ⟨message.header fields, value.body⟩

end Message

variable {β : Type} {body : Layout β} {type other : MessageType} {bytes : List UInt8} {record : Record β}
  {fields : HeaderFields} {cap : Nat} {value : β}

structure Accepts (type : MessageType) (length : Nat) (header : RecordHeader) : Prop where
  magic : header.magic = kMagic
  schema : unsupportedSchema header = false
  messageType : header.messageType = type.code
  recordLength : header.recordLength.toNat = length
  valid : (validState header.state && validFlags type header.flags) = true

theorem decodeRecord_eq_ok_iff : decodeRecord body type bytes = .ok record ↔
    bytes = (layout body).write record ∧ Accepts type (recordSize body) record.header := by
  unfold decodeRecord
  constructor
  · intro h
    split at h
    next => cases h
    split at h
    next => cases h
    next hlen =>
    dsimp only at h
    split at h
    next => cases h
    next hmagic =>
    split at h
    next => cases h
    next hscm =>
    split at h
    next => cases h
    next hty =>
    split at h
    next => cases h
    next hrec =>
    split at h
    next => cases h
    next hval =>
    cases h
    refine ⟨((layout body).write_read bytes (not_not.mp hlen)).symm, not_not.mp hmagic,
      Bool.eq_false_iff.mpr hscm, not_not.mp hty, not_not.mp hrec, not_not.mp hval⟩
  · rintro ⟨rfl, hmagic, hscm, hty, hrec, hval⟩
    have hlen : ((layout body).write record).length = recordSize body := (layout body).length_write record
    have hsize : recordSize body = RecordHeader.layout.size + body.size := rfl
    rw [if_neg (by omega), if_neg (not_not.mpr hlen), (layout body).read_write]
    rw [if_neg (not_not.mpr hmagic), hscm, if_neg Bool.false_ne_true, if_neg (not_not.mpr hty),
      if_neg (not_not.mpr hrec), if_neg (not_not.mpr hval)]

variable {valid : Record β → Bool} {r : AnyRecord}

theorem decodeChecked_eq_ok_iff : decodeChecked body type valid bytes = .ok record ↔
    bytes = (layout body).write record ∧ Accepts type (recordSize body) record.header ∧ valid record = true := by
  rw [← and_assoc, ← decodeRecord_eq_ok_iff]
  unfold decodeChecked
  cases hd : decodeRecord body type bytes with
  | error error => simp
  | ok found =>
    by_cases hval : valid found = true
    · simp only [hval, if_true, ok.injEq]
      constructor
      · rintro rfl
        exact ⟨rfl, hval⟩
      · exact And.left
    · simp only [hval, ok.injEq]
      constructor
      · intro h
        cases h
      · rintro ⟨rfl, h⟩
        exact absurd h hval

theorem encodeChecked_eq_ok_iff {valid : Bool} : encodeChecked body type valid cap fields value = .ok bytes ↔
    validateEncodeFields type fields = true ∧ valid = true ∧ recordSize body ≤ cap ∧
      bytes = (layout body).write ⟨makeHeader type (recordSize body) fields, value⟩ := by
  unfold encodeChecked writeRecord
  by_cases hval : (validateEncodeFields type fields && valid) = true
  · obtain ⟨hfld, hvl⟩ := Bool.and_eq_true_iff.mp hval
    rw [if_neg (not_not.mpr hval)]
    by_cases hrm : cap < recordSize body
    · rw [if_pos hrm]
      constructor
      · intro h
        cases h
      · omega
    · rw [if_neg hrm, ok.injEq]
      constructor
      · rintro rfl
        exact ⟨hfld, hvl, by omega, rfl⟩
      · rintro ⟨-, -, -, rfl⟩
        rfl
  · rw [if_pos hval]
    constructor
    · intro h
      cases h
    · rintro ⟨hfld, hvl, -⟩
      exact absurd (Bool.and_eq_true_iff.mpr ⟨hfld, hvl⟩) hval

theorem encodeChecked_succeeds {valid : Bool} (hfld : validateEncodeFields type fields = true)
    (hval : valid = true) (hrm : recordSize body ≤ cap) :
    ∃ bytes, encodeChecked body type valid cap fields value = .ok bytes :=
  ⟨_, encodeChecked_eq_ok_iff.mpr ⟨hfld, hval, hrm, rfl⟩⟩

theorem size_lt : type.size < 2 ^ 16 := by
  cases type <;> decide

theorem makeHeader_accepts (h : validateEncodeFields type fields = true) :
    Accepts type type.size (makeHeader type type.size fields) where
  magic := rfl
  schema := rfl
  messageType := rfl
  recordLength := toNat_ofNat_of_lt' size_lt
  valid := h

theorem code_injective (h : type.code = other.code) : type = other := by
  revert h
  cases type <;> cases other <;> decide

theorem ofCode?_code : MessageType.ofCode? type.code = some type := by
  cases type <;> decide

theorem map_eq_ok {α γ : Type} {x : Except CodecError α} {f : α → γ} {c : γ} :
    x.map f = .ok c ↔ ∃ a, x = .ok a ∧ f a = c := by
  cases x with
  | error | ok => simp [Except.map]

structure Framed (type : MessageType) (bytes : List UInt8) (header : RecordHeader) : Prop where
  length : bytes.length = type.size
  loaded : loadHeader bytes = header
  accepts : Accepts type type.size header

theorem framed_write (hsize : recordSize body = type.size) (h : Accepts type (recordSize body) record.header) :
    Framed type ((layout body).write record) record.header :=
  ⟨((layout body).length_write record).trans hsize, congrArg header ((layout body).read_write record), hsize ▸ h⟩

theorem framed_of_decodeRecord (hsize : recordSize body = type.size)
    (h : decodeRecord body type bytes = .ok record) : Framed type bytes record.header := by
  obtain ⟨rfl, hacc⟩ := decodeRecord_eq_ok_iff.mp h
  exact framed_write hsize hacc

def AnyRecord.header : AnyRecord → RecordHeader
  | .instrument record => record.header
  | .instrumentCatalog record => record.header
  | .bbo record => record.header
  | .ticker record => record.header
  | .delta record => record.header
  | .snapshotBegin record => record.header
  | .snapshotChunk record => record.header
  | .snapshotEnd record => record.header
  | .aggBbo record => record.header
  | .aggOrderBook record => record.header
  | .fairPrice record => record.header
  | .fairPriceV2 record => record.header

theorem decodeAs_framed (h : decodeAs type bytes = .ok r) : Framed type bytes r.header := by
  cases type <;> obtain ⟨record, hd, rfl⟩ := map_eq_ok.mp h
  case snapshotEnd => exact framed_of_decodeRecord rfl hd
  case fairPrice => exact framed_of_decodeRecord rfl hd
  case fairPriceV2 => exact framed_of_decodeRecord rfl hd
  all_goals
    obtain ⟨rfl, hacc, -⟩ := decodeChecked_eq_ok_iff.mp hd
    exact framed_write rfl hacc

theorem Framed.validateHeader {header : RecordHeader} (h : Framed type bytes header) :
    validateHeader bytes = (.ok, some header) := by
  have hlen := h.length
  obtain ⟨hmagic, hscm, hty, hrec, hval⟩ := h.accepts
  have hsize : RecordHeader.layout.size ≤ type.size := by cases type <;> decide
  unfold Wire.validateHeader
  rw [if_neg (by omega), h.loaded]
  rw [if_neg (not_not.mpr hmagic), hscm, if_neg Bool.false_ne_true, hty, ofCode?_code]
  dsimp only
  rw [if_neg (not_or.mpr ⟨not_not.mpr hrec, not_not.mpr hlen⟩), if_neg (not_not.mpr hval)]

theorem Framed.type_eq {header header' : RecordHeader} (h : Framed type bytes header)
    (h' : Framed other bytes header') : type = other := by
  have hhdr : header = header' := h.loaded.symm.trans h'.loaded
  exact code_injective (h.accepts.messageType.symm.trans (hhdr ▸ h'.accepts.messageType))

theorem decode_of_decodeAs (h : decodeAs type bytes = .ok r) (visitor : AnyRecord → Bool) :
    decode bytes visitor =
      if hasCallback type then (if visitor r then .ok else .invalidField, some r) else (.unknownMessageType, none) := by
  have hfrm := decodeAs_framed h
  unfold decode
  rw [hfrm.validateHeader]
  dsimp only
  rw [hfrm.accepts.messageType, ofCode?_code]
  dsimp only
  rw [h]

section Encoded

variable {valid : Bool}

section

variable (hsize : recordSize body = type.size) (h : encodeChecked body type valid cap fields value = .ok bytes)

include hsize h

theorem decodeRecord_of_encode : decodeRecord body type bytes = .ok ⟨makeHeader type type.size fields, value⟩ := by
  obtain ⟨hfld, -, -, rfl⟩ := encodeChecked_eq_ok_iff.mp h
  rw [hsize]
  refine decodeRecord_eq_ok_iff.mpr ⟨rfl, ?_⟩
  rw [hsize]
  exact makeHeader_accepts hfld

theorem decodeChecked_of_encode {check : Record β → Bool}
    (hchk : valid = true → check ⟨makeHeader type type.size fields, value⟩ = true) :
    decodeChecked body type check bytes = .ok ⟨makeHeader type type.size fields, value⟩ := by
  obtain ⟨hbyt, hacc⟩ := decodeRecord_eq_ok_iff.mp (decodeRecord_of_encode hsize h)
  exact decodeChecked_eq_ok_iff.mpr ⟨hbyt, hacc, hchk (encodeChecked_eq_ok_iff.mp h).2.1⟩

end

end Encoded

theorem Message.decodeAs_of_encode {message : Message} (h : message.encode cap fields = .ok bytes) :
    decodeAs message.type bytes = .ok (message.record fields) := by
  cases message with
  | instrument value =>
    refine map_eq_ok.mpr ⟨_, decodeChecked_of_encode rfl h fun hval => ?_, rfl⟩
    obtain ⟨hid, hflg, hresv⟩ := of_decide_eq_true hval
    exact decide_eq_true ⟨hid.symm, hflg, hresv⟩
  | instrumentCatalog catalog =>
    refine map_eq_ok.mpr ⟨_, decodeChecked_of_encode rfl h fun hval => ?_, rfl⟩
    obtain ⟨hpos, hid⟩ := of_decide_eq_true hval
    exact decide_eq_true ⟨hid.symm, hid ▸ hpos⟩
  | bbo | ticker | aggBbo | aggOrderBook =>
    exact map_eq_ok.mpr ⟨_, decodeChecked_of_encode rfl h fun hval => hval, rfl⟩
  | delta side level =>
    refine map_eq_ok.mpr ⟨_, decodeChecked_of_encode rfl h fun hval => ?_, rfl⟩
    obtain ⟨hsi, hqty⟩ := of_decide_eq_true hval
    exact decide_eq_true ⟨hsi, hqty, fun _ => rfl⟩
  | snapshotBegin levelCount chunkCount =>
    exact map_eq_ok.mpr ⟨_, decodeChecked_of_encode rfl h fun hval => hval, rfl⟩
  | snapshotChunk chunkIndex side levels =>
    refine map_eq_ok.mpr ⟨_, decodeChecked_of_encode rfl h fun hval => ?_, rfl⟩
    obtain ⟨hne, hle, hsi, -⟩ := of_decide_eq_true hval
    have hcnt : (ofNat levels.length).toNat = levels.length := by
      apply toNat_ofNat_of_lt'
      unfold kSnapshotLevelsPerChunk at hle
      show levels.length < 65536
      omega
    have hpos : 0 < levels.length := List.length_pos_iff.mpr hne
    refine decide_eq_true ⟨fun hze => ?_, by rw [hcnt]; exact hle, hsi, rfl, fun index hix => ?_⟩
    · have hze : ofNat levels.length = 0 := hze
      rw [hze, UInt16.toNat_zero] at hcnt
      omega
    · rw [hcnt] at hix
      exact List.getD_eq_default _ _ hix
  | snapshotEnd | fairPrice | fairPriceV2 => exact map_eq_ok.mpr ⟨_, decodeRecord_of_encode rfl h, rfl⟩

theorem Message.header_record (message : Message) : (message.record fields).header = message.header fields := by
  cases message <;> rfl

/-- Whatever an encoder writes is read back by its decoder and by no other one. The dispatcher shows it to
its visitor, unless it is an aggregated record. -/
theorem encode_round_trip (message : Message) (capacity : Nat) (fields : HeaderFields) (bytes : List UInt8)
    (h : message.encode capacity fields = .ok bytes) :
    validateHeader bytes = (.ok, some (message.header fields)) ∧
    decodeAs message.type bytes = .ok (message.record fields) ∧
    (∀ visitor, decode bytes visitor =
      if hasCallback message.type then
        (if visitor (message.record fields) then .ok else .invalidField, some (message.record fields))
      else (.unknownMessageType, none)) ∧
    ∀ other, other ≠ message.type → ∃ error, decodeAs other bytes = .error error := by
  have hdecode := Message.decodeAs_of_encode h
  have hframed := decodeAs_framed hdecode
  refine ⟨?_, hdecode, decode_of_decodeAs hdecode, fun other hother => ?_⟩
  · rw [hframed.validateHeader, Message.header_record]
  · cases hd : decodeAs other bytes with
    | error error => exact ⟨error, rfl⟩
    | ok r => exact absurd ((decodeAs_framed hd).type_eq hframed) hother

theorem encode_round_trip_bbo : ∃ bytes, (Message.bbo ⟨99, 1⟩ ⟨101, 2⟩).encode 104 {} = .ok bytes ∧
    decodeAs .bbo bytes = .ok ((Message.bbo ⟨99, 1⟩ ⟨101, 2⟩).record {}) := by
  obtain ⟨bytes, h⟩ : ∃ bytes, (Message.bbo ⟨99, 1⟩ ⟨101, 2⟩).encode 104 {} = .ok bytes := by
    unfold Message.encode encodeBbo
    exact encodeChecked_succeeds (by decide) (by decide) (by decide)
  exact ⟨bytes, h, (encode_round_trip _ _ _ _ h).2.1⟩

/-- No visitor is shown an aggregated record. -/
theorem aggregated_not_dispatched : ∃ bytes, (Message.aggBbo ⟨{}, {}⟩).encode 416 {} = .ok bytes ∧
    ∀ visitor, decode bytes visitor = (.unknownMessageType, none) := by
  have hvalid : validAggBbo {} = true := by decide +kernel
  obtain ⟨bytes, h⟩ : ∃ bytes, (Message.aggBbo ⟨{}, {}⟩).encode 416 {} = .ok bytes := by
    unfold Message.encode encodeAggBbo
    exact encodeChecked_succeeds (by decide) hvalid (by decide)
  exact ⟨bytes, h, decode_of_decodeAs (Message.decodeAs_of_encode h)⟩

open List AnyRecord SnapshotChunk Message

def AnyRecord.message : AnyRecord → Message
  | .instrument record => .instrument record.body
  | .instrumentCatalog record => .instrumentCatalog record.body
  | .bbo record => .bbo ⟨record.body.bidPrice, record.body.bidQuantity⟩ ⟨record.body.askPrice, record.body.askQuantity⟩
  | .ticker record => .ticker
      { bid := ⟨record.body.bidPrice, record.body.bidQuantity⟩
        ask := ⟨record.body.askPrice, record.body.askQuantity⟩, lastPrice := record.body.lastPrice
        lastQuantity := record.body.lastQuantity, markPrice := record.body.markPrice
        indexPrice := record.body.indexPrice, fundingRate := record.body.fundingRate
        openPrice := record.body.openPrice, highPrice := record.body.highPrice
        lowPrice := record.body.lowPrice, closePrice := record.body.closePrice }
  | .delta record => .delta record.body.side ⟨record.body.price, record.body.quantity⟩
  | .snapshotBegin record => .snapshotBegin record.body.itemCount record.body.chunkCountOrChecksum
  | .snapshotChunk record => .snapshotChunk record.body.chunkIndex record.body.side
      ((ofFn record.body.levels).take record.body.levelCount.toNat)
  | .snapshotEnd record => .snapshotEnd record.body.itemCount record.body.chunkCountOrChecksum
  | .aggBbo record => .aggBbo record
  | .aggOrderBook record => .aggOrderBook record
  | .fairPrice record => .fairPrice record
  | .fairPriceV2 record => .fairPriceV2 record

/-- No level of a chunk has a negative quantity. -/
def AnyRecord.QuantitiesValid : AnyRecord → Prop
  | .snapshotChunk record =>
    ∀ index, index.val < record.body.levelCount.toNat → 0 ≤ (record.body.levels index).quantity
  | _ => True

variable {header : RecordHeader} {valid : Bool}

theorem makeHeader_fields_iff (h : Accepts type type.size header) (hmin : header.schemaMinor = kSchemaMinor) :
    makeHeader type type.size header.fields = header ↔ header.reserved = 0 := by
  constructor
  · intro heq
    rw [← heq]
    rfl
  · have hmajor : header.schemaMajor = kSchemaMajor := by
      have hscm := of_decide_eq_false h.schema
      exact not_not.mp (not_or.mp hscm).1
    have hlen : ofNat type.size = header.recordLength := by
      apply UInt16.toNat_inj.mp
      rw [h.recordLength]
      exact toNat_ofNat_of_lt' size_lt
    have hmagic := h.magic
    have hty := h.messageType
    cases header
    simp_all [makeHeader, RecordHeader.fields]

section

variable (hsize : recordSize body = type.size) (hmin : record.header.schemaMinor = kSchemaMinor)
  (hrm : bytes.length ≤ cap)

include hsize hmin hrm

theorem reencode_iff (hbyt : bytes = (Record.layout body).write record)
    (h : Accepts type (recordSize body) record.header) :
    encodeChecked body type valid cap record.header.fields value = .ok bytes ↔
      record.header.reserved = 0 ∧ valid = true ∧ record.body = value := by
  have hlen : bytes.length = recordSize body := by
    rw [hbyt]
    exact (Record.layout body).length_write record
  rw [encodeChecked_eq_ok_iff, hsize, ← makeHeader_fields_iff (hsize ▸ h) hmin]
  have hfld : validateEncodeFields type record.header.fields = true := h.valid
  constructor
  · rintro ⟨-, hval, -, hsm⟩
    have hrec : record = ⟨makeHeader type type.size record.header.fields, value⟩ :=
      Function.LeftInverse.injective (Record.layout body).read_write (hbyt.symm.trans hsm)
    exact ⟨(congrArg Record.header hrec).symm, hval, congrArg Record.body hrec⟩
  · rintro ⟨hhdr, hval, rfl⟩
    exact ⟨hfld, hval, by omega, by rw [hhdr, hbyt]⟩

theorem reencode_of_decodeChecked {check : Record β → Bool}
    (hd : decodeChecked body type check bytes = .ok record)
    (hcheck : check record = true → valid = true ∧ record.body = value) :
    encodeChecked body type valid cap record.header.fields value = .ok bytes ↔ record.header.reserved = 0 ∧ True := by
  obtain ⟨hbyt, hacc, hchk⟩ := decodeChecked_eq_ok_iff.mp hd
  rw [reencode_iff hsize hmin hrm hbyt hacc]
  exact and_congr_right fun _ => iff_true_intro (hcheck hchk)

theorem reencode_of_decodeRecord (hd : decodeRecord body type bytes = .ok record) :
    encodeChecked body type true cap record.header.fields record.body = .ok bytes ↔
      record.header.reserved = 0 ∧ True := by
  obtain ⟨hbyt, hacc⟩ := decodeRecord_eq_ok_iff.mp hd
  rw [reencode_iff hsize hmin hrm hbyt hacc]
  exact and_congr_right fun _ => iff_true_intro ⟨rfl, rfl⟩

end

section Chunks

variable {levels : Fin kSnapshotLevelsPerChunk → Level} {count : UInt16}

section

variable (hle : count.toNat ≤ kSnapshotLevelsPerChunk)

include hle

theorem length_take_levels : ((ofFn levels).take count.toNat).length = count.toNat := by
  rw [length_take, length_ofFn]
  omega

theorem getD_take_levels
    (hrs : ∀ index, count.toNat ≤ index.val → levels index = {}) :
    (fun index : Fin kSnapshotLevelsPerChunk => ((ofFn levels).take count.toNat).getD index {}) = levels := by
  funext index
  have hlen := @length_take_levels levels count hle
  by_cases hin : index.val < count.toNat
  · rw [getD_eq_getElem _ _ (by omega), getElem_take, List.getElem_ofFn]
  · rw [getD_eq_default _ _ (by omega), hrs index (by omega)]

theorem mem_take_levels {P : Level → Prop} :
    (∀ level ∈ (ofFn levels).take count.toNat, P level) ↔
      ∀ index : Fin kSnapshotLevelsPerChunk, index.val < count.toNat → P (levels index) := by
  rw [forall_mem_iff_getElem]
  constructor
  · intro h index hix
    have hlvl := h index.val (by rw [length_take_levels hle]; exact hix)
    rwa [getElem_take, List.getElem_ofFn] at hlvl
  · intro h i hi
    have hcnt := hi
    rw [length_take_levels hle] at hcnt
    rw [getElem_take, List.getElem_ofFn]
    exact h ⟨i, by omega⟩ hcnt

end

end Chunks

theorem reencode_chunk {record : SnapshotChunkRecord} (hd : decodeSnapshotChunk bytes = .ok record)
    (hmin : record.header.schemaMinor = kSchemaMinor) (hrm : bytes.length ≤ cap) :
    (snapshotChunk record).message.encode cap record.header.fields = .ok bytes ↔
      record.header.reserved = 0 ∧ (snapshotChunk record).QuantitiesValid := by
  obtain ⟨hbyt, hacc, hchk⟩ := decodeChecked_eq_ok_iff.mp hd
  obtain ⟨hcnt, hle, hsi, hresv, hrs⟩ := of_decide_eq_true hchk
  have hlen := @length_take_levels record.body.levels _ hle
  have hsm : record.body =
      { chunkIndex := record.body.chunkIndex
        levelCount := ofNat ((ofFn record.body.levels).take record.body.levelCount.toNat).length
        side := record.body.side, reserved := 0
        levels := fun index => ((ofFn record.body.levels).take record.body.levelCount.toNat).getD index {} } := by
    rw [hlen, UInt16.ofNat_toNat, getD_take_levels hle hrs, ← hresv]
  have hne : (ofFn record.body.levels).take record.body.levelCount.toNat ≠ [] := by
    intro hnil
    rw [hnil] at hlen
    exact hcnt (UInt16.toNat_inj.mp hlen.symm)
  unfold message encode encodeSnapshotChunk
  rw [reencode_iff rfl hmin hrm hbyt hacc]
  refine and_congr_right fun _ => ⟨fun h => ?_, fun hval => ⟨decide_eq_true ?_, hsm⟩⟩
  · exact (mem_take_levels hle).mp (of_decide_eq_true h.1).2.2.2
  · exact ⟨hne, by rw [hlen]; exact hle, hsi, (mem_take_levels hle).mpr hval⟩

/-- A decoded record of the current schema is encoded into the same bytes exactly if the reserved word of its
header is zero and, for a chunk, no quantity is negative: the decoders look at neither. -/
theorem decoded_reencodes_iff (type : MessageType) (bytes : List UInt8) (r : AnyRecord)
    (hd : decodeAs type bytes = .ok r) (hminor : r.header.schemaMinor = kSchemaMinor) (capacity : Nat)
    (hroom : bytes.length ≤ capacity) :
    r.message.encode capacity r.header.fields = .ok bytes ↔ r.header.reserved = 0 ∧ r.QuantitiesValid := by
  cases type <;> obtain ⟨record, hrec, rfl⟩ := map_eq_ok.mp hd
  case instrumentUpdate =>
    refine reencode_of_decodeChecked rfl hminor hroom hrec fun hcheck => ⟨?_, rfl⟩
    obtain ⟨hid, hflags, hresv⟩ := of_decide_eq_true hcheck
    exact decide_eq_true ⟨hid.symm, hflags, hresv⟩
  case instrumentCatalog =>
    refine reencode_of_decodeChecked rfl hminor hroom hrec fun hcheck => ⟨?_, rfl⟩
    obtain ⟨hid, hpos⟩ := of_decide_eq_true hcheck
    exact decide_eq_true ⟨fun hzero => hpos (hid.trans hzero), hid.symm⟩
  case bookDelta =>
    refine reencode_of_decodeChecked rfl hminor hroom hrec fun hcheck => ?_
    obtain ⟨hside, hquantity, hresv⟩ := of_decide_eq_true hcheck
    refine ⟨decide_eq_true ⟨hside, hquantity⟩, ?_⟩
    rw [← (funext hresv : record.body.reserved = fun _ => 0)]
  case snapshotChunk => exact reencode_chunk hrec hminor hroom
  case snapshotEnd => exact reencode_of_decodeRecord rfl hminor hroom hrec
  case fairPrice => exact reencode_of_decodeRecord rfl hminor hroom hrec
  case fairPriceV2 => exact reencode_of_decodeRecord rfl hminor hroom hrec
  all_goals exact reencode_of_decodeChecked rfl hminor hroom hrec fun hcheck => ⟨hcheck, rfl⟩

def oneLevelChunk (quantity : Int64) : SnapshotChunkRecord where
  header := makeHeader .snapshotChunk MessageType.snapshotChunk.size {}
  body :=
    { chunkIndex := 0, levelCount := 1, side := 1, reserved := 0
      levels := fun index => if index.val = 0 then ⟨100, quantity⟩ else {} }

theorem decode_oneLevelChunk (qty : Int64) :
    decodeSnapshotChunk ((Record.layout SnapshotChunk.layout).write (oneLevelChunk qty)) = .ok (oneLevelChunk qty) := by
  refine decodeChecked_eq_ok_iff.mpr ⟨rfl, makeHeader_accepts (by decide), decide_eq_true ?_⟩
  have hcnt : (1 : UInt16) ≠ 0 ∧ (1 : UInt16).toNat ≤ kSnapshotLevelsPerChunk := by decide
  have hsi : isSide 1 = true := by decide
  refine ⟨hcnt.1, hcnt.2, hsi, rfl, fun index hix => if_neg ?_⟩
  have hone : (oneLevelChunk qty).body.levelCount.toNat = 1 := rfl
  omega

theorem decoded_reencodes_iff_oneLevelChunk :
    let bytes := (Record.layout SnapshotChunk.layout).write (oneLevelChunk 5)
    decodeAs .snapshotChunk bytes = .ok (.snapshotChunk (oneLevelChunk 5)) ∧
      (snapshotChunk 0 1 [⟨100, 5⟩]).encode 464 {} = .ok bytes := by
  have hd : decodeAs .snapshotChunk ((Record.layout SnapshotChunk.layout).write (oneLevelChunk 5)) =
      .ok (.snapshotChunk (oneLevelChunk 5)) := by
    rw [decodeAs, decode_oneLevelChunk]
    rfl
  have hlen := (decodeAs_framed hd).length
  have hroom : MessageType.snapshotChunk.size ≤ 464 := by decide
  have hiff := decoded_reencodes_iff _ _ _ hd rfl 464 (hlen ▸ hroom)
  refine ⟨hd, hiff.mpr ⟨rfl, fun index hindex => ?_⟩⟩
  have hzero : index.val = 0 := Nat.lt_one_iff.mp hindex
  show 0 ≤ (if index.val = 0 then (⟨100, 5⟩ : Level) else {}).quantity
  rw [if_pos hzero]
  decide

/-- The decoder takes a level with a negative quantity, which no encoder writes. -/
theorem negative_level_decoded :
    decodeSnapshotChunk ((Record.layout SnapshotChunk.layout).write (oneLevelChunk (-5))) = .ok (oneLevelChunk (-5)) ∧
    (snapshotChunk (oneLevelChunk (-5))).message.encode 464 {} = .error .invalidField := by
  refine ⟨decode_oneLevelChunk (-5), ?_⟩
  unfold encode encodeSnapshotChunk encodeChecked
  exact if_pos (by decide)

end SelfQuant.Wire
