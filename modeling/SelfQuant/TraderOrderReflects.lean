import SelfQuant.TraderOrderUpdate

namespace SelfQuant.Trader

/-- A cumulative report of the venue about one order. -/
structure VenueEvent where
  time : Int
  status : OrderStatus
  (filled average : Decimal)
  (errorCode errorMessage venueOrderID : String := "")
  filled_nonneg : 0 ≤ filled
  average_nonneg : 0 ≤ average

namespace VenueEvent

variable (event : VenueEvent)

def result : VenueResult where
  venueOrderID := event.venueOrderID
  status := .status event.status
  filledQuantity := .number event.filled
  averagePrice := .number event.average
  errorCode := event.errorCode
  errorMessage := event.errorMessage

structure Precedes (event later : VenueEvent) : Prop where
  time : event.time < later.time
  filled : event.filled ≤ later.filled
  running : event.status.terminal = false
  rank : later.status.terminal = false → event.status.rank ≤ later.status.rank

/-- The event is older than what the order knew from the start. -/
def Late (start : Order) : Prop := isFresh start.lastVenueEventAt (some event.time) = false

instance (event : VenueEvent) (start : Order) : Decidable (event.Late start) := inferInstanceAs (Decidable (_ = _))

abbrev Completes (start : Order) : Prop := 0 < start.quantity ∧ start.quantity ≤ event.filled

end VenueEvent

structure VenueHistory (quantity : Decimal) (events : List VenueEvent) : Prop where
  ordered : events.Pairwise VenueEvent.Precedes
  bounded : ∀ event ∈ events, event.filled ≤ quantity

/-- Merge a delivered event and advance the watermark; an event that cannot be merged changes nothing. -/
def deliver (div : Decimal → Decimal → Decimal) (order : Order) (event : VenueEvent) : Order :=
  match mergeOrderUpdate div order event.result (some event.time) [] false with
  | .error _ => order
  | .ok merged => { merged with lastVenueEventAt := some (advanceWatermark order.lastVenueEventAt event.time) }

def deliverAll (div : Decimal → Decimal → Decimal) (order : Order) (events : List VenueEvent) : Order :=
  events.foldl (deliver div) order

/-- `mergeOrderStatus` for a status that the table lists, or none. -/
def nextStatus (current : OrderStatus) (told : Option OrderStatus) (filled quantity : Decimal) : OrderStatus :=
  if 0 < quantity ∧ quantity ≤ filled then .filled
  else if current.terminal then current
  else
    match told with
    | none => if 0 < filled then .partiallyFilled else current
    | some status =>
      if status.terminal then status
      else if status.rank < current.rank then current
      else if 0 < filled then .partiallyFilled
      else status

section Deliver

variable {div : Decimal → Decimal → Decimal} {order : Order} {event : VenueEvent}

variable {quantity filled : Decimal} {fresh : Bool}

theorem mergeOrderStatus_eq {current status : OrderStatus} :
    mergeOrderStatus current (if fresh then .status status else .blank) filled quantity =
      .ok (nextStatus current (if fresh then some status else none) filled quantity) := by
  unfold mergeOrderStatus nextStatus
  cases fresh with
  | false =>
    simp only [Bool.false_eq_true, if_false]
    split_ifs <;> rfl
  | true =>
    simp only [if_true]
    split_ifs <;> rfl

/-- The average of an event counts when its quantity is larger, or the same and it is not older. -/
def takesAverage (order : Order) (event : VenueEvent) : Prop :=
  order.filledQuantity < event.filled ∨
    event.filled = order.filledQuantity ∧ isFresh order.lastVenueEventAt (some event.time)

instance : Decidable (takesAverage order event) := inferInstanceAs (Decidable (_ ∨ _))

theorem not_takesAverage (hle : event.filled ≤ order.filledQuantity)
    (hstl : isFresh order.lastVenueEventAt (some event.time) = false) : ¬ takesAverage order event := by
  rintro (hlt | ⟨-, htrue⟩)
  · exact absurd hle (not_le.mpr hlt)
  · exact absurd (htrue.symm.trans hstl) Bool.true_eq_false.mp

theorem mergeFills_event (hfr : isFresh order.lastVenueEventAt (some event.time) = fresh) :
    mergeFills div (order.named event.result) event.result fresh [] =
      .ok (max order.filledQuantity event.filled,
        if takesAverage order event then event.average else order.averagePrice) := by
  have hneg : ¬ event.filled < 0 := not_lt.mpr event.filled_nonneg
  unfold mergeFills takesAverage
  simp only [VenueEvent.result, Order.named, readAverage_number event.average_nonneg, if_neg hneg, hfr]
  by_cases hmo : order.filledQuantity < event.filled
  · rw [if_pos hmo, if_pos (.inl hmo), max_eq_right hmo.le]
  · rw [if_neg hmo, max_eq_left (not_lt.mp hmo)]
    by_cases hsm : event.filled = order.filledQuantity ∧ fresh
    · rw [if_pos hsm, if_pos (.inr hsm)]
    · rw [if_neg hsm, if_neg (not_or.mpr ⟨hmo, hsm⟩)]

theorem capFilled_of_le (h : filled ≤ quantity) : capFilled filled quantity = filled := by
  unfold capFilled
  split_ifs with hfull
  · exact le_antisymm hfull.2 h
  · rfl

theorem deliver_eq (hfil : order.filledQuantity ≤ order.quantity) (hev : event.filled ≤ order.quantity)
    (hfr : isFresh order.lastVenueEventAt (some event.time) = fresh) : deliver div order event =
      { order.named event.result with
        filledQuantity := max order.filledQuantity event.filled
        averagePrice := if takesAverage order event then event.average else order.averagePrice
        status := nextStatus order.status (if fresh then some event.status else none)
          (max order.filledQuantity event.filled) order.quantity
        errorCode := if fresh then event.errorCode else order.errorCode
        errorMessage := if fresh then truncateMessage event.errorMessage else order.errorMessage
        lastVenueEventAt := some (advanceWatermark order.lastVenueEventAt event.time) } := by
  have hcap : capFilled (max order.filledQuantity event.filled) (order.named event.result).quantity =
      max order.filledQuantity event.filled := capFilled_of_le (max_le hfil hev)
  have hstt : event.result.status = .status event.status := rfl
  unfold deliver mergeOrderUpdate
  rw [hfr]
  simp only [mergeReport, mergeFills_event hfr, hcap, hstt, mergeOrderStatus_eq]
  rfl

end Deliver

open List

structure Order.JustPlaced (order : Order) : Prop where
  status : order.status = .pending
  filled : order.filledQuantity = 0

def statusAfter (start : Order) (latest : VenueEvent) : OrderStatus :=
  if 0 < start.quantity ∧ start.quantity ≤ latest.filled then .filled
  else if latest.Late start then (if 0 < latest.filled then .partiallyFilled else .pending)
  else if latest.status.terminal then latest.status
  else if 0 < latest.filled then .partiallyFilled
  else if latest.status = .unknown then .pending
  else latest.status

/-- A status unknown ranks below the pending of a placed order, so the event that tells it does not make
the order partially filled, but one that comes later than it does. -/
structure Blurred (start : Order) (latest : VenueEvent) : Prop where
  inTime : ¬ latest.Late start
  unknown : latest.status = .unknown
  some : 0 < latest.filled
  notAll : ¬ (0 < start.quantity ∧ start.quantity ≤ latest.filled)

/-- What an order is after the events that were seen, in whatever order, of which one is the latest. -/
structure Reflects (start : Order) (seen : List VenueEvent) (latest : VenueEvent) (order : Order) : Prop where
  mem : latest ∈ seen
  newest : ∀ event ∈ seen, event = latest ∨ event.Precedes latest
  quantity : order.quantity = start.quantity
  filled : order.filledQuantity = latest.filled
  watermark : order.lastVenueEventAt = some (advanceWatermark start.lastVenueEventAt latest.time)
  told : ¬ latest.Late start → order.averagePrice = latest.average ∧ order.errorCode = latest.errorCode ∧
    order.errorMessage = truncateMessage latest.errorMessage
  untold : latest.Late start → order.errorCode = start.errorCode ∧ order.errorMessage = start.errorMessage
  average : latest.Late start → latest.filled = 0 ∧ order.averagePrice = start.averagePrice ∨
    0 < latest.filled ∧ ∃ event ∈ seen, event.filled = latest.filled ∧ order.averagePrice = event.average
  status : (order.status = statusAfter start latest ∧ (Blurred start latest → ∃ event ∈ seen, event ≠ latest)) ∨
    Blurred start latest ∧ order.status = .pending ∧ ∀ event ∈ seen, event.Late start → event.filled = 0

section Status

variable {start : Order} {latest event : VenueEvent} {current : OrderStatus} {told : Option OrderStatus}
  {filled quantity : Decimal} {watermark : Option Int} {time later : Int}

theorem isFresh_advanceWatermark : isFresh (some (advanceWatermark watermark time)) (some later) =
    (isFresh watermark (some later) && decide (time ≤ later)) := by
  cases watermark with
  | none => rfl
  | some last => simp [isFresh, advanceWatermark]

theorem advanceWatermark_advanceWatermark : advanceWatermark (some (advanceWatermark watermark time)) later =
    advanceWatermark watermark (max time later) := by
  cases watermark with
  | none => rfl
  | some last => exact max_assoc last time later

theorem statusAfter_full (h : latest.Completes start) : statusAfter start latest = .filled := if_pos h

theorem nextStatus_full (h : 0 < quantity ∧ quantity ≤ filled) : nextStatus current told filled quantity = .filled :=
  if_pos h

theorem nextStatus_none (hfull : ¬ (0 < quantity ∧ quantity ≤ filled)) (h : current.terminal = false) :
    nextStatus current none filled quantity = if 0 < filled then .partiallyFilled else current := by
  rw [nextStatus, if_neg hfull, if_neg (Bool.eq_false_iff.mp h)]

section

variable (hfull : ¬ latest.Completes start)

include hfull

theorem statusAfter_late (h : latest.Late start) :
    statusAfter start latest = if 0 < latest.filled then .partiallyFilled else .pending := by
  rw [statusAfter, if_neg hfull, if_pos h]

theorem statusAfter_terminal
    (hlat : ¬ latest.Late start) (h : latest.status.terminal) : statusAfter start latest = latest.status := by
  rw [statusAfter, if_neg hfull, if_neg hlat, if_pos h]

theorem statusAfter_running
    (hlat : ¬ latest.Late start) (h : latest.status.terminal = false) :
    statusAfter start latest = if 0 < latest.filled then .partiallyFilled
      else if latest.status = .unknown then .pending else latest.status := by
  rw [statusAfter, if_neg hfull, if_neg hlat, if_neg (Bool.eq_false_iff.mp h)]

end

theorem Blurred.statusAfter_eq (h : Blurred start latest) : statusAfter start latest = .partiallyFilled := by
  rw [statusAfter_running h.notAll h.inTime (by rw [h.unknown]; rfl), if_pos h.some]

variable {status : OrderStatus}

theorem nextStatus_some (hfull : ¬ (0 < quantity ∧ quantity ≤ filled))
    (h : current.terminal = false) : nextStatus current (some status) filled quantity =
      if status.terminal then status else if status.rank < current.rank then current
      else if 0 < filled then .partiallyFilled else status := by
  rw [nextStatus, if_neg hfull, if_neg (Bool.eq_false_iff.mp h)]

theorem nextStatus_terminal (hfull : ¬ (0 < quantity ∧ quantity ≤ filled)) (h : current.terminal) :
    nextStatus current told filled quantity = current := by
  unfold nextStatus
  rw [if_neg hfull, if_pos h]

theorem eq_unknown_of_rank (h : status.terminal = false) (hrk : status.rank < 1) : status = .unknown := by
  revert h hrk
  cases status <;> decide

theorem one_le_rank (h : status.terminal = false) (hkn : status ≠ .unknown) : 1 ≤ status.rank := by
  by_contra hrk
  exact hkn (eq_unknown_of_rank h (not_le.mp hrk))

theorem nextStatus_statusAfter : nextStatus (statusAfter start latest) none latest.filled start.quantity =
    statusAfter start latest := by
  by_cases hfull : latest.Completes start
  · rw [nextStatus_full hfull, statusAfter_full hfull]
  by_cases htm : (statusAfter start latest).terminal
  · exact nextStatus_terminal hfull htm
  rw [nextStatus_none hfull (Bool.eq_false_iff.mpr htm)]
  by_cases hfil : 0 < latest.filled
  · rw [if_pos hfil]
    by_cases hlat : latest.Late start
    · rw [statusAfter_late hfull hlat, if_pos hfil]
    · have hrun : latest.status.terminal = false := by
        by_contra hend
        rw [statusAfter_terminal hfull hlat (Bool.eq_true_of_not_eq_false hend)] at htm
        exact htm (Bool.eq_true_of_not_eq_false hend)
      rw [statusAfter_running hfull hlat hrun, if_pos hfil]
  · exact if_neg hfil

theorem nextStatus_again (hlat : ¬ latest.Late start) :
    nextStatus (statusAfter start latest) (some latest.status) latest.filled start.quantity =
      statusAfter start latest := by
  by_cases hfull : latest.Completes start
  · rw [nextStatus_full hfull, statusAfter_full hfull]
  by_cases hend : latest.status.terminal
  · rw [statusAfter_terminal hfull hlat hend]
    exact nextStatus_terminal hfull hend
  have hrun : latest.status.terminal = false := Bool.eq_false_iff.mpr hend
  rw [statusAfter_running hfull hlat hrun]
  by_cases hfil : 0 < latest.filled
  · rw [if_pos hfil, nextStatus_some hfull rfl, if_neg hend, if_pos hfil, ite_self]
  · rw [if_neg hfil]
    by_cases hunk : latest.status = .unknown
    · rw [if_pos hunk, nextStatus_some hfull rfl, hunk]
      rfl
    · rw [if_neg hunk, nextStatus_some hfull hrun, if_neg hend, if_neg (lt_irrefl _), if_neg hfil]

/-- What the status of an order is like before the event that is newer than all others. -/
structure Awaits (start : Order) (event : VenueEvent) (current : OrderStatus) : Prop where
  running : current.terminal = false
  known : current ≠ .unknown
  late : event.Late start → event.filled = 0 → current = .pending
  rank : event.status.terminal = false → event.status.rank < current.rank →
    current = .pending ∨ current = .partiallyFilled ∧ 0 < event.filled

theorem nextStatus_newer (hfull : ¬ event.Completes start)
    (h : Awaits start event current) {fresh : Bool} (hfr : isFresh start.lastVenueEventAt (some event.time) = fresh) :
    (nextStatus current (if fresh then some event.status else none) event.filled start.quantity =
        statusAfter start event ∧ (Blurred start event → current ≠ .pending)) ∨
      Blurred start event ∧ current = .pending ∧
        nextStatus current (if fresh then some event.status else none) event.filled start.quantity = .pending := by
  cases fresh with
  | false =>
    refine .inl ⟨?_, fun hbl => absurd hfr hbl.inTime⟩
    simp only [Bool.false_eq_true, if_false]
    rw [nextStatus_none hfull h.running, statusAfter_late hfull hfr]
    by_cases hfil : 0 < event.filled
    · rw [if_pos hfil, if_pos hfil]
    · rw [if_neg hfil, if_neg hfil]
      exact h.late hfr (le_antisymm (not_lt.mp hfil) event.filled_nonneg)
  | true =>
    have hlat : ¬ event.Late start := by
      unfold VenueEvent.Late
      rw [hfr]
      exact Bool.true_eq_false.mp
    simp only [if_true]
    rw [nextStatus_some hfull h.running]
    by_cases hend : event.status.terminal
    · refine .inl ⟨?_, fun hbl => ?_⟩
      · rw [if_pos hend, statusAfter_terminal hfull hlat hend]
      · rw [hbl.unknown] at hend
        cases hend
    have hrun : event.status.terminal = false := Bool.eq_false_iff.mpr hend
    rw [if_neg hend, statusAfter_running hfull hlat hrun]
    by_cases hrk : event.status.rank < current.rank
    · rw [if_pos hrk]
      rcases h.rank hrun hrk with rfl | ⟨rfl, hfil⟩
      · have hunk : event.status = .unknown := eq_unknown_of_rank hrun hrk
        by_cases hfil : 0 < event.filled
        · exact .inr ⟨⟨hlat, hunk, hfil, hfull⟩, rfl, rfl⟩
        · refine .inl ⟨?_, fun hbl => absurd hbl.some hfil⟩
          rw [if_neg hfil, if_pos hunk]
      · refine .inl ⟨?_, fun _ => by decide⟩
        rw [if_pos hfil]
    · have hkn : event.status ≠ .unknown := by
        intro hunk
        rw [hunk] at hrk
        exact hrk (one_le_rank h.running h.known)
      refine .inl ⟨?_, fun hbl => absurd hbl.unknown hkn⟩
      rw [if_neg hrk]
      by_cases hfil : 0 < event.filled
      · rw [if_pos hfil, if_pos hfil]
      · rw [if_neg hfil, if_neg hfil, if_neg hkn]

end Status

section Delivery

variable {div : Decimal → Decimal → Decimal} {start order : Order} {seen : List VenueEvent}
  {latest event : VenueEvent}

theorem not_late_iff : ¬ event.Late start ↔ isFresh start.lastVenueEventAt (some event.time) = true :=
  iff_of_eq (Bool.not_eq_false _)

theorem VenueEvent.Precedes.trans {other : VenueEvent} (h : other.Precedes latest) (hnwr : latest.Precedes event) :
    other.Precedes event where
  time := h.time.trans hnwr.time
  filled := h.filled.trans hnwr.filled
  running := h.running
  rank := fun hrun => (h.rank hnwr.running).trans (hnwr.rank hrun)

theorem VenueEvent.Late.mono (hti : latest.time ≤ event.time) (h : event.Late start) : latest.Late start := by
  unfold Late at h ⊢
  cases hla : start.lastVenueEventAt with
  | none => rw [hla] at h; cases h
  | some last =>
    rw [hla] at h
    have hev : event.time < last := not_le.mp (of_decide_eq_false h)
    exact decide_eq_false (not_le.mpr (hti.trans_lt hev))

theorem reflects_newer (hqty : order.quantity = start.quantity) (hnn : 0 ≤ order.filledQuantity)
    (hle : order.filledQuantity ≤ event.filled) (hev : event.filled ≤ start.quantity)
    (hfr : isFresh order.lastVenueEventAt (some event.time) = isFresh start.lastVenueEventAt (some event.time))
    (hmr : advanceWatermark order.lastVenueEventAt event.time = advanceWatermark start.lastVenueEventAt event.time)
    (hsn : ∀ other ∈ seen, other.Precedes event)
    (hawaits : ¬ event.Completes start → Awaits start event order.status)
    (huntold : event.Late start → order.errorCode = start.errorCode ∧ order.errorMessage = start.errorMessage)
    (havg : event.Late start → order.filledQuantity = event.filled →
      event.filled = 0 ∧ order.averagePrice = start.averagePrice ∨
        0 < event.filled ∧ ∃ other ∈ seen, other.filled = event.filled ∧ order.averagePrice = other.average)
    (hblurred : Blurred start event → order.status = .pending → ∀ other ∈ seen, other.Late start → other.filled = 0)
    (hoth : order.status ≠ .pending → seen ≠ []) :
    Reflects start (event :: seen) event (deliver div order event) := by
  have hfil : order.filledQuantity ≤ order.quantity := by
    rw [hqty]
    exact hle.trans hev
  rw [deliver_eq hfil (hqty ▸ hev) hfr, max_eq_right hle, hqty]
  refine ⟨mem_cons_self, ?_, hqty, rfl, congrArg some hmr, fun hlat => ?_, fun hlat => ?_, fun hlat => ?_, ?_⟩
  · intro other hmem
    exact (mem_cons.mp hmem).imp_right (hsn other)
  · have hlat := not_late_iff.mp hlat
    have htks : takesAverage order event := hle.lt_or_eq.imp_right fun heq => ⟨heq.symm, hfr.trans hlat⟩
    simp only [if_pos htks, hlat, if_true, and_self]
  · have hstl : isFresh start.lastVenueEventAt (some event.time) = false := hlat
    simpa only [hstl, Bool.false_eq_true, if_false] using huntold hlat
  · by_cases heq : order.filledQuantity = event.filled
    · have htks : ¬ takesAverage order event := not_takesAverage heq.ge (hfr.trans hlat)
      simp only [if_neg htks]
      refine (havg hlat heq).imp_right fun ⟨hpos, other, hmem, hoth⟩ => ?_
      exact ⟨hpos, other, mem_cons_of_mem event hmem, hoth⟩
    · have hlt : order.filledQuantity < event.filled := lt_of_le_of_ne hle heq
      exact .inr ⟨hnn.trans_lt hlt, event, mem_cons_self, rfl, if_pos (.inl hlt)⟩
  · by_cases hfull : event.Completes start
    · refine .inl ⟨?_, fun hbl => absurd hfull hbl.notAll⟩
      exact (nextStatus_full hfull).trans (statusAfter_full hfull).symm
    · rcases nextStatus_newer hfull (hawaits hfull) rfl with ⟨hstt, hclr⟩ | ⟨hbl, hpd, hstt⟩
      · refine .inl ⟨hstt, fun hbl => ?_⟩
        obtain ⟨other, hmem⟩ := exists_mem_of_ne_nil seen (hoth (hclr hbl))
        refine ⟨other, mem_cons_of_mem event hmem, fun heq => ?_⟩
        exact absurd (hsn other hmem).time (heq ▸ lt_irrefl _)
      · refine .inr ⟨hbl, hstt, forall_mem_cons.mpr ⟨fun hlat => absurd hlat hbl.inTime, ?_⟩⟩
        exact hblurred hbl hpd

theorem Order.JustPlaced.reflects (h : start.JustPlaced) (hev : event.filled ≤ start.quantity) :
    Reflects start [event] event (deliver div start event) := by
  refine reflects_newer rfl h.filled.ge ?_ hev rfl rfl ?_ (fun _ => ?_) (fun _ => ⟨rfl, rfl⟩) (fun _ heq => ?_) ?_ ?_
  · rw [h.filled]
    exact event.filled_nonneg
  · exact fun other hmem => absurd hmem not_mem_nil
  · rw [h.status]
    exact ⟨rfl, by decide, fun _ _ => rfl, fun _ _ => .inl rfl⟩
  · exact .inl ⟨heq.symm.trans h.filled, rfl⟩
  · exact fun _ _ other hmem => absurd hmem not_mem_nil
  · exact fun hne => absurd h.status hne

namespace Reflects

variable (h : Reflects start seen latest order)

include h

theorem awaits (hnwr : latest.Precedes event)
    (hfull : ¬ event.Completes start) : Awaits start event order.status := by
  have hfu' : ¬ latest.Completes start := fun hall => hfull ⟨hall.1, hall.2.trans hnwr.filled⟩
  have hpd : Awaits start event .pending := ⟨rfl, by decide, fun _ _ => rfl, fun _ _ => .inl rfl⟩
  rcases h.status with ⟨hstt, -⟩ | ⟨-, hstt, -⟩
  swap
  · rw [hstt]
    exact hpd
  rw [hstt]
  by_cases hfil : 0 < latest.filled
  · -- the order is partially filled, and so it stays
    have hmo : 0 < event.filled := hfil.trans_le hnwr.filled
    have hpart : statusAfter start latest = .partiallyFilled := by
      by_cases hlate : latest.Late start
      · rw [statusAfter_late hfu' hlate, if_pos hfil]
      · rw [statusAfter_running hfu' hlate hnwr.running, if_pos hfil]
    rw [hpart]
    exact ⟨rfl, by decide, fun _ hze => absurd hze hmo.ne', fun _ _ => .inr ⟨rfl, hmo⟩⟩
  by_cases hlate : latest.Late start
  · rw [statusAfter_late hfu' hlate, if_neg hfil]
    exact hpd
  rw [statusAfter_running hfu' hlate hnwr.running]
  split_ifs with hunk
  · exact hpd
  · refine ⟨hnwr.running, hunk, fun hlat => absurd ?_ hlate, fun hrun hrk => ?_⟩
    · exact VenueEvent.Late.mono hnwr.time.le hlat
    · exact absurd (hnwr.rank hrun) (not_le.mpr hrk)

theorem isFresh_eq : isFresh order.lastVenueEventAt (some event.time) =
    (isFresh start.lastVenueEventAt (some event.time) && decide (latest.time ≤ event.time)) := by
  rw [h.watermark, isFresh_advanceWatermark]

theorem filled_le (hmem : event ∈ seen) : event.filled ≤ latest.filled := by
  rcases h.newest event hmem with rfl | hprec
  · exact le_rfl
  · exact hprec.filled

theorem late_filled (hstt : order.status = .pending) (hfull : ¬ latest.Completes start)
    (hrun : latest.status.terminal = false) : ∀ other ∈ seen, other.Late start → other.filled = 0 := by
  rcases h.status with ⟨haft, -⟩ | ⟨-, -, hlat⟩
  swap
  · exact hlat
  intro other hmem _
  have hze : ¬ 0 < latest.filled := by
    intro hfil
    rw [hstt] at haft
    by_cases hlat : latest.Late start
    · rw [statusAfter_late hfull hlat, if_pos hfil] at haft
      cases haft
    · rw [statusAfter_running hfull hlat hrun, if_pos hfil] at haft
      cases haft
  exact le_antisymm ((h.filled_le hmem).trans (not_lt.mp hze)) other.filled_nonneg

theorem newer (hnwr : latest.Precedes event) (hev : event.filled ≤ start.quantity) :
    Reflects start (event :: seen) event (deliver div order event) := by
  have hmr : advanceWatermark order.lastVenueEventAt event.time =
      advanceWatermark start.lastVenueEventAt event.time := by
    rw [h.watermark, advanceWatermark_advanceWatermark, max_eq_right hnwr.time.le]
  have hsn : ∀ other ∈ seen, other.Precedes event := by
    intro other hmem
    rcases h.newest other hmem with rfl | hprec
    · exact hnwr
    · exact hprec.trans hnwr
  refine reflects_newer h.quantity (h.filled ▸ latest.filled_nonneg) (h.filled.trans_le hnwr.filled) hev ?_
    hmr hsn (h.awaits hnwr) ?_ ?_ ?_ fun _ => ne_nil_of_mem h.mem
  · rw [h.isFresh_eq, decide_eq_true hnwr.time.le, Bool.and_true]
  · exact fun hlat => h.untold (hlat.mono hnwr.time.le)
  · intro hlat heq
    rw [h.filled] at heq
    rw [← heq]
    exact h.average (hlat.mono hnwr.time.le)
  · intro hbl hpd
    refine h.late_filled hpd (fun hall => hbl.notAll ⟨hall.1, hall.2.trans hnwr.filled⟩) hnwr.running

section

variable (hlatest : latest.filled ≤ start.quantity)

include hlatest

theorem deliver_stale (hle : event.filled ≤ latest.filled) (hti : event.time ≤ latest.time)
    (hfr : isFresh order.lastVenueEventAt (some event.time) = false) : deliver div order event =
      { order.named event.result with status := nextStatus order.status none latest.filled start.quantity } := by
  have hfil : order.filledQuantity ≤ order.quantity := by
    rw [h.filled, h.quantity]
    exact hlatest
  have hev : event.filled ≤ order.quantity := by
    rw [h.quantity]
    exact hle.trans hlatest
  have htks : ¬ takesAverage order event := not_takesAverage (h.filled ▸ hle) hfr
  have hmr : some (advanceWatermark order.lastVenueEventAt event.time) = order.lastVenueEventAt := by
    rw [h.watermark, advanceWatermark_advanceWatermark, max_eq_left hti]
  have hmax : max order.filledQuantity event.filled = order.filledQuantity := max_eq_left (h.filled ▸ hle)
  rw [deliver_eq hfil hev hfr, hmax, hmr, if_neg htks]
  simp only [Bool.false_eq_true, if_false, Order.named, h.filled, h.quantity]

theorem stale (hle : event = latest ∨ event.Precedes latest)
    (hfr : isFresh order.lastVenueEventAt (some event.time) = false)
    (hoth : Blurred start latest → event ≠ latest) :
    Reflects start (event :: seen) latest (deliver div order event) := by
  have hbef : event.filled ≤ latest.filled ∧ event.time ≤ latest.time := by
    rcases hle with rfl | hprec
    · exact ⟨le_rfl, le_rfl⟩
    · exact ⟨hprec.filled, hprec.time.le⟩
  have hstt : nextStatus order.status none latest.filled start.quantity = statusAfter start latest := by
    rcases h.status with ⟨haft, -⟩ | ⟨hbl, hpd, -⟩
    · rw [haft, nextStatus_statusAfter]
    · rw [hpd, nextStatus_none hbl.notAll rfl, if_pos hbl.some, hbl.statusAfter_eq]
  rw [h.deliver_stale hlatest hbef.1 hbef.2 hfr, hstt]
  refine ⟨mem_cons_of_mem event h.mem, forall_mem_cons.mpr ⟨hle, h.newest⟩, h.quantity, h.filled,
    h.watermark, h.told, h.untold, fun hlat => ?_, .inl ⟨rfl, fun hbl => ?_⟩⟩
  · refine (h.average hlat).imp_right fun ⟨hpos, other, hmem, havg⟩ => ?_
    exact ⟨hpos, other, mem_cons_of_mem event hmem, havg⟩
  · exact ⟨event, mem_cons_self, hoth hbl⟩

theorem older (holder : event.Precedes latest) : Reflects start (event :: seen) latest (deliver div order event) := by
  refine h.stale hlatest (.inr holder) ?_ fun _ heq => absurd holder.time (heq ▸ lt_irrefl _)
  rw [h.isFresh_eq, decide_eq_false (not_le.mpr holder.time), Bool.and_false]

theorem again : Reflects start (latest :: seen) latest (deliver div order latest) := by
  have hfr : isFresh order.lastVenueEventAt (some latest.time) =
      isFresh start.lastVenueEventAt (some latest.time) := by
    rw [h.isFresh_eq, decide_eq_true le_rfl, Bool.and_true]
  by_cases hlate : latest.Late start
  · exact h.stale hlatest (.inl rfl) (hfr.trans hlate) fun hbl => absurd hlate hbl.inTime
  have htrue := hfr.trans (not_late_iff.mp hlate)
  have hfil : order.filledQuantity ≤ order.quantity := by
    rw [h.filled, h.quantity]
    exact hlatest
  have htks : takesAverage order latest := .inr ⟨h.filled.symm, htrue⟩
  have hmr : some (advanceWatermark order.lastVenueEventAt latest.time) = order.lastVenueEventAt := by
    rw [h.watermark, advanceWatermark_advanceWatermark, max_self]
  rw [deliver_eq hfil (h.quantity ▸ hlatest) htrue, h.filled, max_self, hmr, if_pos htks, h.quantity]
  simp only [if_true]
  refine ⟨mem_cons_self, forall_mem_cons.mpr ⟨.inl rfl, h.newest⟩, h.quantity, rfl, h.watermark,
    fun _ => ⟨rfl, rfl, rfl⟩, fun hlat => absurd hlat hlate, fun hlat => absurd hlat hlate, ?_⟩
  rcases h.status with ⟨haft, hoth⟩ | ⟨hbl, hpd, hze⟩
  · rw [haft, nextStatus_again hlate]
    refine .inl ⟨rfl, fun hbl => ?_⟩
    obtain ⟨other, hmem, hne⟩ := hoth hbl
    exact ⟨other, mem_cons_of_mem latest hmem, hne⟩
  · refine .inr ⟨hbl, ?_, forall_mem_cons.mpr ⟨fun hlat => absurd hlat hlate, hze⟩⟩
    rw [hpd, nextStatus_some hbl.notAll rfl, hbl.unknown]
    rfl

end

end Reflects

end Delivery

end SelfQuant.Trader
