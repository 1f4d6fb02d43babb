import SelfQuant.TraderOrderReflects

namespace SelfQuant.Trader

open List VenueEvent

variable {div : Decimal → Decimal → Decimal} {start order : Order} {qty : Decimal}
  {history seen seen' events : List VenueEvent} {latest event event' a b : VenueEvent}

def VenueEvent.Comparable (a b : VenueEvent) : Prop := a = b ∨ a.Precedes b ∨ b.Precedes a

instance : Std.Symm Comparable := ⟨fun _ _ h => h.imp Eq.symm Or.symm⟩

theorem VenueHistory.comparable (h : VenueHistory qty history) (ha : a ∈ history) (hb : b ∈ history) :
    a.Comparable b := by
  have hpairs : history.Pairwise Comparable := h.ordered.imp fun hprec => .inr (.inl hprec)
  have hrf : ∀ event ∈ history, event.Comparable event := fun event _ => .inl rfl
  exact List.Pairwise.forall_of_forall hrf hpairs ha hb

theorem VenueHistory.precedes_last (h : VenueHistory qty (seen ++ [latest])) (hmem : event ∈ seen) :
    event.Precedes latest :=
  (pairwise_append.mp h.ordered).2.2 event hmem latest (mem_singleton_self latest)

namespace Reflects

theorem congr_seen (h : Reflects start seen latest order) (hseen : ∀ event, event ∈ seen' ↔ event ∈ seen) :
    Reflects start seen' latest order where
  mem := (hseen latest).mpr h.mem
  newest := fun event hmem => h.newest event ((hseen event).mp hmem)
  quantity := h.quantity
  filled := h.filled
  watermark := h.watermark
  told := h.told
  untold := h.untold
  average := fun hlat => (h.average hlat).imp_right fun ⟨hpos, event, hmem, havg⟩ =>
    ⟨hpos, event, (hseen event).mpr hmem, havg⟩
  status := by
    refine h.status.imp (And.imp_right fun hoth hbl => ?_) (And.imp_right (And.imp_right ?_))
    · obtain ⟨event, hmem, hne⟩ := hoth hbl
      exact ⟨event, (hseen event).mpr hmem, hne⟩
    · exact fun hze event hmem => hze event ((hseen event).mp hmem)

section

variable (h : Reflects start seen latest order) (hhist : VenueHistory start.quantity history)
  (hseen : ∀ event ∈ seen, event ∈ history)

include h hhist hseen

theorem deliver (hev : event ∈ history) :
    ∃ latest, Reflects start (event :: seen) latest (deliver div order event) := by
  have hltt := hhist.bounded latest (hseen latest h.mem)
  rcases hhist.comparable hev (hseen latest h.mem) with rfl | holder | hnwr
  · exact ⟨event, h.again hltt⟩
  · exact ⟨latest, h.older hltt holder⟩
  · exact ⟨event, h.newer hnwr (hhist.bounded event hev)⟩

theorem deliverAll (hevs : ∀ event ∈ events, event ∈ history) :
    ∃ latest, Reflects start (events.reverse ++ seen) latest (Trader.deliverAll div order events) := by
  induction events generalizing seen latest order with
  | nil => exact ⟨latest, h⟩
  | cons event events ih =>
    have hevs := forall_mem_cons.mp hevs
    obtain ⟨latest, h⟩ : ∃ latest, Reflects start (event :: seen) latest (Trader.deliver div order event) :=
      h.deliver hhist hseen hevs.1
    obtain ⟨latest, h⟩ := ih h (forall_mem_cons.mpr ⟨hevs.1, hseen⟩) hevs.2
    refine ⟨latest, ?_⟩
    rw [reverse_cons, append_assoc]
    exact h

end

end Reflects

/-- Whatever the order in which the events of a history come, the placed order reflects the last one. -/
theorem Order.JustPlaced.reflects_all (h : start.JustPlaced)
    (hhist : VenueHistory start.quantity (seen ++ [latest])) {deliveries : List VenueEvent}
    (hsm : ∀ event, event ∈ deliveries ↔ event ∈ seen ++ [latest]) :
    Reflects start (seen ++ [latest]) latest (deliverAll div start deliveries) := by
  have hall : ∃ found, Reflects start (seen ++ [latest]) found (deliverAll div start deliveries) := by
    cases deliveries with
    | nil => exact absurd ((hsm latest).mpr mem_concat_self) not_mem_nil
    | cons event events =>
      have hev := (hsm event).mp mem_cons_self
      have hfst : Reflects start [event] event (deliver div start event) := h.reflects (hhist.bounded event hev)
      obtain ⟨found, hfound⟩ : ∃ found, Reflects start (events.reverse ++ [event]) found
          (deliverAll div (deliver div start event) events) :=
        hfst.deliverAll hhist (fun other hmem => mem_singleton.mp hmem ▸ hev)
          fun other hmem => (hsm other).mp (mem_cons_of_mem event hmem)
      refine ⟨found, hfound.congr_seen fun other => ?_⟩
      rw [← hsm other, ← reverse_cons, mem_reverse]
  obtain ⟨found, hfound⟩ := hall
  rcases mem_append.mp hfound.mem with hseen | hla
  · -- the latest one that was found would precede the last one, which was seen as well
    have hprec := hhist.precedes_last hseen
    rcases hfound.newest latest mem_concat_self with heq | haft
    · exact heq ▸ hfound
    · exact absurd (hprec.time.trans haft.time) (lt_irrefl _)
  · exact mem_singleton.mp hla ▸ hfound

theorem Order.JustPlaced.reflects_history (div : Decimal → Decimal → Decimal) (h : start.JustPlaced)
    (hhist : VenueHistory start.quantity (seen ++ [latest])) :
    Reflects start (seen ++ [latest]) latest (deliverAll div start (seen ++ [latest])) :=
  h.reflects_all hhist fun _ => Iff.rfl

theorem status_deliverAll_of_unknown (hord : events.Pairwise Precedes)
    (hunk : ∀ event ∈ events, event.status = .unknown)
    (hfu : ∀ event ∈ events, ¬ (0 < order.quantity ∧ order.quantity ≤ event.filled))
    (hbdd : ∀ event ∈ events, event.filled ≤ order.quantity)
    (hze : ∀ event ∈ events, isFresh order.lastVenueEventAt (some event.time) = false → event.filled = 0)
    (hmo : ∀ event ∈ events, order.filledQuantity ≤ event.filled) (hstt : order.status = .pending) :
    (deliverAll div order events).status = .pending := by
  induction events generalizing order with
  | nil => exact hstt
  | cons event events ih =>
    rw [forall_mem_cons] at hunk hfu hbdd hze hmo
    rw [pairwise_cons] at hord
    have heq : deliver div order event = _ := deliver_eq (hmo.1.trans hbdd.1) hbdd.1 rfl
    have hnx : (deliver div order event).status = .pending := by
      rw [heq, hstt, max_eq_right hmo.1]
      cases hfr : isFresh order.lastVenueEventAt (some event.time) with
      | false =>
        have hfil : ¬ 0 < event.filled := not_lt.mpr (hze.1 hfr).le
        exact (nextStatus_none hfu.1 rfl).trans (if_neg hfil)
      | true =>
        rw [hunk.1]
        exact nextStatus_some hfu.1 rfl
    refine ih hord.2 hunk.2 ?_ ?_ ?_ ?_ hnx
    · rw [heq]
      exact hfu.2
    · rw [heq]
      exact hbdd.2
    · intro other hmem hfr
      rw [heq, isFresh_advanceWatermark, decide_eq_true (hord.1 other hmem).time.le, Bool.and_true] at hfr
      exact hze.2 other hmem hfr
    · rw [heq]
      exact fun other hmem => max_le (hmo.2 other hmem) (hord.1 other hmem).filled

theorem averagePrice_deliverAll_of_late (hfil : order.filledQuantity ≤ order.quantity)
    (hls : ∀ event ∈ events, event.filled ≤ order.filledQuantity)
    (hlat : ∀ event ∈ events, isFresh order.lastVenueEventAt (some event.time) = false) :
    (deliverAll div order events).averagePrice = order.averagePrice := by
  induction events generalizing order with
  | nil => rfl
  | cons event events ih =>
    rw [forall_mem_cons] at hls hlat
    have heq : deliver div order event = _ := deliver_eq hfil (hls.1.trans hfil) hlat.1
    rw [max_eq_left hls.1, if_neg (not_takesAverage hls.1 hlat.1)] at heq
    have hnx : (deliver div order event).averagePrice = order.averagePrice := by rw [heq]
    rw [← hnx]
    refine ih ?_ ?_ ?_
    · rw [heq]
      exact hfil
    · rw [heq]
      exact hls.2
    · intro other hmem
      rw [heq, isFresh_advanceWatermark, hlat.2 other hmem, Bool.false_and]

structure Order.SameOutcome (order other : Order) : Prop where
  status : order.status = other.status
  filledQuantity : order.filledQuantity = other.filledQuantity
  averagePrice : order.averagePrice = other.averagePrice
  errorCode : order.errorCode = other.errorCode
  errorMessage : order.errorMessage = other.errorMessage

/-- The last event does not end with an unknown status and a part filled, after others of which none was
late and had a fill; and if it is late itself, the events with its fill have one average price. -/
def Unambiguous (start : Order) (history : List VenueEvent) : Prop :=
  ∀ last ∈ history.getLast?,
    (¬ last.Late start → ¬ (last.status = .unknown ∧ 0 < last.filled ∧ last.filled < start.quantity ∧
      2 ≤ history.length ∧ ∀ event ∈ history, event.Late start → event.filled = 0)) ∧
    (last.Late start → last.filled = 0 ∨ ∀ a ∈ history, ∀ b ∈ history, a.filled = last.filled →
      b.filled = last.filled → a.average = b.average)

theorem blurred_iff (hbdd : latest.filled ≤ start.quantity) : Blurred start latest ↔
    ¬ latest.Late start ∧ latest.status = .unknown ∧ 0 < latest.filled ∧ latest.filled < start.quantity := by
  constructor
  · intro h
    refine ⟨h.inTime, h.unknown, h.some, lt_of_le_of_ne hbdd fun heq => h.notAll ?_⟩
    exact ⟨heq ▸ h.some, heq.ge⟩
  · rintro ⟨hti, hunk, hso, hls⟩
    exact ⟨hti, hunk, hso, fun hall => absurd hall.2 (not_le.mpr hls)⟩

namespace Reflects

section

variable (h : Reflects start history latest order)

include h

theorem status_eq (hclr : Blurred start latest → ∃ event ∈ history, event.Late start ∧ event.filled ≠ 0) :
    order.status = statusAfter start latest := by
  rcases h.status with ⟨haft, -⟩ | ⟨hbl, -, hze⟩
  · exact haft
  · obtain ⟨event, hmem, hlat, hfil⟩ := hclr hbl
    exact absurd (hze event hmem hlat) hfil

theorem status_of_only (hbl : Blurred start latest)
    (hon : ∀ event ∈ history, event = latest) : order.status = .pending := by
  rcases h.status with ⟨-, hoth⟩ | ⟨-, hpd, -⟩
  · obtain ⟨event, hmem, hne⟩ := hoth hbl
    exact absurd (hon event hmem) hne
  · exact hpd

theorem averagePrice_eq {other : Order}
    (hoth : Reflects start history latest other) (hlat : latest.Late start)
    (havg : latest.filled = 0 ∨ ∀ a ∈ history, ∀ b ∈ history, a.filled = latest.filled →
      b.filled = latest.filled → a.average = b.average) : order.averagePrice = other.averagePrice := by
  rcases h.average hlat with ⟨hze, hpx⟩ | ⟨hpos, a, ha, hfil, hpx⟩
  · rcases hoth.average hlat with ⟨-, hpx'⟩ | ⟨hpos, -⟩
    · rw [hpx, hpx']
    · exact absurd hze hpos.ne'
  · rcases hoth.average hlat with ⟨hze, -⟩ | ⟨-, b, hb, hfil', hpx'⟩
    · exact absurd hze hpos.ne'
    · have hsm := havg.resolve_left hpos.ne'
      rw [hpx, hpx', hsm a ha b hb hfil hfil']

theorem sameOutcome {other : Order} (hoth : Reflects start history latest other)
    (havg : latest.Late start → latest.filled = 0 ∨ ∀ a ∈ history, ∀ b ∈ history,
      a.filled = latest.filled → b.filled = latest.filled → a.average = b.average)
    (hblurred : Blurred start latest → (∀ event ∈ history, event = latest) ∨
      ∃ event ∈ history, event.Late start ∧ event.filled ≠ 0) : order.SameOutcome other := by
  have hstt : order.status = other.status := by
    by_cases hon : Blurred start latest ∧ ∀ event ∈ history, event = latest
    · rw [h.status_of_only hon.1 hon.2, hoth.status_of_only hon.1 hon.2]
    · have hclr := fun hbl => (hblurred hbl).resolve_left fun hall => hon ⟨hbl, hall⟩
      rw [h.status_eq hclr, hoth.status_eq hclr]
  have hfil := h.filled.trans hoth.filled.symm
  by_cases hlat : latest.Late start
  · obtain ⟨hcode, hmsg⟩ := h.untold hlat
    obtain ⟨hcode', hmsg'⟩ := hoth.untold hlat
    exact ⟨hstt, hfil, h.averagePrice_eq hoth hlat (havg hlat), hcode.trans hcode'.symm, hmsg.trans hmsg'.symm⟩
  · obtain ⟨hpx, hcode, hmsg⟩ := h.told hlat
    obtain ⟨hpx', hcode', hmsg'⟩ := hoth.told hlat
    exact ⟨hstt, hfil, hpx.trans hpx'.symm, hcode.trans hcode'.symm, hmsg.trans hmsg'.symm⟩

end

end Reflects

/-- Every delivery of the events of the history has the outcome of the events in the order of their times. -/
def Converges (div : Decimal → Decimal → Decimal) (start : Order) (history : List VenueEvent) : Prop :=
  ∀ deliveries : List VenueEvent, (∀ event, event ∈ deliveries ↔ event ∈ history) →
    (deliverAll div start deliveries).SameOutcome (deliverAll div start history)

def reportAt (time : Int) (status : OrderStatus) (filled : ℕ) : VenueEvent where
  time
  status
  filled := filled
  average := 100
  filled_nonneg := Nat.cast_nonneg filled
  average_nonneg := by decide +kernel

theorem reportAt_precedes {time later : Int} {status status' : OrderStatus} {filled filled' : ℕ}
    (hti : time < later) (hfil : filled ≤ filled') (hrun : status.terminal = false)
    (hrk : status.rank ≤ status'.rank ∨ status'.terminal = true) :
    (reportAt time status filled).Precedes (reportAt later status' filled') where
  time := hti
  filled := Nat.cast_le.mpr hfil
  running := hrun
  rank := fun hrun' => hrk.resolve_right (Bool.eq_false_iff.mp hrun')

def placedTen : Order := { quantity := 10 }

/-- Two fills that come with an unknown status leave the order pending in their order, and partially filled
in the other. -/
theorem unknown_fills_diverge : placedTen.JustPlaced ∧
    VenueHistory placedTen.quantity [reportAt 1 .unknown 1, reportAt 2 .unknown 2] ∧
    (deliverAll Decimal.div placedTen [reportAt 1 .unknown 1, reportAt 2 .unknown 2]).status = .pending ∧
    (deliverAll Decimal.div placedTen [reportAt 2 .unknown 2, reportAt 1 .unknown 1]).status = .partiallyFilled := by
  refine ⟨⟨rfl, rfl⟩, ⟨?_, ?_⟩, by decide +kernel, by decide +kernel⟩
  · refine pairwise_pair.mpr (reportAt_precedes ?_ ?_ rfl (.inl ?_)) <;> decide
  · decide +kernel

section

variable (hstart : start.JustPlaced)

include hstart

theorem averagePrice_of_late (hbdd : ∀ event ∈ history, event.filled ≤ event'.filled)
    (hlat : ∀ event ∈ history, event.Late start) (hpos : 0 < event'.filled)
    (hqty : event'.filled ≤ start.quantity) (hlat' : event'.Late start) :
    (deliverAll div start (event' :: history)).averagePrice = event'.average := by
  have hfil : start.filledQuantity < event'.filled := hstart.filled ▸ hpos
  have heq : deliver div start event' = _ := deliver_eq (hfil.le.trans hqty) hqty hlat'
  have htks : takesAverage start event' := .inl hfil
  rw [max_eq_right hfil.le, if_pos htks] at heq
  have hfst : (deliver div start event').averagePrice = event'.average := by rw [heq]
  suffices hkt : (deliverAll div (deliver div start event') history).averagePrice =
      (deliver div start event').averagePrice from hkt.trans hfst
  refine averagePrice_deliverAll_of_late ?_ ?_ ?_
  · rw [heq]
    exact hqty
  · rw [heq]
    exact hbdd
  · intro event hmem
    rw [heq, isFresh_advanceWatermark, hlat event hmem, Bool.false_and]

section

variable (hhist : VenueHistory start.quantity (seen ++ [latest]))

include hhist

/-- With a blurred last event, the first event once more at the end makes the order partially filled, which
it is not when the events come in order. -/
theorem not_converges_of_blurred (hbl : Blurred start latest)
    (hev : event ∈ seen) (hze : ∀ event ∈ seen ++ [latest], event.Late start → event.filled = 0) :
    (deliverAll div start (seen ++ [latest])).status ≠
      (deliverAll div start ((seen ++ [latest]) ++ [event])).status := by
  have hrk : ∀ other ∈ seen, other.status.terminal = false ∧ other.status.rank < 1 := by
    intro other hmem
    have hprec := hhist.precedes_last hmem
    have hle : other.status.rank ≤ latest.status.rank := hprec.rank (by rw [hbl.unknown]; rfl)
    rw [hbl.unknown] at hle
    exact ⟨hprec.running, Nat.lt_succ_of_le hle⟩
  have hunk : ∀ other ∈ seen ++ [latest], other.status = .unknown := by
    intro other hmem
    rcases mem_append.mp hmem with hseen | hla
    · exact eq_unknown_of_rank (hrk other hseen).1 (hrk other hseen).2
    · exact mem_singleton.mp hla ▸ hbl.unknown
  have hrf := hstart.reflects_history div hhist
  have hpd : (deliverAll div start (seen ++ [latest])).status = .pending := by
    refine status_deliverAll_of_unknown hhist.ordered hunk ?_ hhist.bounded hze ?_ hstart.status
    · exact fun other hmem hall => hbl.notAll ⟨hall.1, hall.2.trans (hrf.filled_le hmem)⟩
    · intro other _
      rw [hstart.filled]
      exact other.filled_nonneg
  have hstl : isFresh (deliverAll div start (seen ++ [latest])).lastVenueEventAt (some event.time) = false := by
    rw [hrf.isFresh_eq, decide_eq_false (not_le.mpr (hhist.precedes_last hev).time), Bool.and_false]
  have hagain : deliverAll div start ((seen ++ [latest]) ++ [event]) =
      deliver div (deliverAll div start (seen ++ [latest])) event :=
    foldl_concat _ _ _ _
  have hprec := hhist.precedes_last hev
  rw [hagain, hrf.deliver_stale (hhist.bounded latest mem_concat_self) hprec.filled hprec.time.le hstl,
    hpd, nextStatus_none hbl.notAll rfl, if_pos hbl.some]
  exact OrderStatus.noConfusion

theorem unambiguous_of_converges (h : Converges div start (seen ++ [latest])) :
    Unambiguous start (seen ++ [latest]) := by
  have hbdd := hhist.bounded latest mem_concat_self
  intro last hla
  obtain rfl : latest = last := by simpa using hla
  refine ⟨fun hti ⟨hunk, hso, hls, hlen, hze⟩ => ?_, fun hlat => ?_⟩
  · have hbl : Blurred start latest := (blurred_iff hbdd).mpr ⟨hti, hunk, hso, hls⟩
    obtain ⟨event, hev⟩ : ∃ event, event ∈ seen := by
      refine exists_mem_of_ne_nil seen fun hnil => ?_
      rw [hnil, nil_append, length_singleton] at hlen
      omega
    refine not_converges_of_blurred hstart hhist hbl hev hze (h _ fun other => ?_).status.symm
    rw [mem_append, mem_singleton]
    exact ⟨fun hmem => hmem.elim id fun heq => heq ▸ mem_append_left _ hev, .inl⟩
  · refine or_iff_not_imp_left.mpr fun hne a ha b hb hfil hfil' => ?_
    have hpos : 0 < latest.filled := lt_of_le_of_ne latest.filled_nonneg (symm hne)
    have hrf := hstart.reflects_history div hhist
    have hall : ∀ event ∈ seen ++ [latest], event.Late start := by
      intro event hmem
      rcases hrf.newest event hmem with rfl | hprec
      · exact hlat
      · exact hlat.mono hprec.time.le
    -- the event that is delivered first decides
    have hfst : ∀ event ∈ seen ++ [latest], event.filled = latest.filled →
        (deliverAll div start (seen ++ [latest])).averagePrice = event.average := by
      intro event hmem heq
      rw [← (h (event :: (seen ++ [latest])) fun other => ?_).averagePrice]
      · exact averagePrice_of_late hstart (fun other hoth => heq ▸ hrf.filled_le hoth) hall
          (heq ▸ hpos) (hhist.bounded event hmem) (hall event hmem)
      · rw [mem_cons]
        exact ⟨fun hoth => hoth.elim (fun heq => heq ▸ hmem) id, .inr⟩
    exact (hfst a ha hfil).symm.trans (hfst b hb hfil')

theorem converges_of_unambiguous (h : Unambiguous start (seen ++ [latest])) :
    Converges div start (seen ++ [latest]) := by
  intro deliveries hsm
  obtain ⟨hinTime, hlate⟩ := h latest (by simp)
  have hrf := hstart.reflects_history div hhist
  refine (hstart.reflects_all hhist hsm).sameOutcome hrf hlate fun hbl => ?_
  obtain ⟨hti, hunk, hso, hls⟩ := (blurred_iff (hhist.bounded latest mem_concat_self)).mp hbl
  by_cases hseen : seen = []
  · left
    rw [hseen]
    exact fun event hmem => mem_singleton.mp hmem
  · right
    by_contra hno
    refine hinTime hti ⟨hunk, hso, hls, ?_, fun event hmem hlat => ?_⟩
    · have hlen := length_pos_of_ne_nil hseen
      rw [length_append, length_singleton]
      omega
    · by_contra hfil
      exact hno ⟨event, hmem, hlat, hfil⟩

end

end

/-- Whatever the order of delivery and however often events are repeated, the outcome is that of the events
in the order of their times, exactly when the history is unambiguous. -/
theorem deliveries_converge_iff (div : Decimal → Decimal → Decimal) (start : Order) (history : List VenueEvent)
    (hstart : start.JustPlaced) (hhistory : VenueHistory start.quantity history) :
    Converges div start history ↔ Unambiguous start history := by
  rcases eq_nil_or_concat' history with rfl | ⟨seen, latest, rfl⟩
  · refine iff_of_true (fun deliveries hsame => ?_) fun last hlast => absurd hlast (Option.not_mem_none last)
    have hnil : deliveries = [] := eq_nil_iff_forall_not_mem.mpr fun event hmem =>
      absurd ((hsame event).mp hmem) not_mem_nil
    rw [hnil]
    exact ⟨rfl, rfl, rfl, rfl, rfl⟩
  · exact ⟨unambiguous_of_converges hstart hhistory, converges_of_unambiguous hstart hhistory⟩

theorem deliveries_converge_canceled : placedTen.JustPlaced ∧
    Converges Decimal.div placedTen [reportAt 1 .open 0, reportAt 2 .partiallyFilled 5, reportAt 3 .canceled 5] := by
  have hhist : VenueHistory placedTen.quantity
      [reportAt 1 .open 0, reportAt 2 .partiallyFilled 5, reportAt 3 .canceled 5] := by
    refine ⟨List.Pairwise.cons ?_ (pairwise_pair.mpr ?_), by decide +kernel⟩
    · refine forall_mem_cons.mpr ⟨reportAt_precedes ?_ ?_ rfl (.inl ?_), forall_mem_singleton.mpr
        (reportAt_precedes ?_ ?_ rfl (.inr rfl))⟩ <;> decide
    · refine reportAt_precedes ?_ ?_ rfl (.inr rfl) <;> decide
  refine ⟨⟨rfl, rfl⟩, (deliveries_converge_iff Decimal.div placedTen _ ⟨rfl, rfl⟩ hhist).mpr ?_⟩
  rintro last hlast
  cases hlast
  refine ⟨fun _ h => ?_, fun h => ?_⟩
  · cases h.1
  · cases h

end SelfQuant.Trader
