import SelfQuant.MdsBookBridge
import Mathlib.Data.Prod.Lex

namespace SelfQuant.Mds

inductive SequenceDomain
  | shared | independent
deriving DecidableEq

inductive OverlayAction
  | ignored | updated | pending | cleared | divergence | tickerOnly
deriving DecidableEq

structure BboEvent where
  (instrumentId bookGeneration sourceSeq : Nat)
  (receiveTsc sourceId : Nat := 0)
  (bid ask : Level)
deriving DecidableEq

namespace BboEvent

def valid (e : BboEvent) : Bool :=
  0 ≤ e.bid.price ∧ 0 ≤ e.ask.price ∧ 0 ≤ e.bid.quantity ∧ 0 ≤ e.ask.quantity ∧ e.bid.price < e.ask.price

def stamp (e : BboEvent) : ℕ ×ₗ ℕ := toLex (e.bookGeneration, e.sourceSeq)

theorem stamp_le {a b : BboEvent} : a.stamp ≤ b.stamp ↔ a.bookGeneration < b.bookGeneration ∨
    a.bookGeneration = b.bookGeneration ∧ a.sourceSeq ≤ b.sourceSeq := Prod.Lex.toLex_le_toLex

end BboEvent

/-- The ticker is held while `valid_` is set; otherwise nothing reads its fields. -/
structure BboOverlay where
  domain : SequenceDomain := .shared
  held : Option BboEvent := none
  divergenceCount : Nat := 0

namespace BboOverlay

section

variable (o : BboOverlay) (ticker canonical : BboEvent)

def onTicker : OverlayAction × BboOverlay :=
  if !ticker.valid ∨ ticker.instrumentId ≠ canonical.instrumentId then (.ignored, o)
  else if o.held.any fun t => ticker.bookGeneration = t.bookGeneration ∧ ticker.sourceSeq ≤ t.sourceSeq then (.ignored, o)
  else if o.domain = .independent then (.tickerOnly, { o with held := some ticker })
  else if ticker.bookGeneration ≠ canonical.bookGeneration ∨ ticker.sourceSeq ≤ canonical.sourceSeq then
    (.ignored, { o with held := none })
  else (.updated, { o with held := some ticker })

def onCanonical : OverlayAction × BboOverlay :=
  match o.held with
  | none => (.ignored, o)
  | some ticker =>
    if o.domain = .independent then (.ignored, o)
    else if canonical.instrumentId ≠ ticker.instrumentId ∨ canonical.bookGeneration ≠ ticker.bookGeneration then
      (.cleared, { o with held := none })
    else if canonical.sourceSeq < ticker.sourceSeq then (.pending, o)
    else if canonical.sourceSeq > ticker.sourceSeq ∨ canonical.bid = ticker.bid ∧ canonical.ask = ticker.ask then
      (.cleared, { o with held := none })
    else (.divergence, { o with held := none, divergenceCount := min (o.divergenceCount + 1) (2 ^ 32 - 1) })

def effective : Option BboEvent :=
  match o.held.filter fun t => o.domain = .shared ∧ t.bookGeneration = canonical.bookGeneration ∧
      t.instrumentId = canonical.instrumentId ∧ canonical.sourceSeq < t.sourceSeq with
  | none => if canonical.valid then some canonical else none
  | some t => some { canonical with
      sourceSeq := t.sourceSeq, receiveTsc := t.receiveTsc, sourceId := t.sourceId, bid := t.bid, ask := t.ask }

def stamp : ℕ ×ₗ ℕ := (o.held.getD canonical).stamp

end

/-- An overlay in the shared domain and the canonical BBO it was last given. -/
inductive Run : BboOverlay → BboEvent → Prop
  | start (c : BboEvent) : Run {} c
  | ticker {o : BboOverlay} {c : BboEvent} (h : Run o c) (t : BboEvent) : Run (o.onTicker t c).2 c
  | canonical {o : BboOverlay} {c c' : BboEvent} (h : Run o c) (hc : c.stamp ≤ c'.stamp) : Run (o.onCanonical c').2 c'

variable {o : BboOverlay} {c : BboEvent}

theorem Run.ahead (h : Run o c) : o.domain = .shared ∧ ∀ t ∈ o.held,
    t.bookGeneration = c.bookGeneration ∧ t.instrumentId = c.instrumentId ∧ c.sourceSeq < t.sourceSeq := by
  induction h with
  | start => simp
  | ticker _ t ih => grind [onTicker]
  | canonical _ _ ih => grind [onCanonical]

/-- Only a valid ticker of another generation, or a canonical BBO of another instrument, drops a held ticker
that is still ahead. -/
theorem effective_never_back_iff (h : Run o c) : (∀ e ∈ o.effective c, e.stamp = o.stamp c) ∧
    (∀ t, o.stamp c ≤ (o.onTicker t c).2.stamp c ↔ ¬(o.held.isSome ∧ t.valid ∧
      t.instrumentId = c.instrumentId ∧ t.bookGeneration ≠ c.bookGeneration)) ∧
    ∀ c', c.stamp ≤ c'.stamp → (o.stamp c ≤ (o.onCanonical c').2.stamp c' ↔ ∀ t ∈ o.held,
      c'.bookGeneration = c.bookGeneration → c'.sourceSeq < t.sourceSeq → c'.instrumentId = c.instrumentId) := by
  obtain ⟨hdom, hahead⟩ := h.ahead
  simp only [stamp, BboEvent.stamp_le]
  refine ⟨fun e he => ?_, fun t => ?_, fun c' hc => ?_⟩
  · cases hx : o.held <;> grind [effective, BboEvent.stamp]
  · cases hx : o.held <;> grind [onTicker]
  · cases hx : o.held <;> grind [onCanonical]

def tick (generation seq : Nat) : BboEvent := ⟨1, generation, seq, 0, 0, ⟨5, 1⟩, ⟨6, 1⟩⟩

def twelveHeld : BboOverlay := (({} : BboOverlay).onTicker (tick 1 12) (tick 1 10)).2

theorem effective_never_back_twelve :
    twelveHeld.stamp (tick 1 10) ≤ (twelveHeld.onCanonical (tick 1 11)).2.stamp (tick 1 11) :=
  ((effective_never_back_iff (.ticker (.start _) _)).2.2 _ (by decide)).mpr fun _ _ _ _ => rfl

/-- A late ticker of an older generation makes the overlay drop the one it holds. -/
theorem foreign_ticker_drops_overlay : Run twelveHeld (tick 1 10) ∧
    twelveHeld.effective (tick 1 10) = some (tick 1 12) ∧ (twelveHeld.onTicker (tick 0 7) (tick 1 10)).1 = .ignored ∧
    (twelveHeld.onTicker (tick 0 7) (tick 1 10)).2.effective (tick 1 10) = some (tick 1 10) :=
  ⟨.ticker (.start _) _, by decide, by decide, by decide⟩

end BboOverlay

end SelfQuant.Mds
