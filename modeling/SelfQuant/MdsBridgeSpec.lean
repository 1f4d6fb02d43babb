import SelfQuant.MdsReferenceBook

namespace SelfQuant.Mds.Ladder

open Function BitScan

variable {l : Ladder} {index i : Nat} {price qty : Int} {side : Side}

/-- `best` is the index of the first quantity on the side, if there is one. -/
def IsFirst (side : Side) (quantities : Nat → Int) : Option Nat → Prop
  | none => ∀ i, ¬0 < quantities i
  | some best => 0 < quantities best ∧ ∀ i, 0 < quantities i → improves side i best = false

/-- The bitmap tells the indices with a quantity, all within the capacity, and the best of them is
known. -/
structure Sound (l : Ladder) : Prop where
  nonneg : ∀ i, 0 ≤ l.quantities i
  occupied : ∀ i, isSet l.occupied i ↔ 0 < l.quantities i
  within : ∀ i, 0 < l.quantities i → i < l.capacity
  best : IsFirst l.side l.quantities l.bestIndex

theorem reset_sound (base tick : Int) (gen : Nat) : Sound (l.reset base tick gen) := by
  refine ⟨fun i => le_rfl, fun i => ?_, fun i h => ?_, fun i => ?_⟩
  · simp [reset, isSet]
  · simp [reset] at h
  · simp [reset]

theorem wordWithin_eq (h : ∀ i, isSet l.occupied i → i < l.capacity) : l.wordWithin = l.occupied := by
  funext word
  unfold wordWithin
  split
  next hw =>
    refine BitVec.eq_of_getLsbD_eq fun bit hbit => ?_
    rw [BitVec.getLsbD_and]
    cases hset : (l.occupied word).getLsbD bit with
    | false => rfl
    | true =>
      have hlt := h (word * 64 + bit) (by rw [isSet_word hbit]; exact hset)
      rw [Bool.true_and, getLsbD_lowBits (Nat.mod_lt l.capacity (show 0 < 64 by omega)), decide_eq_true_iff]
      omega
  next => rfl

theorem div_lt_words (h : i < l.capacity) : i / 64 < (l.capacity + 63) / 64 := by omega

theorem recomputeBest_isFirst (ho : ∀ i, isSet l.occupied i ↔ 0 < l.quantities i)
    (hw : ∀ i, 0 < l.quantities i → i < l.capacity) :
    IsFirst l.side l.quantities l.recomputeBest.bestIndex := by
  have hwin : ∀ i, isSet l.occupied i → i < l.capacity := fun i hi => hw i ((ho i).mp hi)
  unfold recomputeBest
  cases hs : l.side with
  | ask =>
    cases hf : firstSet l.occupied ((l.capacity + 63) / 64) with
    | none =>
      intro i hi
      have := firstSet_eq_none hf (div_lt_words (hw i hi))
      rw [(ho i).mpr hi] at this
      cases this
    | some best =>
      obtain ⟨hb, hleast⟩ := firstSet_eq_some hf
      refine ⟨(ho best).mp hb, fun i hi => ?_⟩
      have := hleast i ((ho i).mpr hi)
      simp only [improves, decide_eq_false_iff_not]
      omega
  | bid =>
    rw [wordWithin_eq hwin]
    cases hf : lastSet l.occupied ((l.capacity + 63) / 64) with
    | none =>
      intro i hi
      have := lastSet_eq_none hf (div_lt_words (hw i hi))
      rw [(ho i).mpr hi] at this
      cases this
    | some best =>
      obtain ⟨hb, hla⟩ := lastSet_eq_some hf
      refine ⟨(ho best).mp hb, fun i hi => ?_⟩
      have := hla i (div_lt_words (hw i hi)) ((ho i).mpr hi)
      simp only [improves, decide_eq_false_iff_not]
      omega

structure Changed (l l' : Ladder) (index : Nat) (quantity : Int) : Prop where
  sound : Sound l'
  quantities : l'.quantities = update l.quantities index quantity
  frame : l' = { l with quantities := l'.quantities, occupied := l'.occupied, bestIndex := l'.bestIndex }

variable {quantities : Nat → Int} {best : Option Nat}

theorem IsFirst.delete (h : IsFirst side quantities best) (hne : best ≠ some index) :
    IsFirst side (update quantities index 0) best := by
  have hoth : ∀ i, 0 < update quantities index 0 i → 0 < quantities i := by
    intro i hi
    by_cases he : i = index
    · rw [he, update_self] at hi
      omega
    · rwa [update_of_ne he] at hi
  cases best with
  | none => exact fun i hi => h i (hoth i hi)
  | some best =>
    refine ⟨?_, fun i hi => h.2 i (hoth i hi)⟩
    rw [update_of_ne fun he => hne (by rw [he])]
    exact h.1

theorem improves_trans {i j k : Nat} (hij : improves side i j = false) (hjk : improves side k j) :
    improves side i k = false := by
  cases side <;> simp only [improves, decide_eq_false_iff_not, decide_eq_true_eq] at * <;> omega

theorem improves_self : improves side i i = false := by
  cases side <;> simp [improves]

theorem IsFirst.insert (h : IsFirst side quantities best) (hq : 0 < qty) :
    IsFirst side (update quantities index qty) (some (bestWith side index best)) := by
  have hsf : 0 < update quantities index qty index := by
    rw [update_self]
    exact hq
  cases best with
  | none =>
    refine ⟨hsf, fun i hi => ?_⟩
    by_cases he : i = index
    · rw [he]
      exact improves_self
    · rw [update_of_ne he] at hi
      exact absurd hi (h i)
  | some best =>
    rw [bestWith]
    split
    next himp =>
      refine ⟨hsf, fun i hi => ?_⟩
      by_cases he : i = index
      · rw [he]
        exact improves_self
      · rw [update_of_ne he] at hi
        exact improves_trans (h.2 i hi) himp
    next himp =>
      refine ⟨?_, fun i hi => ?_⟩
      · by_cases he : best = index
        · rw [he]
          exact hsf
        · rw [update_of_ne he]
          exact h.1
      · by_cases he : i = index
        · rw [he]
          simpa using himp
        · rw [update_of_ne he] at hi
          exact h.2 i hi

theorem put_changed (h : Sound l) (hi : index < l.capacity) (hq : 0 ≤ qty) :
    Changed l (l.put index qty) index qty := by
  have hnn : ∀ i, 0 ≤ update l.quantities index qty i := by
    intro i
    by_cases he : i = index
    · rw [he, update_self]
      exact hq
    · rw [update_of_ne he]
      exact h.nonneg i
  have hwin : ∀ i, 0 < update l.quantities index qty i → i < l.capacity := by
    intro i hpos
    by_cases he : i = index
    · rw [he]
      exact hi
    · rw [update_of_ne he] at hpos
      exact h.within i hpos
  unfold put
  split
  next hz =>
    subst hz
    have hset : ∀ i, isSet (clearBit l.occupied index) i ↔ 0 < update l.quantities index 0 i := by
      intro i
      rw [isSet_clearBit (by omega), Bool.and_eq_true, h.occupied]
      by_cases he : i = index
      · simp [he]
      · simp [he]
    dsimp only
    split
    next => exact ⟨⟨hnn, hset, hwin, recomputeBest_isFirst hset hwin⟩, rfl, rfl⟩
    next hne => exact ⟨⟨hnn, hset, hwin, h.best.delete hne⟩, rfl, rfl⟩
  next hz =>
    have hpos : 0 < qty := by omega
    refine ⟨⟨hnn, fun i => ?_, hwin, h.best.insert hpos⟩, rfl, rfl⟩
    rw [isSet_setBit (by omega), Bool.or_eq_true, h.occupied]
    by_cases he : i = index
    · simp [he, hpos]
    · simp [he]

end SelfQuant.Mds.Ladder

namespace SelfQuant.Mds

open Function

variable {l : Ladder} {m : Depth} {price qty : Int} {level : Level} {i : Nat}

namespace Ladder

def window (l : Ladder) : PriceWindow := ⟨l.windowBaseTicks, l.tickSize, l.capacity⟩

/-- The ladder shows the part of the side that is in its window, and the rest is behind it. -/
structure Holds (l : Ladder) (m : Depth) : Prop where
  sound : l.Sound
  tick : 0 < l.tickSize
  state : l.state = .building ∨ l.state = .live
  nonneg : ∀ price, 0 ≤ m price
  inside : ∀ i, i < l.capacity → l.quantities i = m (l.window.priceAt i)
  outside : ∀ price, 0 < m price → ¬l.window.Contains price → l.window.Behind l.side price

theorem Holds.isBest (h : l.Holds m) (hb : l.best = some level) : IsBest l.side m level := by
  obtain ⟨best, hbt, rfl⟩ := Option.map_eq_some_iff.mp hb
  have hfst := h.sound.best
  rw [hbt] at hfst
  have hlt := h.sound.within best hfst.1
  refine ⟨h.inside best hlt, hfst.1, fun price hpos => ?_⟩
  by_cases hc : l.window.Contains price
  · obtain ⟨i, hi, rfl⟩ := hc
    rw [← h.inside i hi] at hpos
    have himp := hfst.2 i hpos
    have hpx : (l.levelAt best).price = l.window.priceAt best := rfl
    cases hs : l.side with
    | bid | ask =>
      rw [hs] at himp
      simp only [improves, decide_eq_false_iff_not] at himp
      rw [Ahead, hpx, PriceWindow.priceAt_lt_iff h.tick]
      exact himp
  · exact (h.outside price hpos hc).not_ahead h.tick ⟨best, hlt, rfl⟩

theorem Holds.exists_best (h : l.Holds m) (hc : l.window.Contains price) (hpos : 0 < m price) :
    ∃ level, l.best = some level := by
  obtain ⟨i, hi, rfl⟩ := hc
  cases hb : l.bestIndex with
  | none =>
    have hfst := h.sound.best
    rw [hb] at hfst
    rw [← h.inside i hi] at hpos
    exact absurd hpos (hfst i)
  | some best => exact ⟨l.levelAt best, by rw [Ladder.best, hb]; rfl⟩

theorem best_contains (h : l.Sound) (hb : l.best = some level) : l.window.Contains level.price := by
  obtain ⟨best, hbt, rfl⟩ := Option.map_eq_some_iff.mp hb
  have hfst := h.best
  rw [hbt] at hfst
  exact ⟨best, h.within best hfst.1, rfl⟩

theorem update_nonneg (h : ∀ price, 0 ≤ m price) (hq : 0 ≤ qty) (p : Int) : 0 ≤ update m price qty p := by
  by_cases he : p = price
  · rw [he, update_self]
    exact hq
  · rw [update_of_ne he]
    exact h p

theorem Holds.put (h : l.Holds m) (hi : i < l.capacity) (hq : 0 ≤ qty) :
    (l.put i qty).Holds (update m (l.window.priceAt i) qty) ∧
      (l.put i qty).window = l.window ∧ (l.put i qty).side = l.side := by
  have hc := put_changed h.sound hi hq
  have hwin : (l.put i qty).window = l.window := by
    rw [hc.frame]
    rfl
  have hsi : (l.put i qty).side = l.side := by rw [hc.frame]
  have hcap : (l.put i qty).capacity = l.capacity := congrArg PriceWindow.capacity hwin
  refine ⟨⟨hc.sound, ?_, ?_, update_nonneg h.nonneg hq, fun j hj => ?_, fun price hpos hout => ?_⟩, hwin, hsi⟩
  · rw [hc.frame]
    exact h.tick
  · rw [hc.frame]
    exact h.state
  · rw [hwin, hc.quantities]
    rw [hcap] at hj
    by_cases he : j = i
    · rw [he, update_self, update_self]
    · rw [update_of_ne he, update_of_ne fun hp => he (PriceWindow.priceAt_inj h.tick hp)]
      exact h.inside j hj
  · rw [hwin] at hout ⊢
    rw [hsi]
    have hne : price ≠ l.window.priceAt i := by
      rintro rfl
      exact hout ⟨i, hi, rfl⟩
    rw [update_of_ne hne] at hpos
    exact h.outside price hpos hout

theorem Holds.skip (h : l.Holds m) (hq : 0 ≤ qty) (hout : ¬l.window.Contains price)
    (hb : 0 < qty → l.window.Behind l.side price) : l.Holds (update m price qty) := by
  refine ⟨h.sound, h.tick, h.state, update_nonneg h.nonneg hq, fun i hi => ?_, fun p hpos hp => ?_⟩
  · rw [update_of_ne fun he => hout ⟨i, hi, he.symm⟩]
    exact h.inside i hi
  · by_cases he : p = price
    · rw [he, update_self] at hpos
      rw [he]
      exact hb hpos
    · rw [update_of_ne he] at hpos
      exact h.outside p hpos hp

theorem reset_holds (base : Int) {tick : Int} (gen : Nat) (ht : 0 < tick) :
    (l.reset base tick gen).Holds (fun _ => 0) := by
  refine ⟨reset_sound base tick gen, ht, .inl ?_, fun _ => le_rfl, fun i _ => rfl, fun price hpos => ?_⟩
  · simp [reset, ht]
  · simp at hpos

theorem apply_ok (ht : 0 < l.tickSize) (hs : l.state = .building ∨ l.state = .live)
    (hp : 0 ≤ l.window.priceAt i) (hi : i < l.capacity) (hq : 0 ≤ qty) :
    l.apply (l.window.priceAt i) qty = (.ok, l.put i qty) := by
  have hst : l.state ≠ .needsRestart ∧ l.state ≠ .invalid := by
    obtain h | h := hs <;> rw [h] <;> decide
  have hmod : l.window.priceAt i % l.tickSize = 0 := Int.mul_emod_left _ _
  have hdiv : l.window.priceAt i / l.tickSize = l.windowBaseTicks + i := Int.mul_ediv_cancel _ (ne_of_gt ht)
  have hval : ¬(l.state = .invalid ∨ l.tickSize ≤ 0 ∨ l.window.priceAt i < 0 ∨ qty < 0 ∨
      l.window.priceAt i % l.tickSize ≠ 0) := by
    rintro (h | h | h | h | h)
    · exact hst.2 h
    · omega
    · omega
    · omega
    · exact h hmod
  unfold apply
  rw [if_neg hst.1, if_neg hval]
  rw [hdiv, if_neg (by omega), show (l.windowBaseTicks + (i : Int) - l.windowBaseTicks).toNat = i by omega]

end Ladder

end SelfQuant.Mds
