import SelfQuant.StepAlong
import SelfQuant.TraderTwapBase

namespace SelfQuant.Trader

open List TwapState TwapChild Bool TwapPlan

namespace TwapState

def activeTerminal (s : TwapState) : Bool := (s.job.activeOrderID.bind s.find).all (·.terminal)

section Refusal

variable {world : TwapWorld} {s : TwapState} {job : TwapJob} {child : TwapChild} {key : TwapKey}

theorem activeTerminal_of_find (hpts : s.job.activeOrderID = some key) (hfd : s.find key = some child)
    (htm : child.terminal = true) : s.activeTerminal = true := by
  unfold activeTerminal
  rw [hpts, Option.bind_some, hfd]
  exact htm

end Refusal

/-- No child is filled for more than its quantity, nor any more once it has ended. -/
def VenueHonest (s next : TwapState) : Prop :=
  ∀ child ∈ s.children, ∀ after ∈ next.children, after.key = child.key →
    after.order.filledQuantity ≤ after.order.quantity ∧
      (child.terminal = true → after.order.filledQuantity = child.order.filledQuantity)

instance (s next : TwapState) : Decidable (VenueHonest s next) :=
  inferInstanceAs (Decidable (∀ child ∈ s.children, ∀ after ∈ next.children, after.key = child.key →
    after.order.filledQuantity ≤ after.order.quantity ∧
      (child.terminal = true → after.order.filledQuantity = child.order.filledQuantity)))

variable (plan : TwapPlan)

def Ended (s : TwapState) : Prop := ∀ child ∈ s.children, child.terminal = true

def Newest (s : TwapState) (key : TwapKey) : Prop := s.children.head?.map (·.key) = some key

/-- What a stage holds is within what is left of the total. -/
def Funded (s : TwapState) : TwapStage → Prop
  | .refreshed job | .sizing job => s.job.activeOrderID = none → job.filledQuantity = min plan.totalQuantity s.filled
  | .intending job request =>
    0 < request.quantity ∧ (s.find job.key = none → s.filled + request.quantity ≤ plan.totalQuantity)
  | .scheduling slice attempt activeOrderID =>
    activeOrderID = none → s.Ended ∧
      (s.job.activeOrderID = none ∧ (slice, attempt) = s.job.key ∨ attempt = 0 ∨ s.Newest (slice, attempt - 1))
  | .retrying job | .closing job _ => s.job.status.active = true → job.activeOrderID = none → s.Ended
  | _ => True

structure Budget (plan : TwapPlan) (s : TwapState) : Prop where
  bounded : ∀ child ∈ s.children, child.order.filledQuantity ≤ child.order.quantity
  older : ∀ child ∈ s.children.tail, child.terminal = true
  live : s.job.status.active = true → ∀ child ∈ s.children, child.terminal = false →
    s.job.activeOrderID = some child.key
  newest : ∀ child ∈ s.children, child.key = s.job.key → s.children.head? = some child
  budget : ∀ child rest, s.children = child :: rest →
    (rest.map (·.order.filledQuantity)).sum + child.order.quantity ≤ plan.totalQuantity
  linked : s.job.activeOrderID = none → 0 < s.job.currentAttempt → s.find s.job.key = none →
    s.Newest (s.job.currentSlice, s.job.currentAttempt - 1)
  funded : s.Funded plan s.stage

section Rows

variable {plan : TwapPlan} {s next : TwapState} {stage : TwapStage} {atEnd : Bool}

section

variable (h : s.Budget plan)

include h

theorem Budget.congr (hchs : next.children = s.children)
    (hstt : next.job.status = s.job.status) (hkey : next.job.key = s.job.key)
    (hact : next.job.activeOrderID = s.job.activeOrderID) (hfnd : next.Funded plan next.stage) :
    next.Budget plan := by
  obtain ⟨hslc, hatt⟩ := Prod.mk.inj hkey
  refine ⟨?_, ?_, ?_, ?_, ?_, ?_, hfnd⟩
  · rw [hchs]
    exact h.bounded
  · rw [hchs]
    exact h.older
  · rw [hchs, hstt, hact]
    exact h.live
  · rw [hchs, hkey]
    exact h.newest
  · rw [hchs]
    exact h.budget
  · unfold find Newest
    rw [hchs, hkey, hact, hslc, hatt]
    exact h.linked

theorem Budget.moveTo (hfnd : s.Funded plan stage) : (s.moveTo stage).Budget plan := h.congr rfl rfl rfl rfl hfnd

theorem Budget.ended (hact : s.job.status.active = true) (hno : s.job.activeOrderID = none) : s.Ended := by
  intro child hch
  by_contra hlv
  have hpts := h.live hact child hch (eq_false_iff.mpr hlv)
  rw [hno] at hpts
  cases hpts

theorem Budget.ended_of_activeTerminal (hdist : (s.children.map (·.key)).Nodup)
    (hact : s.job.status.active = true) (htm : s.activeTerminal = true) : s.Ended := by
  intro child hch
  by_contra hlv
  have hpts := h.live hact child hch (eq_false_iff.mpr hlv)
  unfold activeTerminal at htm
  rw [hpts, Option.bind_some, find_of_mem hdist hch] at htm
  exact hlv htm

end

section Updates

variable {f : TwapChild → TwapChild} {key : TwapKey}

theorem filled_map (hend : s.Ended) (hhon : ∀ child ∈ s.children, child.terminal = true →
      (f child).order.filledQuantity = child.order.filledQuantity) :
    (s.mapChildren f).filled = s.filled := by
  unfold filled mapChildren
  rw [map_map]
  exact congrArg sum (map_congr_left fun child hch => hhon child hch (hend child hch))

theorem newest_map (hkey : ∀ child, (f child).key = child.key) : (s.mapChildren f).Newest key ↔ s.Newest key := by
  unfold Newest mapChildren
  rw [head?_map, Option.map_map]
  simp only [Function.comp_def, hkey]

theorem Ended.map (h : s.Ended) (htm : ∀ child, child.terminal = true → (f child).terminal = true) :
    (s.mapChildren f).Ended := by
  intro child hch
  obtain ⟨old, hold, rfl⟩ := mem_map.mp hch
  exact htm old (h old hold)

theorem Budget.map (h : s.Budget plan) (hkey : ∀ child, (f child).key = child.key)
    (hqty : ∀ child, (f child).order.quantity = child.order.quantity)
    (htm : ∀ child, child.terminal = true → (f child).terminal = true)
    (hhon : ∀ child ∈ s.children, (f child).order.filledQuantity ≤ (f child).order.quantity ∧
      (child.terminal = true → (f child).order.filledQuantity = child.order.filledQuantity))
    (hfnd : (s.mapChildren f).Funded plan stage) :
    ((s.mapChildren f).moveTo stage).Budget plan where
  bounded child hch := by
    obtain ⟨old, hold, rfl⟩ := mem_map.mp hch
    exact (hhon old hold).1
  older child hch := by
    change child ∈ (s.children.map f).tail at hch
    rw [← map_tail] at hch
    obtain ⟨old, hold, rfl⟩ := mem_map.mp hch
    exact htm old (h.older old hold)
  live hact child hch hlv := by
    obtain ⟨old, hold, rfl⟩ := mem_map.mp hch
    rw [hkey]
    refine h.live hact old hold (eq_false_iff.mpr fun hend => ?_)
    rw [htm old hend] at hlv
    cases hlv
  newest child hch hsm := by
    obtain ⟨old, hold, rfl⟩ := mem_map.mp hch
    change (s.children.map f).head? = _
    rw [head?_map, h.newest old hold (by rwa [← hkey old])]
    rfl
  budget child rest hchs := by
    obtain ⟨old, olds, holds, rfl, rfl⟩ := map_eq_cons_iff.mp hchs
    rw [hqty, map_map]
    have hsm : olds.map ((·.order.filledQuantity) ∘ f) = olds.map (·.order.filledQuantity) := by
      refine map_congr_left fun other hoth => ?_
      have hmem : other ∈ s.children := holds ▸ mem_cons_of_mem old hoth
      exact (hhon other hmem).2 (h.older other (by rw [holds]; exact hoth))
    rw [hsm]
    exact h.budget old olds holds
  linked hno hatt hfd := by
    have hfound : (s.find s.job.key).map f = none := (find_map hkey).symm.trans hfd
    exact (newest_map hkey).mpr (h.linked hno hatt (Option.map_eq_none_iff.mp hfound))
  funded := hfnd

theorem Budget.funded_map (h : s.Budget plan) (hba : s.Base) (hkey : ∀ child, (f child).key = child.key)
    (htm : ∀ child, child.terminal = true → (f child).terminal = true)
    (hhon : ∀ child ∈ s.children, child.terminal = true →
      (f child).order.filledQuantity = child.order.filledQuantity) :
    (s.mapChildren f).Funded plan s.stage := by
  have hft := hba.fits
  have hfnd := h.funded
  revert hft hfnd
  cases s.stage with
  | refreshed job =>
    intro hft hfnd hno
    rw [filled_map (h.ended hft.worked hno) hhon]
    exact hfnd hno
  | sizing job =>
    intro hft hfnd hno
    rw [filled_map (h.ended hft.1.worked hno) hhon]
    exact hfnd hno
  | intending job request =>
    rintro ⟨hcur, hno⟩ ⟨hpos, hfnd⟩
    refine ⟨hpos, fun hfd => ?_⟩
    rw [filled_map (h.ended hcur.worked hno) hhon]
    rw [find_map hkey] at hfd
    exact hfnd (Option.map_eq_none_iff.mp hfd)
  | scheduling slice attempt activeOrderID =>
    intro _ hfnd hno
    obtain ⟨hend, hlk⟩ := hfnd hno
    exact ⟨hend.map htm, hlk.imp_right (Or.imp_right (newest_map hkey).mpr)⟩
  | retrying | closing => exact fun _ hfnd hact hno => (hfnd hact hno).map htm
  | _ => exact fun _ _ => trivial

theorem Budget.received {update : OrderUpdate} (h : s.Budget plan) (hba : s.Base)
    (hhon : s.VenueHonest (s.received key update)) : (s.received key update).Budget plan := by
  have hchs : ∀ child ∈ s.children,
      (child.receive key update).order.filledQuantity ≤ (child.receive key update).order.quantity ∧
        (child.terminal = true → (child.receive key update).order.filledQuantity = child.order.filledQuantity) :=
    fun child hch => hhon child hch _ (mem_map_of_mem hch) receive_key
  exact h.map (fun _ => receive_key) (fun _ => receive_quantity)
    (fun _ => receive_terminal) hchs
    (h.funded_map hba (fun _ => receive_key) (fun _ => receive_terminal) fun child hch => (hchs child hch).2)

end Updates

section Writes

variable {answer : Answer} {status : TwapStatus} {slice attempt : ℕ} {activeOrderID : Option TwapKey} {job : TwapJob}
  {request : TwapRequest} {world : TwapWorld} {key : TwapKey}

def Later (s : TwapState) (slice attempt : ℕ) : Prop :=
  s.job.currentSlice < slice ∨ s.job.currentSlice = slice ∧ s.job.currentAttempt < attempt

theorem Base.ne_of_later (hba : s.Base) (hlat : s.Later slice attempt) :
    ∀ child ∈ s.children, child.key ≠ (slice, attempt) := by
  intro child hch hkey
  have hupTo := hba.upTo child hch
  unfold TwapKey.upTo TwapJob.key at hupTo
  unfold Later at hlat
  rw [hkey] at hupTo
  omega

theorem Base.points_none (hba : s.Base) (hfd : s.find s.job.key = none) : s.job.activeOrderID = none := by
  cases hpts : s.job.activeOrderID with
  | none => rfl
  | some active =>
    obtain ⟨hact, child, hch⟩ := hba.pointed active hpts
    rw [← hact, hch] at hfd
    cases hfd

section

variable (h : s.Budget plan)

include h

theorem Budget.updateTwapSchedule (hba : s.Base)
    (hsch : activeOrderID = s.job.activeOrderID ∧ (slice, attempt) = s.job.key ∨
      activeOrderID = none ∧ s.Ended ∧ ((slice, attempt) = s.job.key ∨
        s.Later slice attempt ∧ (attempt = 0 ∨ s.Newest (slice, attempt - 1)))) :
    ((s.updateTwapSchedule answer status slice attempt activeOrderID).moveTo .idle).Budget plan := by
  unfold TwapState.updateTwapSchedule
  split
  next hwrs =>
    refine ⟨h.bounded, h.older, fun _ child hch hlv => ?_, fun child hch hkey => ?_, h.budget,
      fun hno hatt hfd => ?_, trivial⟩
    · rcases hsch with ⟨hsm, -⟩ | ⟨-, hend, -⟩
      · rw [hsm]
        exact h.live hwrs.2 child hch hlv
      · rw [hend child hch] at hlv
        cases hlv
    · rcases hsch with ⟨-, hrow⟩ | ⟨-, -, hrow | ⟨hlat, -⟩⟩
      · exact h.newest child hch (hkey.trans hrow)
      · exact h.newest child hch (hkey.trans hrow)
      · exact absurd hkey (hba.ne_of_later hlat child hch)
    · change 0 < attempt at hatt
      have hkt : (slice, attempt) = s.job.key → s.Newest (slice, attempt - 1) := by
        intro hrow
        obtain ⟨rfl, rfl⟩ := Prod.mk.inj hrow
        exact h.linked (hba.points_none hfd) hatt hfd
      rcases hsch with ⟨-, hrow⟩ | ⟨-, -, hrow | ⟨-, hze | hnst⟩⟩
      · exact hkt hrow
      · exact hkt hrow
      · omega
      · exact hnst
  next => exact h.moveTo trivial

theorem Budget.closeTwap (hba : s.Base) (hcld : status.active = false)
    (hend : s.job.status.active = true → job.activeOrderID = none → s.Ended) :
    ((s.closeTwap answer status).moveTo (if answer = .ok then .idle else .retrying job)).Budget plan := by
  unfold TwapState.closeTwap
  split
  next =>
    refine ⟨h.bounded, h.older, fun hact => absurd (hcld.symm.trans hact) false_ne_true, h.newest,
      h.budget, fun _ hatt hfd => ?_, ?_⟩
    · exact h.linked (hba.points_none hfd) hatt hfd
    · split
      next => trivial
      next => exact fun hact => absurd (hcld.symm.trans hact) false_ne_true
  next =>
    refine h.moveTo ?_
    split
    next => trivial
    next => exact hend

theorem Budget.newChild (hend : s.Ended) (hkey : job.key = s.job.key)
    (hfr : s.find job.key = none) (hpos : 0 < request.quantity)
    (hpaid : s.filled + request.quantity ≤ plan.totalQuantity) :
    Budget plan { s with
      job := { s.job with activeOrderID := some job.key }
      children := newChild world job.key request :: s.children, stage := .placing job job.key } where
  bounded := forall_mem_cons.mpr ⟨hpos.le, h.bounded⟩
  older := hend
  live _ := by
    refine forall_mem_cons.mpr ⟨fun _ => rfl, fun child hch hlv => ?_⟩
    rw [hend child hch] at hlv
    cases hlv
  newest := by
    refine forall_mem_cons.mpr ⟨fun _ => rfl, fun child hch hsm => ?_⟩
    exact absurd (hsm.trans hkey.symm) (not_mem_of_find_none hfr child hch)
  budget child rest hchs := by
    obtain ⟨rfl, rfl⟩ := cons.inj hchs
    exact hpaid
  linked hno := by cases hno
  funded := trivial

section

variable (hcur : s.job.Current job)

include hcur

theorem Budget.createTwapIntent
    (hno : s.job.activeOrderID = none) (hanswer : world.answer ≠ .applied) (hpos : 0 < request.quantity)
    (hpaid : s.find job.key = none → s.filled + request.quantity ≤ plan.totalQuantity) :
    (s.createTwapIntent world job request).Budget plan := by
  have hend : s.Ended := h.ended hcur.worked hno
  unfold TwapState.createTwapIntent
  split
  next => exact h.moveTo fun _ _ => hend
  next hlost =>
  have hok : world.answer = .ok := by
    cases hans : world.answer with
    | ok => rfl
    | lost => exact absurd hans hlost
    | applied => exact absurd hans hanswer
  split
  next => exact h.moveTo trivial
  split
  next child hch =>
    split
    next => exact h.moveTo fun _ _ => hend
    refine ⟨h.bounded, h.older, fun _ other hoth hlv => ?_, h.newest, h.budget, fun hpts => ?_, trivial⟩
    · rw [hend other hoth] at hlv
      cases hlv
    · cases hpts
  next hfr => exact h.newChild hend hcur.key hfr hpos (hpaid hfr)

theorem Budget.funded_movesOn {child : TwapChild} (hba : s.Base) (hpts : s.job.activeOrderID = some key)
    (hfd : s.find key = some child) (htm : child.terminal = true) (hmvs : MovesOn job child stage) :
    s.Funded plan stage := by
  have hend := h.ended_of_activeTerminal hba.distinct hcur.worked (activeTerminal_of_find hpts hfd htm)
  have hkey : child.key = s.job.key := (find_key hfd).trans (hba.pointed key hpts).1
  obtain ⟨hslc, hatt⟩ := Prod.mk.inj hcur.key
  cases hmvs with
  | retry => exact fun _ _ => hend
  | slice => exact fun _ => ⟨hend, .inr (.inl rfl)⟩
  | attempt =>
    refine fun _ => ⟨hend, .inr (.inr ?_)⟩
    have hatts : child.key.2 = job.currentAttempt := by
      rw [hkey, hatt]
      rfl
    unfold Newest
    rw [h.newest child (find_mem hfd) hkey, hatts, max_self, Option.map_some, hkey, ← hcur.key]
    rfl

theorem Budget.funded_retrying : s.Funded plan (.retrying job) := fun hact hno => h.ended hact (hcur.same ▸ hno)

theorem Budget.funded_notCanceled (atEnd : Bool) : s.Funded plan (notCanceled job atEnd) := by
  cases atEnd with
  | true => trivial
  | false => exact h.funded_retrying hcur

end

theorem Budget.funded_canceled {child : TwapChild} (hba : s.Base)
    (hcur : s.job.Current job) (hpts : s.job.activeOrderID = some key) (hfd : s.find key = some child)
    (htm : child.terminal = true) : s.Funded plan (plan.canceled world job child atEnd) := by
  cases atEnd with
  | true => trivial
  | false => exact h.funded_movesOn hcur hba hpts hfd htm canceled_movesOn

theorem Budget.cancelActive (hba : s.Base) (hcur : s.job.Current job) (hpts : s.job.activeOrderID = some key)
    (hhon : s.VenueHonest (s.cancelActive plan world job key atEnd)) :
    (s.cancelActive plan world job key atEnd).Budget plan := by
  revert hhon
  unfold TwapState.cancelActive
  split
  next child result _ _ =>
    dsimp only
    split
    next => exact fun _ => h.moveTo (h.funded_notCanceled hcur atEnd)
    have hrecv : ∀ {stage : TwapStage},
        s.VenueHonest ((s.received key (world.update (cancellation result))).moveTo stage) →
        (s.received key (world.update (cancellation result))).Budget plan := fun hhon =>
      h.received hba hhon
    have hcur' : (s.received key (world.update (cancellation result))).job.Current job := hcur
    split
    next updated hupd =>
      split
      next hdone =>
        intro hhon
        have hnx := hrecv hhon
        exact hnx.moveTo (hnx.funded_canceled hba.received hcur' hpts hupd hdone.2)
      next =>
        intro hhon
        have hnx := hrecv hhon
        exact hnx.moveTo (hnx.funded_notCanceled hcur' atEnd)
    next =>
      intro hhon
      have hnx := hrecv hhon
      exact hnx.moveTo (hnx.funded_notCanceled hcur' atEnd)
  next => exact fun _ => h.moveTo (h.funded_notCanceled hcur atEnd)

theorem Budget.submitChild (hba : s.Base) (hstg : s.stage = .placing job key)
    (hhon : s.VenueHonest (s.submitChild world job key))
    (hclos : ∀ closed status, (s.submitChild world job key).stage = .closing closed status →
      (s.submitChild world job key).activeTerminal = true) : (s.submitChild world job key).Budget plan := by
  have hft := hba.fits
  rw [hstg] at hft
  have hnx : (s.submitChild world job key).Base := hba.submitChild world hft.1 hft.2.1 hft.2.2
  revert hhon hclos hnx
  unfold TwapState.submitChild
  split
  next => exact fun _ _ _ => h.moveTo trivial
  next child _ =>
  intro hhon hclos hnx
  have hrecv : (s.received key (world.update (world.placement.result child.order))).Budget plan := by
    refine h.received hba fun old hold after haft hkey => ?_
    have hsent := hhon old hold (after.submitted key) (mem_map_of_mem haft) (by simpa using hkey)
    simpa using hsent
  have hsent : (((s.received key (world.update (world.placement.result child.order))).mapChildren
      (submitted key)).moveTo .idle).Budget plan :=
    hrecv.map (fun _ => submitted_key) (fun _ => by simp) (fun _ => by simp [terminal])
      (fun other hoth => ⟨by simpa using hrecv.bounded other hoth, fun _ => by simp⟩) trivial
  refine hsent.moveTo ?_
  split
  next hfails =>
    intro hact _
    have htm := hclos job .failed (if_pos hfails)
    exact hsent.ended_of_activeTerminal hnx.distinct hact htm
  next => trivial

end

end Writes

end Rows

end TwapState

end SelfQuant.Trader
