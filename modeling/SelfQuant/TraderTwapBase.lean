import SelfQuant.TraderTwapRun

namespace SelfQuant.Trader

open TwapChild TwapPlan Option

def NumberText.readable (text : NumberText) : Bool := text ≠ .garbled ∧ 0 ≤ text.value

/-- The answer is stored and tells that the order has ended, and nothing newer has been told about it. -/
def TwapWorld.ends (world : TwapWorld) (child : TwapChild) (result : VenueResult) : Bool :=
  world.answer.writes && !result.localCommandAck && isFresh child.store.current.lastVenueEventAt world.eventAt &&
    result.filledQuantity.readable && result.averagePrice.readable &&
    match result.status with
    | .status status => status.terminal
    | .blank | .garbled => false

namespace TwapChild

variable {key : TwapKey} {update : OrderUpdate} {child : TwapChild}

section Merge

variable {result : VenueResult} {old filled quantity : Decimal} {text : NumberText}
  {now status : OrderStatus}

end Merge

@[simp]
theorem receive_key : (child.receive key update).key = child.key := by
  unfold receive
  split <;> rfl

@[simp]
theorem receive_submissions : (child.receive key update).submissions = child.submissions := by
  unfold receive
  split <;> rfl

@[simp]
theorem receive_quantity : (child.receive key update).order.quantity = child.order.quantity := by
  unfold receive
  split
  · exact child.store.applyOrderUpdate_keeps.1
  · rfl

theorem receive_terminal (h : child.terminal = true) : (child.receive key update).terminal = true := by
  unfold receive
  split
  · exact child.store.applyOrderUpdate_keeps.2 h
  · exact h

@[simp]
theorem submitted_key : (child.submitted key).key = child.key := by
  unfold submitted
  split <;> rfl

@[simp]
theorem submitted_order : (child.submitted key).order = child.order := by
  unfold submitted
  split <;> rfl

end TwapChild

namespace TwapPlan

variable {plan : TwapPlan} {world : TwapWorld} {job : TwapJob} {child : TwapChild} {children : List TwapChild}

inductive MovesOn (job : TwapJob) (child : TwapChild) : TwapStage → Prop
  | retry : MovesOn job child (.retrying job)
  | slice : MovesOn job child (.scheduling (job.currentSlice + 1) 0 none)
  | attempt : MovesOn job child (.scheduling job.currentSlice (max job.currentAttempt child.key.2 + 1) none)

theorem scheduleMakerRetry_movesOn : MovesOn job child (plan.scheduleMakerRetry world job child) := by
  unfold scheduleMakerRetry
  split
  next => exact .retry
  split
  next => exact .slice
  next => exact .attempt

theorem canceled_movesOn : MovesOn job child (plan.canceled world job child false) := by
  unfold canceled
  rw [if_neg Bool.false_ne_true]
  split
  next => exact scheduleMakerRetry_movesOn
  next => exact .slice

inductive Handled (job : TwapJob) (child : TwapChild) : TwapStage → Prop
  | ended {stage : TwapStage} (h : child.terminal = true) (hmoves : MovesOn job child stage) : Handled job child stage
  | cancel : Handled job child (.cancelReading job false)
  | wait : Handled job child (.scheduling job.currentSlice job.currentAttempt job.activeOrderID)

end TwapPlan

open List

/-- An earlier slice, or the same slice and no later attempt. -/
def TwapKey.upTo (key last : TwapKey) : Prop := key.1 < last.1 ∨ key.1 = last.1 ∧ key.2 ≤ last.2

namespace TwapJob

/-- A copy of the row, perhaps from before the job was pointed to a child. -/
structure Snapshot (row job : TwapJob) : Prop where
  active : job.status.active = true
  key : job.key = row.key
  points : job.activeOrderID = none ∨ job.activeOrderID = row.activeOrderID

structure Current (row job : TwapJob) : Prop where
  worked : row.status.active = true
  active : job.status.active = true
  key : job.key = row.key
  same : job.activeOrderID = row.activeOrderID

theorem Current.snapshot {row job : TwapJob} (h : row.Current job) : row.Snapshot job :=
  ⟨h.active, h.key, .inr h.same⟩

end TwapJob

namespace TwapState

/-- What a stage of `advance` holds fits the row and the children. -/
def Fits (s : TwapState) : TwapStage → Prop
  | .idle => True
  | .leased job | .refreshed job | .reading job | .cancelReading job _ => s.job.Current job
  | .cancelCalling job key _ => s.job.Current job ∧ s.job.activeOrderID = some key
  | .refreshing => s.job.status.active = true
  | .sizing job | .intending job _ => s.job.Current job ∧ s.job.activeOrderID = none
  | .placing job key =>
    s.job.Snapshot job ∧ s.job.activeOrderID = some key ∧ ∀ child ∈ s.children, child.key = key → child.submissions = 0
  | .recording job key => s.job.Snapshot job ∧ s.job.activeOrderID = some key
  | .scheduling slice attempt activeOrderID =>
    (activeOrderID = s.job.activeOrderID ∧ (slice, attempt) = s.job.key) ∨
      (activeOrderID = none ∧ (s.job.currentSlice < slice ∨ s.job.currentSlice = slice ∧ s.job.currentAttempt < attempt))
  | .retrying job => s.job.status.active = true → s.job.Snapshot job
  | .closing job status => s.job.Snapshot job ∧ status.active = false

/-- What holds of every run, whatever fails. -/
structure Base (s : TwapState) : Prop where
  distinct : (s.children.map (·.key)).Nodup
  once : ∀ child ∈ s.children, child.submissions ≤ 1
  upTo : ∀ child ∈ s.children, child.key.upTo s.job.key
  pointed : ∀ key, s.job.activeOrderID = some key → key = s.job.key ∧ ∃ child, s.find key = some child
  fits : s.Fits s.stage

section Rows

variable {s : TwapState} {key : TwapKey} {update : OrderUpdate} {child : TwapChild} {stage : TwapStage}

theorem find_key (h : s.find key = some child) : child.key = key := by simpa using find?_some h

theorem find_mem (h : s.find key = some child) : child ∈ s.children := mem_of_find?_eq_some h

theorem not_mem_of_find_none (h : s.find key = none) : ∀ child ∈ s.children, child.key ≠ key := by
  simpa using find?_eq_none.mp h

theorem find_of_mem (hdist : (s.children.map (·.key)).Nodup) (hmem : child ∈ s.children) :
    s.find child.key = some child := by
  cases hfd : s.find child.key with
  | none => exact absurd rfl (not_mem_of_find_none hfd child hmem)
  | some other => exact congrArg some (inj_on_of_nodup_map hdist (find_mem hfd) hmem (find_key hfd))

theorem find_map {f : TwapChild → TwapChild} (hf : ∀ child, (f child).key = child.key) :
    (s.mapChildren f).find key = (s.find key).map f := by
  unfold find mapChildren
  rw [find?_map]
  congr 2
  funext child
  simp only [Function.comp_apply, hf]

theorem find_received {other : TwapKey} :
    (s.received key update).find other = (s.find other).map (receive key update) :=
  find_map fun _ => receive_key

theorem Base.congr {next : TwapState} (h : s.Base) (hchs : next.children = s.children)
    (hkey : next.job.key = s.job.key) (hact : next.job.activeOrderID = s.job.activeOrderID)
    (hft : next.Fits next.stage) : next.Base where
  distinct := hchs ▸ h.distinct
  once := hchs ▸ h.once
  upTo := by
    rw [hchs, hkey]
    exact h.upTo
  pointed := by
    unfold find
    rw [hchs, hkey, hact]
    exact h.pointed
  fits := hft

theorem Base.moveTo (h : s.Base) (hft : s.Fits stage) : (s.moveTo stage).Base := h.congr rfl rfl rfl hft

theorem Base.received (h : s.Base) : (s.received key update).Base where
  distinct := by
    have hks : (s.children.map (receive key update)).map (·.key) = s.children.map (·.key) := by
      simp
    exact hks ▸ h.distinct
  once child hch := by
    obtain ⟨old, hold, rfl⟩ := mem_map.mp hch
    rw [receive_submissions]
    exact h.once old hold
  upTo child hch := by
    obtain ⟨old, hold, rfl⟩ := mem_map.mp hch
    rw [receive_key]
    exact h.upTo old hold
  pointed other hoth := by
    obtain ⟨hkey, child, hfd⟩ := h.pointed other hoth
    exact ⟨hkey, child.receive key update, by rw [find_received, hfd]; rfl⟩
  fits := by
    have hft := h.fits
    change (s.received key update).Fits s.stage
    revert hft
    cases s.stage with
    | placing job key =>
      rintro ⟨hsna, hact, hfr⟩
      refine ⟨hsna, hact, fun child hch => ?_⟩
      obtain ⟨old, hold, rfl⟩ := mem_map.mp hch
      simpa using hfr old hold
    | _ => exact id

variable {job : TwapJob} {activeOrderID : Option TwapKey} {status : TwapStatus} {world : TwapWorld}
  {answer : Answer} {request : TwapRequest} {attempt slice : ℕ}

theorem Base.updateTwapSchedule (h : s.Base)
    (hsch : (activeOrderID = none ∨ activeOrderID = s.job.activeOrderID) ∧ (slice, attempt) = s.job.key ∨
      activeOrderID = none ∧
        (s.job.currentSlice < slice ∨ s.job.currentSlice = slice ∧ s.job.currentAttempt < attempt)) :
    ((s.updateTwapSchedule answer status slice attempt activeOrderID).moveTo .idle).Base := by
  unfold TwapState.updateTwapSchedule
  split
  next =>
    have hpointed : ∀ key, activeOrderID = some key → key = (slice, attempt) ∧ ∃ child, s.find key = some child := by
      rintro key rfl
      rcases hsch with ⟨hno | hsm, hkey⟩ | ⟨hno, -⟩
      · cases hno
      · rw [hkey]
        exact h.pointed key hsm.symm
      · cases hno
    refine ⟨h.distinct, h.once, fun child hch => ?_, hpointed, trivial⟩
    have hupTo := h.upTo child hch
    change child.key.1 < slice ∨ child.key.1 = slice ∧ child.key.2 ≤ attempt
    unfold TwapKey.upTo TwapJob.key at hupTo
    rcases hsch with ⟨-, hkey⟩ | ⟨-, hlat⟩
    · obtain ⟨rfl, rfl⟩ := Prod.mk.inj hkey
      exact hupTo
    · omega
  next => exact h.moveTo trivial

theorem Base.closeTwap (h : s.Base) (hsna : s.job.Snapshot job) (hcld : status.active = false) :
    ((s.closeTwap answer status).moveTo (if answer = .ok then .idle else .retrying job)).Base := by
  unfold TwapState.closeTwap
  split
  next =>
    refine ⟨h.distinct, h.once, h.upTo, fun key hkey => absurd hkey (some_ne_none key).symm, ?_⟩
    split
    next => trivial
    next => exact fun hact => absurd (hcld.symm.trans hact) Bool.false_ne_true
  next =>
    refine h.moveTo ?_
    split
    next => trivial
    next => exact fun _ => hsna

section Progress

variable {plan : TwapPlan} {answer : Answer}

@[simp]
theorem progressed_status : (s.progressed plan answer).job.status = s.job.status := by
  unfold progressed
  split <;> rfl

@[simp]
theorem progressed_key : (s.progressed plan answer).job.key = s.job.key := by
  unfold progressed
  split <;> rfl

@[simp]
theorem progressed_activeOrderID : (s.progressed plan answer).job.activeOrderID = s.job.activeOrderID := by
  unfold progressed
  split <;> rfl

@[simp]
theorem progressed_children : (s.progressed plan answer).children = s.children := by
  unfold progressed
  split <;> rfl

theorem Base.progressed (h : s.Base) (hft : (s.progressed plan answer).Fits stage) :
    ((s.progressed plan answer).moveTo stage).Base :=
  h.congr progressed_children progressed_key progressed_activeOrderID hft

end Progress

theorem Base.newChild (h : s.Base) (hkey : job.key = s.job.key) (hfr : s.find job.key = none)
    (hft : TwapState.Fits { s with
      job := { s.job with activeOrderID := some job.key }
      children := newChild world job.key request :: s.children } stage) :
    Base { s with
      job := { s.job with activeOrderID := some job.key }
      children := newChild world job.key request :: s.children
      stage } where
  distinct := by
    refine nodup_cons.mpr ⟨fun hmem => ?_, h.distinct⟩
    obtain ⟨child, hch, hsm⟩ := mem_map.mp hmem
    exact not_mem_of_find_none hfr child hch hsm
  once := forall_mem_cons.mpr ⟨Nat.zero_le 1, h.once⟩
  upTo := by
    refine forall_mem_cons.mpr ⟨?_, h.upTo⟩
    rw [hkey]
    exact .inr ⟨rfl, le_rfl⟩
  pointed key hpts := by
    cases hpts
    exact ⟨hkey, TwapState.newChild world job.key request, find?_cons_of_pos (decide_eq_true rfl)⟩
  fits := hft

theorem Base.createTwapIntent (h : s.Base) (hcur : s.job.Current job) (hno : s.job.activeOrderID = none) :
    (s.createTwapIntent world job request).Base := by
  have hsna : ∀ {row : TwapJob}, row.key = s.job.key → row.Snapshot job := fun hrow =>
    ⟨hcur.active, hcur.key.trans hrow.symm, .inl (hcur.same.trans hno)⟩
  have hretry : (s.moveTo (.retrying job)).Base := h.moveTo fun _ => hsna rfl
  unfold TwapState.createTwapIntent
  split
  next => exact hretry
  split
  next => exact h.moveTo trivial
  split
  next child hch =>
    split
    next => exact hretry
    refine ⟨h.distinct, h.once, h.upTo, fun key hpts => ?_, ?_⟩
    · cases hpts
      exact ⟨hcur.key, child, hch⟩
    · split
      next => exact ⟨hsna rfl, rfl⟩
      next => exact fun _ => hsna rfl
  next hfr =>
    refine h.newChild hcur.key hfr ?_
    split
    next =>
      refine ⟨hsna rfl, rfl, forall_mem_cons.mpr ⟨fun _ => rfl, fun child hch hsm => ?_⟩⟩
      exact absurd hsm (not_mem_of_find_none hfr child hch)
    next => exact fun _ => hsna rfl

theorem fits_movesOn (hcur : s.job.Current job) (h : MovesOn job child stage) : s.Fits stage := by
  obtain ⟨hslc, hatt⟩ := Prod.mk.inj hcur.key
  cases h with
  | retry => exact fun _ => hcur.snapshot
  | slice => exact .inr ⟨rfl, .inl (by omega)⟩
  | attempt => exact .inr ⟨rfl, .inr ⟨hslc.symm, by omega⟩⟩

theorem fits_notCanceled (hcur : s.job.Current job) (atEnd : Bool) : s.Fits (notCanceled job atEnd) := by
  unfold notCanceled
  split
  next => exact hcur.worked
  next => exact fun _ => hcur.snapshot

theorem fits_canceled {plan : TwapPlan} (hcur : s.job.Current job)
    (atEnd : Bool) : s.Fits (plan.canceled world job child atEnd) := by
  cases atEnd with
  | true => exact hcur.worked
  | false => exact fits_movesOn hcur canceled_movesOn

theorem Base.cancelActive (h : s.Base) (plan : TwapPlan) (atEnd : Bool)
    (hcur : s.job.Current job) : (s.cancelActive plan world job key atEnd).Base := by
  have hnot : ∀ {next : TwapState}, next.Base → next.job = s.job →
      (next.moveTo (notCanceled job atEnd)).Base := fun hnx hjob =>
    hnx.moveTo (fits_notCanceled (hjob ▸ hcur) atEnd)
  unfold TwapState.cancelActive
  split
  next child result _ _ =>
    dsimp only
    split
    next => exact hnot h rfl
    split
    next updated _ =>
      split
      next =>
        have hnx : (s.received key (world.update (cancellation result))).job.Current job := hcur
        exact h.received.moveTo (fits_canceled hnx atEnd)
      next => exact hnot h.received rfl
    next => exact hnot h.received rfl
  next => exact hnot h rfl

theorem Base.submitChild (h : s.Base) (world : TwapWorld) (hsna : s.job.Snapshot job)
    (hact : s.job.activeOrderID = some key) (hunsent : ∀ child ∈ s.children, child.key = key → child.submissions = 0) :
    (s.submitChild world job key).Base := by
  unfold TwapState.submitChild
  split
  next => exact h.moveTo ⟨hsna, hact⟩
  next child _ =>
  have hrecv : (s.received key (world.update (world.placement.result child.order))).Base := h.received
  have hks : ∀ children : List TwapChild, (children.map (submitted key)).map (·.key) = children.map (·.key) := by
    simp [Function.comp_def]
  refine ⟨(hks _).symm ▸ hrecv.distinct, fun sent hsent => ?_, fun sent hsent => ?_, fun other hoth => ?_, ?_⟩
  · obtain ⟨received, hmem, rfl⟩ := mem_map.mp hsent
    obtain ⟨old, hold, rfl⟩ := mem_map.mp hmem
    unfold submitted
    split
    next hkey =>
      have hze := hunsent old hold (by simpa using hkey)
      simp [hze]
    next => simpa using h.once old hold
  · obtain ⟨received, hmem, rfl⟩ := mem_map.mp hsent
    rw [submitted_key]
    exact hrecv.upTo received hmem
  · obtain ⟨hkey, received, hfd⟩ := hrecv.pointed other hoth
    refine ⟨hkey, received.submitted key, ?_⟩
    rw [← map_some, ← hfd]
    exact find_map fun _ => submitted_key
  · change Fits _ (if _ then _ else _)
    split
    next => exact ⟨hsna, rfl⟩
    next => exact ⟨hsna, hact⟩

end Rows

section Steps

variable {plan : TwapPlan} {world : TwapWorld} {s : TwapState} {job : TwapJob} {child : TwapChild} {stage : TwapStage}

end Steps

end TwapState

end SelfQuant.Trader
