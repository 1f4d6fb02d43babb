import SelfQuant.OmsTells

namespace SelfQuant.Oms

open OmsApi Lane List

variable {H : RuntimeHashes} {api api' : OmsApi} {index laneId room : Nat} {answers : Answers}
  {step : ApiStep} {lane lane' : Lane} {build : RequestToken → RuntimeCommand} {token : RequestToken}
  {config : RuntimeConfig} {errors : List Nat}

/-- The lane that a call names has the free update slots that the command will ask for, and its
counter is not about to wrap. `retireInstrument` itself asks for one slot, a query for none. -/
def CallFits (api : OmsApi) (step : ApiStep) : Prop :=
  match step with
  | .submitOrder laneId .. | .cancelOrder laneId .. | .cancelVenueOrder laneId ..
  | .registerInstrument laneId .. => ∀ index ∈ api.findLane laneId, (api.lane index).nextSequence ≠ 2 ^ 64 - 1
  | .retireInstrument laneId .. => ∀ index ∈ api.findLane laneId,
      (api.lane index).nextSequence ≠ 2 ^ 64 - 1 ∧ (api.lane index).room ≠ 1
  | .query laneId .. => ∀ index ∈ api.findLane laneId,
      (api.lane index).nextSequence ≠ 2 ^ 64 - 1 ∧ 2 ≤ (api.lane index).room
  | _ => True

instance (api : OmsApi) (step : ApiStep) : Decidable (CallFits api step) := by
  unfold CallFits
  split <;> infer_instance

section

variable (h : CallFits api step) (hs : step.Sends laneId room build answers) (hi : api.findLane laneId = some index)

include h hs hi

theorem CallFits.nextSequence : (api.lane index).nextSequence ≠ 2 ^ 64 - 1 := by
  cases hs with
  | retire | query => exact (h index hi).1
  | _ => exact h index hi

theorem CallFits.hasRoom (hr : (api.lane index).hasRoom room) : (api.lane index).hasRoom (build token).required := by
  cases hs with
  | retire =>
    have hrm := (h index hi).2
    rw [hasRoom_iff] at hr ⊢
    simp only [RuntimeCommand.required]
    omega
  | query =>
    rw [hasRoom_iff]
    exact (h index hi).2
  | _ => exact hr

end

theorem ApiStep.Sends.build_token (h : step.Sends laneId room build answers) :
    (build token).token = token := by cases h <;> rfl

/-- A lane whose callers and whose owner are at the same token. -/
structure InSync (lane : Lane) : Prop where
  sequence : lane.nextSequence = lane.ownerSequence
  commands : lane.commands = []
  bound : lane.nextSequence < 2 ^ 64

theorem inSync_control : InSync lane.control ↔ InSync lane := ⟨fun h => ⟨h.1, h.2, h.3⟩, fun h => ⟨h.1, h.2, h.3⟩⟩

theorem allocateToken_eq_ok (h : lane.allocateToken = (.ok token, lane')) :
    lane.sessionEpoch ≠ 0 ∧ (lane.nextSequence + 1) % 2 ^ 64 ≠ 0 ∧
      token = ⟨lane.laneId, lane.sessionEpoch, (lane.nextSequence + 1) % 2 ^ 64⟩ ∧
      lane' = { lane with nextSequence := (lane.nextSequence + 1) % 2 ^ 64 } := by
  unfold allocateToken at h
  split at h
  next => cases h
  next he =>
  dsimp only at h
  split at h
  next => cases h
  next hz =>
  cases h
  exact ⟨he, hz, rfl, rfl⟩

theorem InSync.validateToken (hl : InSync lane) (h : lane.allocateToken = (.ok token, lane')) :
    ∃ lane'', lane'.validateToken token = some lane'' ∧ InSync lane'' := by
  obtain ⟨he, hz, rfl, rfl⟩ := allocateToken_eq_ok h
  refine ⟨{ lane with nextSequence := (lane.nextSequence + 1) % 2 ^ 64
                      ownerSequence := (lane.nextSequence + 1) % 2 ^ 64 }, ?_, ?_⟩
  · unfold validateToken
    rw [if_neg]
    rintro (hne | hne | hne | hne | hne)
    · exact hne rfl
    · exact he hne
    · exact hne rfl
    · exact hz hne
    · exact hne (by rw [hl.sequence])
  · exact ⟨rfl, hl.commands, Nat.mod_lt _ (by decide)⟩

theorem InSync.exhausted (hl : InSync lane) {error : Error} (h : lane.allocateToken = (.error error, lane'))
    (hn : lane.nextSequence ≠ 2 ^ 64 - 1) : lane' = lane := by
  unfold allocateToken at h
  split at h
  next => cases h; rfl
  dsimp only at h
  split at h
  next hz =>
    have := hl.bound
    omega
  next => cases h

def LanesInSync (api : OmsApi) : Prop := ∀ lane ∈ api.controls, InSync lane

theorem LanesInSync.at (h : LanesInSync api) (index : Nat) : InSync (api.lane index) := by
  rw [← inSync_control, lane_control]
  cases hc : api.controls[index]? with
  | none => exact ⟨rfl, rfl, by decide⟩
  | some lane => exact h _ (mem_of_getElem? hc)

theorem LanesInSync.setLane (h : LanesInSync api) (hl : InSync lane) : LanesInSync (api.setLane index lane) := by
  intro l hmem
  rw [setLane_controls] at hmem
  rcases mem_or_eq_of_mem_set hmem with hmem | rfl
  · exact h l hmem
  · exact inSync_control.mpr hl

theorem SameControls.lanesInSync (hc : SameControls api api') (h : LanesInSync api) : LanesInSync api' := by
  unfold LanesInSync
  rw [hc.controls]
  exact h

theorem Performed.lanesInSync (h : Performed H api step api') (hm : api.mode = .inline)
    (hft : CallFits api step) (hall : LanesInSync api) : LanesInSync api' := by
  have hln := hall.at
  cases h with
  | idle | stopped => exact hall
  | initialized | drained => exact hall.setLane ⟨(hln _).1, (hln _).2, (hln _).3⟩
  | exhausted hs hi h =>
    rw [(hln _).exhausted h (hft.nextSequence hs hi)]
    exact hall.setLane (hln _)
  | queued hs hmd => simp [hm] at hmd
  | spent hs hmd hi h hr hn =>
    rw [hft.hasRoom hs hi hr] at hn
    cases hn
  | @called laneId room index build answers token lane hs hmd hi h hr =>
    obtain ⟨lane'', hv, hsync⟩ := (hln index).validateToken h
    have hsf : (api.setLane index lane).lane index = lane := lane_setLane_self (findLane_eq_some hi).1 lane
    rcases (execute_executes H (api.setLane index lane) index (build token) answers).controls
      with ⟨hno, _⟩ | ⟨l, hso, hc⟩
    · rw [hsf, hs.build_token, hv] at hno
      cases hno
    · rw [hsf, hs.build_token, hv] at hso
      cases hso
      simp only [setLane, set_set] at hc
      exact hc.lanesInSync (hall.setLane hsync)
  | owner he hc =>
    rw [(hln _).commands] at hc
    cases hc
  | deadlines => exact processDeadlines_sameControls.lanesInSync hall
  | event => exact (handleAdapterEvent_handled _).sameControls.lanesInSync hall

theorem Created.lanesInSync (h : Created config errors api) : LanesInSync api := by
  intro lane hmem
  unfold controls at hmem
  rw [h.lanes, map_map] at hmem
  obtain ⟨_, _, rfl⟩ := mem_map.mp hmem
  exact ⟨rfl, rfl, Nat.two_pow_pos 64⟩

theorem OmsRun.lanesInSync (h : OmsRun H CallFits api) (hm : api.mode = .inline) : LanesInSync api := by
  induction h with
  | start h => exact (create_created h).lanesInSync
  | @next api _ step hs ih =>
    have hp := perform_performed H api step
    rw [hp.mode] at hm
    exact hp.lanesInSync hm hs (ih hm)

/-- In inline mode, as long as every call fits, no token is lost between the callers of a lane
and its owner: the lane accepts the next token it allocates. -/
theorem laneSequence_intact (h : OmsRun H CallFits api) (hm : api.mode = .inline) (hmem : lane ∈ api.lanes) :
    lane.nextSequence = lane.ownerSequence ∧
      ∀ token lane', lane.allocateToken = (.ok token, lane') → lane'.validateToken token ≠ none := by
  have hsync : InSync lane := inSync_control.mp (h.lanesInSync hm _ (mem_map.mpr ⟨lane, hmem, rfl⟩))
  refine ⟨hsync.sequence, fun token lane' ha => ?_⟩
  obtain ⟨lane'', hv, _⟩ := hsync.validateToken ha
  rw [hv]
  simp

def sampleRegister : ApiStep := .registerInstrument 1 ⟨{}, 7, sampleOrder.routing⟩ sampleAnswers

def sampleRegistered : OmsApi := sampleNarrow.performAll sourceRuntimeHashes [.initializeLane 1 1, sampleRegister]

theorem laneSequence_intact_sample :
    (sampleRegistered.lane 0).nextSequence = 1 ∧
      (sampleRegistered.lane 0).nextSequence = (sampleRegistered.lane 0).ownerSequence := by
  have hrun : OmsRun sourceRuntimeHashes CallFits sampleRegistered :=
    OmsRun.performAll (.start (Option.some_get _).symm) (by decide +kernel)
  have hmem : sampleRegistered.lane 0 ∈ sampleRegistered.lanes := by decide +kernel
  exact ⟨by decide +kernel, (laneSequence_intact hrun (by decide +kernel) hmem).1⟩

/-- With one free slot left, `retireInstrument` and a query each spend a token that the owner
never sees, and answer `queueFull`. Once the lane is drained, its next command is refused. -/
theorem laneSequence_torn :
    let api := sampleRegistered
    let retire := api.callRetireInstrument sourceRuntimeHashes 1 7 .lifecycleEnded sampleAnswers
    let query := api.submitQuery sourceRuntimeHashes 1 { accountId := 1 } .openOrders sampleAnswers
    OmsReach sourceRuntimeHashes api ∧ api.mode = .inline ∧
    retire.1 = .error .queueFull ∧ query.1 = .error .queueFull ∧
    (retire.2.lane 0).nextSequence = 2 ∧ (retire.2.lane 0).ownerSequence = 1 ∧
    (query.2.lane 0).nextSequence = 2 ∧ (query.2.lane 0).ownerSequence = 1 ∧
    ((retire.2.performAll sourceRuntimeHashes [.drainUpdates 1 2, sampleRegister]).lane 0).updates =
      [.commandResult .registerInstrument .invalidArgument (.instrument ⟨1, 1, 3⟩ 7)] :=
  ⟨OmsReach.performAll (.start (Option.some_get _).symm) _, by decide +kernel, by decide +kernel,
    by decide +kernel, by decide +kernel, by decide +kernel, by decide +kernel, by decide +kernel,
    by decide +kernel⟩

/-- A lane cancels its own orders only, and forces the retirement of an instrument only when the
orders resting on it are its own. -/
def StaysHome (api : OmsApi) (step : ApiStep) : Prop :=
  match step with
  | .cancelOrder laneId target handle _ => api.mode = .inline → ∀ index ∈ api.findLane laneId,
      Owns api.engine.orders (api.lane index).laneId (.cancel ⟨{}, target, handle⟩)
  | .retireInstrument laneId instrumentId mode _ => api.mode = .inline →
      ∀ index ∈ api.findLane laneId,
        Owns api.engine.orders (api.lane index).laneId (.retireInstrument ⟨{}, instrumentId, mode⟩)
  | .ownerCommand index _ => ∀ command ∈ (api.lane index).commands.head?,
      Owns api.engine.orders (api.lane index).laneId command
  | _ => True

instance (api : OmsApi) : ∀ step, Decidable (StaysHome api step)
  | .cancelOrder laneId target handle _ => inferInstanceAs (Decidable (api.mode = .inline →
      ∀ index ∈ api.findLane laneId, Owns api.engine.orders (api.lane index).laneId (.cancel ⟨{}, target, handle⟩)))
  | .retireInstrument laneId instrumentId mode _ => inferInstanceAs (Decidable (api.mode = .inline →
      ∀ index ∈ api.findLane laneId,
        Owns api.engine.orders (api.lane index).laneId (.retireInstrument ⟨{}, instrumentId, mode⟩)))
  | .ownerCommand index _ => inferInstanceAs (Decidable (∀ command ∈ (api.lane index).commands.head?,
      Owns api.engine.orders (api.lane index).laneId command))
  | .initializeLane .. | .submitOrder .. | .cancelVenueOrder .. | .registerInstrument .. | .query ..
  | .drainUpdates .. | .shutdown | .ownerDeadlines _ | .ownerEvent _ => .isTrue trivial

theorem StaysHome.owns (h : StaysHome api step) (hs : step.Sends laneId room build answers)
    (hm : api.mode = .inline) (hi : api.findLane laneId = some index) :
    Owns api.engine.orders (api.lane index).laneId (build token) := by
  cases hs with
  | cancel | retire => exact h hm index hi
  | _ => trivial

theorem allocateToken_eq {lane lane' : Lane} {result : Except Error RequestToken}
    (h : lane.allocateToken = (result, lane')) :
    lane' = { lane with nextSequence := lane'.nextSequence } := by
  unfold allocateToken at h
  dsimp only at h
  split at h
  next => cases h; rfl
  next => split at h <;> cases h <;> rfl

theorem Performed.tells (h : Performed H api step api') (hr : EngineReach H.orders api.engine)
    (hhome : StaysHome api step) : TellsAll api api' := by
  cases h with
  | idle => exact .refl
  | stopped => exact .single (.of_frame rfl rfl)
  | initialized => exact .single (.of_setLane rfl rfl)
  | drained => exact .single (.of_setLane rfl (by simp [drain, published]))
  | exhausted hs hi h => exact .single (.of_setLane (by rw [allocateToken_eq h]) (by rw [allocateToken_eq h]; rfl))
  | queued hs hm hi h | spent hs hm hi h =>
    exact .single (.of_setLane (by rw [allocateToken_eq h]) (by rw [allocateToken_eq h]; rfl))
  | @called laneId room index build answers token lane hs hm hi h hrm =>
    have hsf := lane_setLane_self (findLane_eq_some hi).1 lane
    have hr' : EngineReach H.orders (api.setLane index lane).engine := hr
    refine .head (.of_setLane (by rw [allocateToken_eq h]) (by rw [allocateToken_eq h]; rfl))
      ((execute_executes _ (api.setLane index lane) _ _ _).tells hr' ?_ ?_)
    · rw [hsf, hasRoom_allocate h]
      exact hrm
    · rw [hsf, show lane.laneId = (api.lane index).laneId by rw [allocateToken_eq h]]
      exact hhome.owns hs hm hi
  | @owner index command rest answers he hc hrm =>
    subst he
    refine ((execute_executes _ api _ _ _).tells hr hrm ?_).tail (.of_setLane rfl rfl)
    exact hhome command (by rw [hc]; rfl)
  | deadlines => exact processDeadlines_reach (fun ht hr h => h.tail (ht.tells hr.valid)) hr .refl
  | event => exact .single ((handleAdapterEvent_handled _).tells hr.valid)

def UpdatesHome (api : OmsApi) : Prop :=
  ∀ index, ∀ update ∈ (api.lane index).published, ∀ e, update.engineUpdate = some e →
    e.token.lane = (api.lane index).laneId

theorem Tells.updatesHome (h : Tells api api') (hhome : UpdatesHome api) : UpdatesHome api' := by
  intro index update hmem e he
  rw [h.grows] at hmem
  rw [h.laneId]
  rcases mem_append.mp hmem with hmem | hmem
  · exact hhome index update hmem e he
  · exact h.home index update hmem e he

theorem TellsAll.updatesHome (h : TellsAll api api') (hhome : UpdatesHome api) : UpdatesHome api' := by
  induction h with
  | refl => exact hhome
  | tail _ h ih => exact h.updatesHome ih

theorem Created.updatesHome (h : Created config errors api) : UpdatesHome api := by
  intro index update hmem
  unfold lane at hmem
  rw [h.lanes] at hmem
  cases hc : config.lanes[index]? with
  | none | some => simp [hc, published] at hmem

theorem OmsRun.updatesHome (h : OmsRun H StaysHome api) : UpdatesHome api := by
  induction h with
  | start h => exact (create_created h).updatesHome
  | next h step hs ih => exact TellsAll.updatesHome ((perform_performed H _ step).tells h.engineReach hs) ih

/-- In a run without commands on the orders of other lanes, every order and fill update is on the
lane of its order, and every further step is a sequence of changes that report each new order and
each change of a status to the lane of the order. -/
theorem updates_reach_owner (h : OmsRun H StaysHome api) :
    (∀ lane ∈ api.lanes, ∀ update ∈ lane.published, ∀ e, update.engineUpdate = some e → e.token.lane = lane.laneId) ∧
    ∀ step, StaysHome api step → TellsAll api (api.perform H step) := by
  refine ⟨fun lane hmem update hu e he => ?_, fun step hs => (perform_performed H api step).tells h.engineReach hs⟩
  obtain ⟨index, hb, rfl⟩ := getElem_of_mem hmem
  have hlane : api.lane index = api.lanes[index] := by
    simp [lane, getElem?_eq_getElem hb]
  rw [← hlane] at hu ⊢
  exact h.updatesHome index update hu e he

def sampleTwoLanes : OmsApi :=
  (create sourceRuntimeHashes { sampleConfig .inline [⟨1, 2, 8⟩, ⟨2, 2, 8⟩] with instruments := [] } []).get
    (by decide +kernel)

def samplePlaced : List ApiStep :=
  [.initializeLane 1 1, .initializeLane 2 1,
    .registerInstrument 2 ⟨⟨2, 1, 1⟩, 7, { sampleOrder.routing with instrumentExpiryNs := 5 }⟩ sampleAnswers,
    .submitOrder 1 sampleOrder sampleAnswers]

theorem updates_reach_owner_sample :
    let api := sampleTwoLanes.performAll sourceRuntimeHashes
      (samplePlaced ++ [.cancelOrder 1 ⟨1, 1, 1⟩ {} sampleAnswers])
    (api.lane 0).published.length = 3 ∧
    ∀ lane ∈ api.lanes, ∀ update ∈ lane.published, ∀ e, update.engineUpdate = some e →
      e.token.lane = lane.laneId := by
  refine ⟨by decide +kernel, (updates_reach_owner (H := sourceRuntimeHashes) ?_).1⟩
  exact OmsRun.performAll (.start (Option.some_get _).symm) (by decide +kernel)

/-- When the second lane cancels the order of the first, or retires its instrument, the update is
published on the second lane; the first is not told that its order has expired. -/
theorem update_on_other_lane :
    let api := sampleTwoLanes.performAll sourceRuntimeHashes samplePlaced
    let cancelled := api.perform sourceRuntimeHashes (.cancelOrder 2 ⟨1, 1, 1⟩ {} sampleAnswers)
    let retired := api.perform sourceRuntimeHashes
      (.retireInstrument 2 7 .lifecycleEnded { sampleAnswers with wallNowNs := 5 })
    OmsReach sourceRuntimeHashes api ∧ (api.lane 0).laneId = 1 ∧ (api.lane 1).laneId = 2 ∧
    (cancelled.lane 1).published.filterMap RuntimeUpdate.engineUpdate =
      [.order { type := .cancelRequested, handle := ⟨0, 0, 1⟩, token := ⟨1, 1, 1⟩
                clientOrderId := ⟨[65]⟩, venueOrderId := ⟨[]⟩
                status := .pendingSubmit, inflight := .cancel }] ∧
    (api.engine.orders.order 0).map OrderRecord.status = some .pendingSubmit ∧
    (retired.engine.orders.order 0).map OrderRecord.status = some .expired ∧
    (retired.lane 0).published = (api.lane 0).published ∧
    (retired.lane 1).published.filterMap RuntimeUpdate.engineUpdate =
      [.order { type := .expired, handle := ⟨0, 0, 1⟩, token := ⟨1, 1, 1⟩
                clientOrderId := ⟨[65]⟩, venueOrderId := ⟨[]⟩, status := .expired, inflight := .none }] :=
  ⟨OmsReach.performAll (.start (Option.some_get _).symm) _, by decide +kernel, by decide +kernel,
    by decide +kernel, by decide +kernel, by decide +kernel, by decide +kernel, by decide +kernel⟩

end SelfQuant.Oms
