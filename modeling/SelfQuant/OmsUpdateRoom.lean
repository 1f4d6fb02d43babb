import SelfQuant.OmsLifeCycle
import SelfQuant.OmsReport

namespace SelfQuant.Oms

open OrderTable OmsApi StateEngine Lane Option

variable {H : RuntimeHashes} {api : OmsApi} {index : Nat} {request : CancelOrderRequest} {answers : Answers}
  {s : StateEngine}

/-- The order named by `target` kept its status and its action in flight, and a further cancel
of it is answered as before. -/
structure TargetKept (H : OrderHashes) (s s' : StateEngine) (target : RequestToken) : Prop where
  fields : ∀ {slot r}, s.orders.order slot = some r → r.request.token = target →
    ∃ r', s'.orders.order slot = some r' ∧ r'.status = r.status ∧ r'.inflight = r.inflight
  again : (s'.requestCancel H target).error = (s.requestCancel H target).error

theorem TargetKept.refl (H : OrderHashes) (s : StateEngine) (target : RequestToken) :
    TargetKept H s s target := ⟨fun ho _ => ⟨_, ho, rfl, rfl⟩, rfl⟩

/-- The lane accepts the cancel, its target rests on a routed venue without a cancel in flight,
and the adapter takes the reservation but not the commit. -/
structure CommitRefused (api : OmsApi) (index : Nat) (request : CancelOrderRequest)
    (answers : Answers) : Prop where
  token : (api.lane index).validateToken request.requestToken ≠ none
  target : ∃ slot r, api.engine.orders.order slot = some r ∧
    r.request.token = request.targetToken ∧ api.router.route r.routing ≠ none ∧
    ¬isTerminal r.status ∧ r.inflight ≠ .cancel
  reserved : answers.reserveCommand = .ok
  refused : answers.commitCancel ≠ .ok

theorem CommitRefused.cancelReserved (h : CommitRefused api index request answers)
    (hv : api.engine.orders.Valid H.orders) : CancelReserved H api request.targetToken answers := by
  obtain ⟨slot, r, ho, htok, hrt, _⟩ := h.target
  refine ⟨⟨slot, hv.findToken_iff.mpr ⟨r, ho, htok⟩, ?_⟩, h.reserved⟩
  obtain ⟨_, _, hco⟩ := order_eq_some ho
  rw [hco] at hrt
  exact hrt

theorem CommitRefused.requestCancel_ok (h : CommitRefused api index request answers)
    (hv : api.engine.orders.Valid H.orders) :
    (api.engine.requestCancel H.orders request.targetToken).error = .ok := by
  obtain ⟨slot, r, ho, htok, _, hs, hi⟩ := h.target
  obtain ⟨_, _, rfl⟩ := order_eq_some ho
  unfold requestCancel
  rw [hv.findToken_iff.mpr ⟨_, ho, htok⟩]
  rw [apply_ite Outcome.error]
  exact if_neg (not_or.mpr ⟨hs, hi⟩)

theorem not_kept_of_requestCancel_ok {H : OrderHashes} {target : RequestToken}
    (hv : s.orders.Valid H) (hok : (s.requestCancel H target).error = .ok) :
    ¬TargetKept H s (s.requestCancel H target).engine target := by
  intro hkt
  rcases requestCancel_spec hv target with ⟨hne, _⟩ | ⟨slot, r, ho, htok, _, hi, hw⟩
  · exact hne hok
  · obtain ⟨r', ho', _, hi'⟩ := hkt.fields ho htok
    rw [hw.order, Function.update_self] at ho'
    cases ho'
    exact hi hi'.symm

theorem execute_cancel (hrm : (api.lane index).hasRoom 2) :
    let api' := api.execute H index (.cancel request) answers
    (api'.engine = api.engine ∧ ((api.lane index).validateToken request.requestToken = none ∨
        ¬CancelReserved H api request.targetToken answers)) ∨
      ∃ out, api.engine.requestCancel H.orders request.targetToken = out ∧ api'.engine = out.engine ∧
        (api.lane index).validateToken request.requestToken ≠ none ∧
        CancelReserved H api request.targetToken answers ∧
        (api'.lane index).updates.getLast? = some (.commandResult .cancel
          (if out.error ≠ .ok then out.error else adapterError answers.commitCancel)
          (.cancel request.targetToken request.requestToken)) := by
  intro api'
  have hb := index_lt_of_hasRoom hrm (by omega)
  have hxe : Executes H api index (.cancel request) answers api' := execute_executes _ _ _ _ _
  generalize api' = done' at hxe
  cases hxe with
  | nothing _ hr => cases hr .ok
  | refused hv => exact .inl ⟨rfl, .inl hv⟩
  | queried hc => cases hc
  | ran _ hv hran =>
    have hacc := validateToken_eq_some hv
    rw [hasRoom_iff, ← hacc.room] at hrm
    have hla := report_getLast hb hran rfl
    cases hran with
    | quiet _ _ _ hc => exact .inl ⟨rfl, .inr fun hr => (hc _ rfl).2 ⟨hr.routed, hr.reserved⟩⟩
    | unplaced hc | placed hc | rejected hc | expired hc => cases hc
    | erased _ _ hc => cases hc
    | canceled hc ho hr =>
      cases hc
      have hv' : (api.lane index).validateToken request.requestToken ≠ none := ne_none_iff_exists'.mpr ⟨_, hv⟩
      refine .inr ⟨_, ho, rfl, hv', ⟨hr.routed, hr.reserved⟩, hla ?_⟩
      subst ho
      have hlen := requestCancel_updates_length (H := H.orders) (s := api.engine) request.targetToken
      refine le_trans (Nat.succ_le_succ ?_) hrm
      exact (congrArg List.length (stage_nil hlen)).trans_le hlen

theorem failedCancel_kept_iff (h : OwnerReach H api) {error : Error} (he : error ≠ .ok)
    (hp : (api.processCommand H index (.cancel request) answers).1 = true)
    (hu : ((api.processCommand H index (.cancel request) answers).2.lane index).updates.getLast? =
      some (.commandResult .cancel error (.cancel request.targetToken request.requestToken))) :
    TargetKept H.orders api.engine (api.processCommand H index (.cancel request) answers).2.engine
        request.targetToken ↔ ¬CommitRefused api index request answers := by
  have hv := h.engineReach.valid
  obtain ⟨hroom, hexec⟩ := processCommand_of_true hp
  rw [hexec] at hu ⊢
  rcases execute_cancel hroom with ⟨heng, hwhy⟩ | ⟨out, ho, heng, htok, hres, hlast⟩
  · rw [heng]
    refine iff_of_true (.refl _ _ _) fun hc => ?_
    rcases hwhy with htok | hres
    · exact hc.token htok
    · exact hres (hc.cancelReserved hv)
  · rw [heng]
    rw [hlast] at hu
    subst ho
    rcases requestCancel_spec hv request.targetToken with ⟨hne, hsame, _⟩ | ⟨slot, r, ho, hrt, hs, hi, hw⟩
    · rw [hsame]
      exact iff_of_true (.refl _ _ _) fun hc => hne (hc.requestCancel_ok hv)
    · refine iff_of_false (not_kept_of_requestCancel_ok hv hw.ok) (not_not.mpr ?_)
      refine ⟨htok, ⟨slot, r, ho, hrt, ?_, hs, hi⟩, hres.reserved, ?_⟩
      · obtain ⟨slot', hf, hroute⟩ := hres.routed
        rw [hv.findToken_iff.mpr ⟨r, ho, hrt⟩] at hf
        cases hf
        rw [(order_eq_some ho).2.2]
        exact hroute
      · intro hcommit
        rw [hw.ok, hcommit] at hu
        injection hu with hu
        injection hu with _ hu
        exact he hu.symm

def sampleConfig (mode : ExecutionMode) (lanes : List LaneConfig) : RuntimeConfig where
  mode := mode
  lanes := lanes
  deadlineCapacity := 1
  orderCapacity := 2
  fillDedupCapacity := 2
  instrumentDirectoryCapacity := 2
  adapters := [{}]
  accountRoutes := [(1, .fake)]
  instruments := [(7, sampleOrder.routing)]

def sampleApi : OmsApi := (create sourceRuntimeHashes (sampleConfig .inline [⟨1, 2, 8⟩]) []).get (by decide +kernel)

theorem sampleApi_run {allowed : OmsApi → ApiStep → Prop} :
    OmsRun sourceRuntimeHashes allowed sampleApi := .start (some_get _).symm

def sampleNarrow : OmsApi :=
  (create sourceRuntimeHashes (sampleConfig .inline [⟨1, 2, 2⟩]) []).get (by decide +kernel)

def sampleAnswers : Answers := { capabilities := ⟨2047⟩ }

def sampleResting : OmsApi := sampleApi.performAll sourceRuntimeHashes
  [.initializeLane 1 1, .submitOrder 1 sampleOrder sampleAnswers]

theorem sampleResting_reach : OmsReach sourceRuntimeHashes sampleResting := OmsReach.performAll sampleApi_run _

def sampleCancel : CancelOrderRequest := ⟨⟨1, 1, 2⟩, ⟨1, 1, 1⟩, {}⟩

theorem failedCancel_kept_reserve :
    TargetKept sourceHashes sampleResting.engine (sampleResting.processCommand sourceRuntimeHashes 0
      (.cancel sampleCancel) { sampleAnswers with reserveCommand := .wouldBlock }).2.engine sampleCancel.targetToken :=
  (failedCancel_kept_iff (.between sampleResting_reach) (by decide : Error.queueFull ≠ .ok)
    (by decide +kernel) (by decide +kernel)).mpr fun h => absurd h.reserved (by decide)

/-- The adapter takes the reservation of a cancel and refuses its commit, as it does for an
order without a venue id: the failed cancel stays in flight and the next one is refused. -/
theorem failedCancel_not_kept :
    let answers := { sampleAnswers with commitCancel := .notReady }
    let api' := (sampleResting.processCommand sourceRuntimeHashes 0 (.cancel sampleCancel) answers).2
    OmsReach sourceRuntimeHashes sampleResting ∧
    (sampleResting.processCommand sourceRuntimeHashes 0 (.cancel sampleCancel) answers).1 = true ∧
    (api'.lane 0).updates.getLast? = some (.commandResult .cancel .notReady
      (.cancel sampleCancel.targetToken sampleCancel.requestToken)) ∧
    ((sampleResting.engine.orders.order 0).map fun r => (r.status, r.inflight)) = some (.pendingSubmit, .submit) ∧
    ((api'.engine.orders.order 0).map fun r => (r.status, r.inflight)) = some (.pendingSubmit, .cancel) ∧
    (sampleResting.engine.requestCancel sourceHashes sampleCancel.targetToken).error = .ok ∧
    (api'.engine.requestCancel sourceHashes sampleCancel.targetToken).error = .invalidTransition :=
  ⟨sampleResting_reach, by decide +kernel, by decide +kernel, by decide +kernel, by decide +kernel,
    by decide +kernel, by decide +kernel⟩

open List

open RuntimeCommand (place required results token)

variable {api' : OmsApi} {command : RuntimeCommand} {done : Executed} {lane : Lane}

/-- A place that is accepted, handed to the adapter and then refused by its commit on a lane with
just the two free slots that a place without deadline asks for. -/
structure RejectOverflows (api : OmsApi) (index : Nat) (submitted : SubmitOrderRequest)
    (answers : Answers) : Prop where
  timeInForce : submitted.order.timeInForce ≠ .gtd
  token : (api.lane index).validateToken submitted.order.token ≠ none
  reserved : api.reservePlace submitted answers = .ok
  arguments : submitError submitted = .ok
  insert : api.engine.orders.CanInsert submitted
  refused : answers.commitPlace ≠ .ok
  room : (api.lane index).room = 2

/-- A query that the adapter refuses after the events it handed over have filled the lane. -/
structure QueryOverflows (H : RuntimeHashes) (api : OmsApi) (index : Nat) (token : RequestToken)
    (request : QueryRequest) (answers : Answers) : Prop where
  account : api.accountAdapter request.accountId ≠ none
  refused : answers.query ≠ .ok
  full : ∃ lane, (api.lane index).validateToken token = some lane ∧
    (((api.setLane index lane).handleAdapterEvents H answers.queryEvents).lane index).room = 0

def Overflows (H : RuntimeHashes) (api : OmsApi) (index : Nat) (command : RuntimeCommand)
    (answers : Answers) : Prop :=
  match command with
  | .place submitted => RejectOverflows api index submitted answers
  | .query _ token request => QueryOverflows H api index token request answers
  | _ => False

theorem Overflows.token (h : Overflows H api index command answers) :
    (api.lane index).validateToken command.token ≠ none := by
  cases command with
  | place => exact RejectOverflows.token h
  | query =>
    obtain ⟨lane, hv, _⟩ := QueryOverflows.full h
    rw [token, hv]
    simp
  | _ => cases h

theorem RuntimeCommand.required_pos : 0 < command.required := by
  unfold required
  split <;> first | omega | split <;> omega

theorem OmsApi.report_lost_iff (hb : index < api.lanes.length)
    (hv : (api.lane index).validateToken command.token = some lane)
    (h : Ran H (api.setLane index lane) command answers done) : (report index command done).lost = api.lost ↔
      done.staged.length + (command.results done.result).length ≤ (api.lane index).room := by
  have hacc := validateToken_eq_some hv
  have hln : done.api.lane index = lane := by
    rw [lane_congr h.lanes]
    exact lane_setLane_self hb lane
  have hlost : done.api.lost = api.lost := by
    rw [lost_congr h.lanes]
    exact setLane_lost_self (by rw [hacc.eq])
  have hb' : index < done.api.lanes.length := by
    rw [h.lanes]
    simpa [setLane] using hb
  unfold report
  rw [← hlost, publish_lost_iff hb', hln, hacc.room]
  simp

variable {submitted : SubmitOrderRequest} {out : Outcome} {error : Error}

theorem StateEngine.rejectLocal_updates {H : OrderHashes} (hv : s.orders.Valid H)
    (ho : s.submit H submitted = out) (hok : out.error = .ok) :
    out.updates.length = 1 ∧ (out.engine.rejectLocal out.handle).updates.length = 1 := by
  subst ho
  obtain ⟨_, _, _, ⟨hne, _⟩ | ⟨_, _, _, _, hups⟩⟩ := submit_spec hv submitted
  · exact absurd hok hne
  · rw [hups, rejectLocal_submitted hv hok]
    exact ⟨rfl, rfl⟩

theorem OmsApi.commitPlaced_untimed {handle : OrderHandle} {place : NewOrderRequest}
    (ht : place.timeInForce ≠ .gtd) (h : api.commitPlaced handle place answers = (error, api')) :
    error = adapterError answers.commitPlace ∧ api' = api := by
  unfold commitPlaced at h
  rw [if_neg ht] at h
  cases h
  exact ⟨rfl, rfl⟩

theorem stage_nil_length {updates : List SinkUpdate} (h : updates.length ≤ 1) :
    (stage [] updates).length ≤ 1 := by rw [stage_nil h]; exact h

theorem two_le_required_place (submitted : SubmitOrderRequest) : 2 ≤ (place submitted).required := by
  simp only [required]
  split <;> omega

theorem rejected_fits_iff {engineApi : OmsApi} (hv : api.engine.orders.Valid H.orders)
    (htok : (api.lane index).validateToken submitted.order.token ≠ none)
    (hr : api.reservePlace submitted answers = .ok) (ho : api.engine.submit H.orders submitted = out)
    (he : out.error = .ok) (hne : error ≠ .ok)
    (hd : engineApi.commitPlaced out.handle submitted.order answers = (error, api'))
    (hrm : (place submitted).required ≤ (api.lane index).room) :
    3 ≤ (api.lane index).room ↔ ¬RejectOverflows api index submitted answers := by
  by_cases ht : submitted.order.timeInForce = .gtd
  · simp only [required, if_pos ht] at hrm
    exact iff_of_true hrm fun hov => hov.timeInForce ht
  · simp only [required, if_neg ht] at hrm
    obtain ⟨harg, hins⟩ := (submit_ok_iff hv).mp (ho ▸ he)
    have hcom := (commitPlaced_untimed ht hd).1
    constructor
    · intro hft hov
      have := hov.room
      omega
    · intro hov
      by_contra hfu
      refine hov ⟨ht, htok, hr, harg, hins, fun hok => ?_, by omega⟩
      exact hne (hcom.trans (adapterError_eq_ok.mpr hok))

/-- The updates of a command whose token was taken fit the room it asked for, but for the local
rejection of an order without deadline, which has three. -/
theorem Ran.updates_length (h : Ran H (api.setLane index lane) command answers done)
    (hv : api.engine.orders.Valid H.orders) (htok : (api.lane index).validateToken command.token = some lane)
    (hq : ∀ kind token request, command ≠ .query kind token request)
    (hrm : command.required ≤ (api.lane index).room) :
    done.staged.length + (command.results done.result).length ≤ (api.lane index).room ↔
      ¬Overflows H api index command answers := by
  have hlen := command.results_length
  have hpos := command.required_pos
  cases h with
  | quiet directory result hp hc =>
    have hres := hlen result
    refine iff_of_true (by simp only [length_nil]; omega) fun hov => ?_
    cases command with
    | place submitted =>
      have hresv : api.reservePlace submitted answers = .ok := RejectOverflows.reserved hov
      exact hp submitted rfl hresv
    | query kind token request => exact hq kind token request rfl
    | _ => exact hov
  | @unplaced submitted hc he =>
    subst hc
    have hres := hlen (api.engine.submit H.orders submitted).error
    have htwo := two_le_required_place submitted
    have hstaged := stage_nil_length (api.engine.submit_updates_length (H := H.orders) submitted)
    refine iff_of_true (by simp only [setLane] at *; omega) fun hov => ?_
    exact he ((submit_ok_iff hv).mpr ⟨RejectOverflows.arguments hov, RejectOverflows.insert hov⟩)
  | @placed submitted out api' hc ho he hd =>
    subst hc
    have hstaged := stage_nil_length (ho ▸ api.engine.submit_updates_length (H := H.orders) submitted)
    refine iff_of_true (by simp [results]; omega) fun hov => ?_
    have hok := (commitPlaced_untimed hov.timeInForce hd).1
    exact hov.refused (adapterError_eq_ok.mp hok.symm)
  | @rejected submitted out error api' hc hr ho he hne hd =>
    subst hc
    obtain ⟨hsub, hrej⟩ := rejectLocal_updates hv ho he
    rw [(commitPlaced_only hd).engine]
    rw [stage_nil (le_of_eq hsub), stage_append (le_of_eq hsub) (le_of_eq hrej)]
    simp only [length_append, hsub, hrej, results, if_neg hne, length_singleton]
    exact rejected_fits_iff hv (ne_none_iff_exists'.mpr ⟨lane, htok⟩) hr ho he hne hd hrm
  | @canceled request out hc ho hr =>
    subst hc
    have hstaged := stage_nil_length
      (ho ▸ api.engine.requestCancel_updates_length (H := H.orders) request.targetToken)
    refine iff_of_true ?_ id
    simp only [required] at hrm
    simp only [results, length_singleton]
    omega
  | erased directory result hc =>
    subst hc
    have hres := hlen result
    exact iff_of_true (by simp only [length_nil]; omega) id
  | @expired request out hc hm ho =>
    subst hc
    refine iff_of_true ?_ id
    have hstaged := stage_nil_length (ho ▸ api.engine.expireOneForRetirement_updates_length request.instrumentId)
    simp only [required] at hrm
    simp only [results, length_singleton]
    split
    next => omega
    next => simp only [length_nil]; omega

theorem OmsApi.query_lost_iff (hb : index < api.lanes.length) (hrm : 2 ≤ (api.lane index).room)
    (kind : QueryKind) (token : RequestToken) (request : QueryRequest) :
    (api.query H index kind token request answers).lost = api.lost ↔
      ¬(api.accountAdapter request.accountId ≠ none ∧ answers.query ≠ .ok ∧
        ((api.handleAdapterEvents H answers.queryEvents).lane index).room = 0) := by
  unfold query
  split
  next hno =>
    refine iff_of_true (publish_lost ?_) (by simp [hno])
    simp only [length_singleton]
    omega
  next kind' hso =>
    dsimp only
    split
    next hok => exact iff_of_true handleAdapterEvents_lost (by simp [hok])
    next hne =>
    have hb' : index < (api.handleAdapterEvents H answers.queryEvents).lanes.length := by
      rw [lanes_length_congr (handleAdapterEvents_sameControls H api _).controls]
      exact hb
    have hevs : (api.handleAdapterEvents H answers.queryEvents).lost = api.lost := handleAdapterEvents_lost
    rw [← hevs, publish_lost_iff hb', hso]
    simp only [length_singleton, ne_eq, hne, not_false_eq_true, reduceCtorEq, true_and]
    omega

theorem processCommand_lost_iff (h : EngineReach H.orders api.engine)
    (hp : (api.processCommand H index command answers).1 = true) :
    (api.processCommand H index command answers).2.lost = api.lost ↔ ¬Overflows H api index command answers := by
  have hv := h.valid
  obtain ⟨hroom, hexec⟩ := processCommand_of_true hp
  have hb := index_lt_of_hasRoom hroom command.required_pos
  rw [hasRoom_iff] at hroom
  rw [hexec]
  have hexec := execute_executes H api index command answers
  generalize api.execute H index command answers = api' at hexec
  cases hexec with
  | nothing htok => exact iff_of_true rfl fun hover => hover.token htok
  | refused htok =>
    refine iff_of_true (publish_lost ?_) fun hover => hover.token htok
    have hlen := command.results_length .invalidArgument
    have hpos := command.required_pos
    simp only [map_nil, nil_append]
    omega
  | ran hq htok hran => exact (report_lost_iff hb htok hran).trans (hran.updates_length hv htok hq hroom)
  | @queried kind token request lane hc htok =>
    subst hc
    have hacc := validateToken_eq_some htok
    have hself := lane_setLane_self hb lane
    have hlost : (api.setLane index lane).lost = api.lost := setLane_lost_self (by rw [hacc.eq])
    rw [← hlost, query_lost_iff (by simpa [setLane] using hb) (by rw [hself, hacc.room]; exact hroom)]
    refine not_congr ⟨?_, fun hover => ?_⟩
    · rintro ⟨ha, hr, hf⟩
      exact ⟨ha, hr, lane, htok, hf⟩
    · obtain ⟨lane', htok', hf⟩ := QueryOverflows.full hover
      rw [htok] at htok'
      cases htok'
      have haccount : api.accountAdapter request.accountId ≠ none := QueryOverflows.account hover
      exact ⟨haccount, QueryOverflows.refused hover, hf⟩

def sampleReady : OmsApi := sampleNarrow.performAll sourceRuntimeHashes [.initializeLane 1 1]

theorem sampleReady_reach : OwnerReach sourceRuntimeHashes sampleReady :=
  .between (OmsReach.performAll (.start (some_get _).symm) _)

theorem processCommand_lost_accepted :
    (sampleReady.processCommand sourceRuntimeHashes 0 (.place sampleOrder) sampleAnswers).2.lost =
      sampleReady.lost :=
  (processCommand_lost_iff sampleReady_reach.engineReach (by decide +kernel)).mpr fun h => h.refused rfl

/-- A place finds the two slots it asks for. The adapter refuses the commit, the submission and
the rejection take both slots, and the result of the command is lost. -/
theorem processCommand_loses_result :
    let answers := { sampleAnswers with commitPlace := .notReady }
    let done := sampleReady.processCommand sourceRuntimeHashes 0 (.place sampleOrder) answers
    OwnerReach sourceRuntimeHashes sampleReady ∧ done.1 = true ∧
    (done.2.lane 0).updates.map RuntimeUpdate.engineUpdate =
      [some (.order { type := .submitted, handle := ⟨0, 0, 1⟩, token := ⟨1, 1, 1⟩
                      clientOrderId := ⟨[65]⟩, venueOrderId := ⟨[]⟩
                      status := .pendingSubmit, inflight := .submit }),
       some (.order { type := .rejected, handle := ⟨0, 0, 1⟩, token := ⟨1, 1, 1⟩
                      clientOrderId := ⟨[65]⟩, venueOrderId := ⟨[]⟩
                      status := .rejected, inflight := .none })] ∧
    (done.2.lane 0).lost = [.commandResult .place .notReady (.cancel {} {})] :=
  ⟨sampleReady_reach, by decide +kernel, by decide +kernel, by decide +kernel⟩

end SelfQuant.Oms
