import SelfQuant.OmsUpdateRoom

namespace SelfQuant.Oms

open List OrderTable OmsApi RuntimeCommand

variable {H : RuntimeHashes} {api api' : OmsApi} {index : Nat} {command : RuntimeCommand}
  {answers : Answers} {done : Executed} {event : VenueEvent} {step : ApiStep} {history : List RequestToken}

def departed (t t' : OrderTable) : List RequestToken :=
  (range t.records.length).filterMap fun slot => (t.order slot).bind fun r =>
    if (t'.order slot).map (fun r' => r'.request.token) = some r.request.token then none
    else some r.request.token

variable {t t' : OrderTable}

theorem departed_nil (h : ∀ {slot r}, t.order slot = some r →
    ∃ r', t'.order slot = some r' ∧ r'.request.token = r.request.token) : departed t t' = [] := by
  refine filterMap_eq_nil_iff.mpr fun slot _ => ?_
  cases ho : t.order slot with
  | none => rfl
  | some r =>
    obtain ⟨r', ho', htok⟩ := h ho
    simp [ho', htok]

theorem departed_withoutHeld {inst : InstrumentId}
    (h : t'.order = withoutHeld t.order inst (range t.records.length)) :
    departed t t' = heldTokens t.order inst (range t.records.length) := by
  refine filterMap_congr fun slot hmem => ?_
  rw [h]
  cases ho : t.order slot with
  | none => simp [heldOrder, ho]
  | some r =>
    by_cases hi : r.request.instrumentId = inst
    · have hhd : heldOrder t.order inst slot = some r := heldOrder_eq_some.mpr ⟨ho, hi⟩
      simp only [withoutHeld, hmem, hhd]
      simp
    · have hhd : heldOrder t.order inst slot = none := by
        simp [heldOrder, ho, hi]
      simp only [withoutHeld, hhd]
      simp [ho]

theorem Ran.remembers_departed (h : Ran H api command answers done) (hv : api.engine.orders.Valid H.orders)
    (hc : command.isRetire = true) (hm : api.engine.orders.Remembers history) :
    done.api.engine.orders.Remembers (history ++ departed api.engine.orders done.api.engine.orders) := by
  cases h with
  | quiet => rw [departed_nil fun ho => ⟨_, ho, rfl⟩, append_nil]; exact hm
  | unplaced hp | placed hp | rejected hp | canceled hp => subst hp; cases hc
  | @erased request directory result hp =>
    rcases eraseTerminalByInstrument_spec hv with ⟨_, he, _⟩ | ⟨t', he, _, _, ho, _, hm'⟩
    · rw [he, departed_nil fun ho => ⟨_, ho, rfl⟩, append_nil]
      exact hm
    · rw [he, departed_withoutHeld ho]
      exact hm' history hm
  | @expired request out hp hl ho =>
    subst ho
    rcases StateEngine.expireOneForRetirement_spec hv request.instrumentId with ⟨_, he, _⟩ | ⟨slot, r, ho, _, _, hw⟩
    · rw [he, departed_nil fun ho => ⟨_, ho, rfl⟩, append_nil]
      exact hm
    · rw [departed_nil, append_nil]
      · exact hw.keeps.framed.remembers hm
      · intro slot' r' ho'
        rw [hw.order]
        by_cases hs : slot' = slot
        · subst hs
          rw [ho] at ho'
          cases ho'
          exact ⟨_, Function.update_self .., rfl⟩
        · exact ⟨r', by rw [Function.update_of_ne hs]; exact ho', rfl⟩

def retires (api : OmsApi) (step : ApiStep) : Bool :=
  match step with
  | .retireInstrument .. => decide (api.mode = .inline)
  | .ownerCommand index _ => (api.lane index).commands.head?.any isRetire
  | _ => false

def retiredIn (api : OmsApi) (step : ApiStep) (api' : OmsApi) : List RequestToken :=
  if retires api step then departed api.engine.orders api'.engine.orders else []

theorem OmsApi.Executes.remembers (h : Executes H api index command answers api')
    (hr : EngineReach H.orders api.engine) (hm : api.engine.orders.Remembers history) :
    api'.engine.orders.Remembers (history ++
      if command.isRetire then departed api.engine.orders api'.engine.orders else []) := by
  have hsm : ∀ {api₁ : OmsApi}, api₁.engine = api.engine → api₁.engine.orders.Remembers (history ++
      if command.isRetire then departed api.engine.orders api₁.engine.orders else []) := by
    intro api₁ he
    rw [he, departed_nil fun ho => ⟨_, ho, rfl⟩, ite_self, append_nil]
    exact hm
  cases h with
  | nothing | refused => exact hsm rfl
  | ran hq hv h =>
    cases hc : command.isRetire with
    | true => exact h.remembers_departed hr.valid hc hm
    | false =>
      rw [if_neg (by simp), append_nil]
      exact (h.framed hr.valid hc).remembers hm
  | @queried kind token request lane hc hv =>
    subst hc
    have hr' : EngineReach H.orders (api.setLane index lane).engine := hr
    rw [if_neg (by simp [isRetire]), append_nil]
    exact (VenueSteps.framed hr' (query_venueSteps _ _ _ _)).remembers hm

theorem Performed.remembers (h : Performed H api step api') (hr : EngineReach H.orders api.engine)
    (hm : api.engine.orders.Remembers history) :
    api'.engine.orders.Remembers (history ++ retiredIn api step api') := by
  have hsm : ∀ {api₁ : OmsApi}, api₁.engine = api.engine →
      api₁.engine.orders.Remembers (history ++ retiredIn api step api₁) := by
    intro api₁ he
    rw [retiredIn, he, departed_nil fun ho => ⟨_, ho, rfl⟩, ite_self, append_nil]
    exact hm
  cases h with
  | @called laneId room index build answers token lane hs hmd hi h hrm =>
    have hr' : EngineReach H.orders (api.setLane index lane).engine := hr
    have hretire : retires api step = (build token).isRetire := by
      cases hs <;> simp [retires, hmd, isRetire]
    rw [retiredIn, hretire]
    exact (execute_executes _ (api.setLane index lane) _ _ _).remembers hr' hm
  | @owner index command rest answers he hc hrm =>
    subst he
    have hretire : retires api (.ownerCommand index answers) = command.isRetire := by
      simp [retires, hc]
    rw [retiredIn, hretire]
    exact (execute_executes _ api _ _ _).remembers hr hm
  | deadlines he =>
    subst he
    rw [retiredIn, if_neg (by simp [retires]), append_nil]
    exact (VenueSteps.framed hr processDeadlines_venueSteps).remembers hm
  | event he =>
    subst he
    rw [retiredIn, if_neg (by simp [retires]), append_nil]
    exact (VenueSteps.framed hr (handleAdapterEvent_handled _).venueSteps).remembers hm
  | _ => exact hsm rfl

variable {placed retired : List RequestToken}

def tableTokens (t : OrderTable) : List RequestToken :=
  (range t.records.length).filterMap fun slot => (t.order slot).map fun r => r.request.token

/-- A run together with the tokens that were ever seen in the order table and, in order, those of
the orders that left it in a retirement. -/
inductive HistoryRun (H : RuntimeHashes) : OmsApi → List RequestToken → List RequestToken → Prop
  | start {config : RuntimeConfig} {timerErrors : List Nat} {api : OmsApi}
      (h : create H config timerErrors = some api) : HistoryRun H api [] []
  | next {api : OmsApi} {placed retired : List RequestToken} (h : HistoryRun H api placed retired)
      (step : ApiStep) :
      HistoryRun H (api.perform H step) (placed ++ tableTokens (api.perform H step).engine.orders)
        (retired ++ retiredIn api step (api.perform H step))

theorem handleVenueEvent_absent (hh : event.handle.generation = 0) (hseq : event.token.sequence ≠ 0)
    (habs : api.engine.orders.findToken H.orders event.token = none)
    (hi : api.findLane event.token.lane = some index) (hrm : (api.lane index).hasRoom 2) :
    api.handleVenueEvent H event =
      if api.engine.orders.wasRetiredToken event.token then (.ok, api.countLate event)
      else (.wouldBlock, api) := by
  have happ : api.engine.apply H.orders event = { error := .notFound, engine := api.engine } := by
    have hidentify : identify H.orders api.engine.orders event = .error .notFound := by
      simp [identify, identifyHandle, identifyToken, merge, hh, hseq, habs]
      rfl
    unfold StateEngine.apply resolve
    rw [hidentify]
  unfold handleVenueEvent eventLane
  rw [if_pos hseq, hi]
  dsimp only
  rw [hrm, happ]
  simp [hseq]

def placedAlong (H : RuntimeHashes) : OmsApi → List ApiStep → List RequestToken
  | _, [] => []
  | api, step :: steps => tableTokens (api.perform H step).engine.orders ++ placedAlong H (api.perform H step) steps

def retiredAlong (H : RuntimeHashes) : OmsApi → List ApiStep → List RequestToken
  | _, [] => []
  | api, step :: steps => retiredIn api step (api.perform H step) ++ retiredAlong H (api.perform H step) steps

def sampleReject : ApiStep := .ownerEvent (.venue { type := .newReject, token := ⟨1, 1, 1⟩ })

def sampleRetire : List ApiStep :=
  [.initializeLane 1 1, .submitOrder 1 sampleOrder sampleAnswers, sampleReject,
    .retireInstrument 1 7 .normal sampleAnswers]

def sampleReclaim : List ApiStep :=
  [.submitOrder 1 { sampleOrder with order := { sampleOrder.order with clientOrderId := ⟨[66]⟩ } } sampleAnswers,
    .submitOrder 1 { sampleOrder with order := { sampleOrder.order with clientOrderId := ⟨[67]⟩ } } sampleAnswers]

section

variable (h : HistoryRun H api placed retired)

include h

theorem HistoryRun.reach : OmsReach H api := by
  induction h with
  | start h => exact .start h
  | next _ step ih => exact .next ih step trivial

theorem HistoryRun.remembers : api.engine.orders.Remembers retired := by
  induction h with
  | start h =>
    obtain ⟨_, ho, _⟩ := create_orders (create_created h).engine
    exact create_remembers ho
  | next h step ih => exact (perform_performed H _ step).remembers (OmsRun.engineReach h.reach) ih

theorem HistoryRun.sequence_ne_zero {token : RequestToken} (ht : token ∈ placed) : token.sequence ≠ 0 := by
  induction h with
  | start => cases ht
  | next h step ih =>
    rcases List.mem_append.mp ht with ht | ht
    · exact ih ht
    · obtain ⟨slot, _, hmap⟩ := List.mem_filterMap.mp ht
      obtain ⟨r, ho, rfl⟩ := Option.map_eq_some_iff.mp hmap
      exact (OmsRun.valid (OmsRun.next h.reach step trivial)).tokenPos ho

theorem HistoryRun.performAll (steps : List ApiStep) :
    HistoryRun H (api.performAll H steps) (placed ++ placedAlong H api steps)
      (retired ++ retiredAlong H api steps) := by
  induction steps generalizing api placed retired with
  | nil => simpa [placedAlong, retiredAlong, performAll] using h
  | cons step steps ih =>
    rw [placedAlong, retiredAlong, ← append_assoc, ← append_assoc]
    exact ih (h.next step)

end

/-- A late event without handle is taken exactly when its order left the table in a retirement
and is among the last ones that did. -/
theorem lateEvent_taken_iff (h : HistoryRun H api placed retired) (ht : event.token ∈ placed)
    (hleft : event.token ∉ tableTokens api.engine.orders)
    (hh : event.handle.generation = 0) (hi : api.findLane event.token.lane = some index)
    (hroom : (api.lane index).hasRoom 2) :
    (api.handleAdapterEvent H (.venue event)).1 = .ok ↔
      event.token ∈ retired.drop (retired.length - retiredTokenCapacity) := by
  have hseq := h.sequence_ne_zero ht
  have habs : api.engine.orders.findToken H.orders event.token = none := by
    refine Option.eq_none_iff_forall_ne_some.mpr fun slot hf => ?_
    obtain ⟨r, ho, htok⟩ := (OmsRun.valid h.reach).findToken_iff.mp hf
    exact hleft (mem_filterMap.mpr ⟨slot, mem_range.mpr (order_eq_some ho).1, by simp [ho, htok]⟩)
  have hwas := h.remembers.wasRetiredToken event.token
  rw [handleAdapterEvent, handleVenueEvent_absent hh hseq habs hi hroom]
  split
  next hr => exact iff_of_true rfl (hwas.mp hr).2
  next hr => exact iff_of_false (by simp) fun hmem => hr (hwas.mpr ⟨hseq, hmem⟩)

theorem lateEvent_taken_sample :
    ((sampleApi.performAll sourceRuntimeHashes sampleRetire).handleAdapterEvent sourceRuntimeHashes
      (.venue { type := .fill, token := ⟨1, 1, 1⟩ })).1 = .ok := by
  have h : HistoryRun sourceRuntimeHashes sampleApi [] [] := .start (Option.some_get _).symm
  have hi : (sampleApi.performAll sourceRuntimeHashes sampleRetire).findLane 1 = some 0 := by
    decide +kernel
  exact (lateEvent_taken_iff (h.performAll sampleRetire) (by decide +kernel) (by decide +kernel)
    rfl hi (by decide +kernel)).mpr (by decide +kernel)

/-- A rejected order makes room for another one and is not remembered: a late event for it blocks
the adapter. -/
theorem lateEvent_blocks :
    let api := sampleApi.performAll sourceRuntimeHashes
      [.initializeLane 1 1, .submitOrder 1 sampleOrder sampleAnswers, sampleReject]
    let api' := api.performAll sourceRuntimeHashes sampleReclaim
    OmsReach sourceRuntimeHashes api ∧ ⟨1, 1, 1⟩ ∈ tableTokens api.engine.orders ∧
    tableTokens api'.engine.orders = [⟨1, 1, 3⟩, ⟨1, 1, 2⟩] ∧
    api'.findLane 1 = some 0 ∧ (api'.lane 0).hasRoom 2 ∧
    (api'.handleAdapterEvent sourceRuntimeHashes (.venue { type := .fill, token := ⟨1, 1, 1⟩ })).1 = .wouldBlock :=
  ⟨OmsReach.performAll sampleApi_run _, by decide +kernel, by decide +kernel, by decide +kernel,
    by decide +kernel, by decide +kernel⟩

end SelfQuant.Oms
