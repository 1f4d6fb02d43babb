import SelfQuant.OmsUpdateRoom

namespace SelfQuant.Oms

open List Function OrderTable StateEngine Lane OmsApi SinkUpdate

variable {H : RuntimeHashes} {api : OmsApi} {command : RuntimeCommand} {answers : Answers} {done : Executed}
  {o o' o'' : OrderMap} {updates updates' : List SinkUpdate} {cause : Cause} {token : RequestToken}
  {s : StateEngine} {id : Nat}

/-- Every order of `o'` that is not in `o` with the same status has an update. -/
def Told (o o' : OrderMap) (updates : List SinkUpdate) : Prop :=
  ∀ slot r', o' slot = some r' →
    (∃ r, o slot = some r ∧ r.generation = r'.generation ∧ r.request = r'.request ∧ r.status = r'.status) ∨
    ∃ u ∈ updates, u.handle = ⟨slot, 0, r'.generation⟩ ∧ u.token = r'.request.token

theorem Told.refl (updates : List SinkUpdate) : Told o o updates := fun _ _ ho => .inl ⟨_, ho, rfl, rfl, rfl⟩

theorem Told.trans (h : Told o o' updates) (h' : Told o' o'' updates') : Told o o'' (updates ++ updates') := by
  intro slot r'' ho''
  rcases h' slot r'' ho'' with ⟨r', ho', hg', hr', hs'⟩ | ⟨u, hu, huu⟩
  · rcases h slot r' ho' with ⟨r, ho, hg, hr, hs⟩ | ⟨u, hu, hh, ht⟩
    · exact .inl ⟨r, ho, hg.trans hg', hr.trans hr', hs.trans hs'⟩
    · exact .inr ⟨u, mem_append_left _ hu, hg' ▸ hh, hr' ▸ ht⟩
  · exact .inr ⟨u, mem_append_right _ hu, huu⟩

theorem Effect.told (h : Effect cause o o' updates) : Told o o' updates := by
  intro slot r' ho'
  cases h with
  | quiet hd => exact .inl ⟨r', hd.of_some ho', rfl, rfl, rfl⟩
  | erased s => exact .inl ⟨r', (of_update_none ho').2, rfl, rfl, rfl⟩
  | @placed o₁ sub handle hc hz hd =>
    obtain ⟨rfl, he⟩ | ⟨-, ho'⟩ := update_eq_some.mp ho'
    · cases he
      exact .inr ⟨_, mem_singleton_self _, by cases handle; cases hz; rfl, rfl⟩
    · exact .inl ⟨r', hd.of_some ho', rfl, rfl, rfl⟩
  | @changed s r₀ r₁ updates ho hsts hc hu ht =>
    obtain ⟨rfl, he⟩ | ⟨-, ho'⟩ := update_eq_some.mp ho'
    · cases he
      obtain ⟨hreq, hgen⟩ := RecordSteps.identity hsts
      rcases ht with ht | hne
      · exact .inl ⟨r₀, ho, hgen.symm, hreq.symm, ht.symm⟩
      · obtain ⟨u, hmem⟩ := exists_mem_of_ne_nil _ hne
        obtain ⟨htok, hh⟩ := hu u hmem
        exact .inr ⟨u, hmem, hgen ▸ hh, hreq ▸ htok⟩
    · exact .inl ⟨r', ho', rfl, rfl, rfl⟩

theorem perform_told {H : OrderHashes} (hv : s.orders.Valid H) (op : EngineOp) :
    Told s.orders.order (s.perform H op).engine.orders.order (stage [] (s.perform H op).updates) := by
  rw [stage_nil (s.perform_updates_length op)]
  exact (perform_spec hv op).2.2.2.told

theorem Ran.told (h : Ran H api command answers done) (hv : api.engine.orders.Valid H.orders) :
    Told api.engine.orders.order done.api.engine.orders.order done.staged := by
  cases h with
  | quiet => exact Told.refl _
  | unplaced hc he => exact perform_told hv (.submit _)
  | placed hc ho he hd =>
    subst ho
    rw [(commitPlaced_only hd).engine]
    exact perform_told hv (.submit _)
  | @rejected sub out error api' hc hr ho he hne hd =>
    subst ho
    obtain ⟨hv', -, -, hpl⟩ := perform_spec hv (.submit sub)
    obtain ⟨-, -, -, hrej⟩ := perform_spec hv' (.rejectLocal (api.engine.submit H.orders sub).handle)
    have hl := submit_updates_length (H := H.orders) (s := api.engine) sub
    rw [(commitPlaced_only hd).engine, stage_nil hl, stage_append hl (rejectLocal_updates_length _)]
    exact hpl.told.trans hrej.told
  | canceled hc ho hr =>
    subst ho
    exact perform_told hv (.requestCancel _)
  | erased => exact perform_told hv (.eraseTerminalByInstrument _)
  | @expired request out hc hm ho =>
    subst ho
    rcases expireOneForRetirement_spec hv request.instrumentId with ⟨_, he, _⟩ | ⟨_, _, _, _, _, hw⟩
    · rw [he]
      exact Told.refl _
    · dsimp only
      rw [if_pos hw.ok]
      exact perform_told hv (.expireOneForRetirement _)

def Owns (t : OrderTable) (id : Nat) : RuntimeCommand → Prop
  | .cancel request => ∀ slot < t.records.length, ∀ r ∈ t.order slot,
      r.request.token = request.targetToken → r.request.token.lane = id
  | .retireInstrument request => request.mode = .lifecycleEnded →
      ∀ slot < t.records.length, ∀ r ∈ t.order slot,
        r.request.instrumentId = request.instrumentId → ¬isTerminal r.status →
        r.request.token.lane = id
  | _ => True

instance (t : OrderTable) (id : Nat) (command : RuntimeCommand) : Decidable (Owns t id command) := by
  unfold Owns
  split <;> infer_instance

namespace StateEngine

variable {H : OrderHashes} {s : StateEngine} {sub : SubmitOrderRequest}

theorem submit_updates_token (hv : s.orders.Valid H) (hok : (s.submit H sub).error = .ok) :
    ∀ u ∈ (s.submit H sub).updates, u.token = sub.order.token := by
  obtain ⟨_, _, _, ⟨hne, _⟩ | ⟨_, _, _, _, hups⟩⟩ := submit_spec hv sub
  · exact absurd hok hne
  · rw [hups]
    simp [emitOrder, token, freshRecord]

theorem rejectLocal_updates_token (hv : s.orders.Valid H) (hok : (s.submit H sub).error = .ok) :
    ∀ u ∈ ((s.submit H sub).engine.rejectLocal (s.submit H sub).handle).updates, u.token = sub.order.token := by
  obtain ⟨hv', hlv⟩ := submit_liveOrder hv hok
  intro u hu
  rcases rejectLocal_spec hv' (s.submit H sub).handle with ⟨_, _, hnil⟩ | ⟨r, hr, _, _, hw⟩
  · simp [hnil] at hu
  · obtain ⟨type, rfl⟩ := hw.updates u hu
    rw [hlv] at hr
    cases hr
    rfl

end StateEngine

theorem Ran.staged_lane (h : Ran H api command answers done) (hv : api.engine.orders.Valid H.orders)
    (htok : command.token.lane = id) (howns : Owns api.engine.orders id command) :
    ∀ u ∈ done.staged, u.token.lane = id := by
  cases h with
  | quiet | erased => simp
  | @unplaced sub hc he =>
    obtain ⟨_, _, _, ⟨_, _, hu⟩ | ⟨hok, _⟩⟩ := submit_spec hv sub
    · simp [stage, hu]
    · exact absurd hok he
  | @placed sub out api' hc ho he hd =>
    subst hc ho
    intro u hu
    rw [submit_updates_token hv he u (mem_of_mem_take hu)]
    exact htok
  | @rejected sub out error api' hc hr ho he hne hd =>
    subst hc ho
    intro u hu
    rw [(commitPlaced_only hd).engine] at hu
    rcases mem_append.mp (mem_of_mem_take hu) with hu | hu
    · rw [submit_updates_token hv he u (mem_of_mem_take hu)]
      exact htok
    · rw [rejectLocal_updates_token hv he u hu]
      exact htok
  | @canceled request out hc ho hr =>
    subst hc ho
    rcases requestCancel_spec hv request.targetToken with ⟨_, _, hu⟩ | ⟨slot, r, ho, hrt, _, _, hw⟩
    · simp [stage, hu]
    · intro u hu
      obtain ⟨type, rfl⟩ := hw.updates u (mem_of_mem_take hu)
      exact howns slot (order_eq_some ho).1 r ho hrt
  | @expired request out hc hm ho =>
    subst hc ho
    intro u hu
    split at hu
    next hok =>
      rcases expireOneForRetirement_spec hv request.instrumentId with ⟨hne, _⟩ | ⟨slot, r, ho, hi, hs, hw⟩
      · exact absurd hok hne
      · obtain ⟨type, rfl⟩ := hw.updates u (mem_of_mem_take hu)
        exact howns hm slot (order_eq_some ho).1 r ho hi hs
    next => simp at hu

variable {api' api₁ : OmsApi} {index now : Nat} {lane : Lane} {rest : List RuntimeUpdate}

def news (api api' : OmsApi) (index : Nat) : List RuntimeUpdate :=
  (api'.lane index).published.drop (api.lane index).published.length

/-- From `api` to `api'` the lanes are only given updates of their own orders, and an order that is
new or has another status is reported to its lane. -/
structure Tells (api api' : OmsApi) : Prop where
  laneId : ∀ index, (api'.lane index).laneId = (api.lane index).laneId
  grows : ∀ index, (api'.lane index).published = (api.lane index).published ++ news api api' index
  home : ∀ index, ∀ update ∈ news api api' index, ∀ e, update.engineUpdate = some e →
    e.token.lane = (api.lane index).laneId
  told : ∀ slot r', api'.engine.orders.order slot = some r' →
    (∃ r, api.engine.orders.order slot = some r ∧ r.generation = r'.generation ∧
      r.request = r'.request ∧ r.status = r'.status) ∨
    ∃ index, (api.lane index).laneId = r'.request.token.lane ∧
      ∃ update ∈ news api api' index, ∃ e, update.engineUpdate = some e ∧ e.handle = ⟨slot, 0, r'.generation⟩

structure SameRings (api api' : OmsApi) : Prop where
  laneId : ∀ index, (api'.lane index).laneId = (api.lane index).laneId
  published : ∀ index, (api'.lane index).published = (api.lane index).published
  room : ∀ index, (api'.lane index).room = (api.lane index).room

theorem SameRings.of_lanes (h : api'.lanes = api.lanes) : SameRings api api' := by
  have hl := lane_congr h
  exact ⟨fun i => by rw [hl], fun i => by rw [hl], fun i => by rw [hl]⟩

theorem OmsApi.lane_setLane_cases (index : Nat) (lane : Lane) (i : Nat) :
    (api.setLane index lane).lane i = api.lane i ∨ (i = index ∧ (api.setLane index lane).lane i = lane) := by
  by_cases hi : i = index
  · subst hi
    by_cases hb : i < api.lanes.length
    · exact .inr ⟨rfl, lane_setLane_self hb lane⟩
    · exact .inl (by simp [setLane, set_eq_of_length_le (not_lt.mp hb)])
  · exact .inl (lane_setLane_ne hi lane)

theorem SameRings.of_setLane (hid : lane.laneId = (api.lane index).laneId)
    (hp : lane.published = (api.lane index).published) (hr : lane.room = (api.lane index).room) :
    SameRings api (api.setLane index lane) := by
  refine ⟨fun i => ?_, fun i => ?_, fun i => ?_⟩ <;>
    rcases api.lane_setLane_cases index lane i with h | ⟨rfl, h⟩ <;> rw [h]
  · exact hid
  · exact hp
  · exact hr

theorem SameRings.trans {api'' : OmsApi} (h : SameRings api api') (h' : SameRings api' api'') : SameRings api api'' :=
  ⟨fun i => (h'.laneId i).trans (h.laneId i), fun i => (h'.published i).trans (h.published i),
    fun i => (h'.room i).trans (h.room i)⟩

theorem SinkUpdate.engineUpdate_staged (u : SinkUpdate) : u.staged.engineUpdate = some u := by
  cases u <;> rfl

section

variable (given : Nat → List RuntimeUpdate) (hid : ∀ i, (api'.lane i).laneId = (api.lane i).laneId)
  (hgiven : ∀ i, (api'.lane i).published = (api.lane i).published ++ given i)

include hid hgiven

theorem Tells.of_given (updates : List SinkUpdate)
    (hhome : ∀ i, ∀ update ∈ given i, ∀ e, update.engineUpdate = some e → e.token.lane = (api.lane i).laneId)
    (hto : Told api.engine.orders.order api'.engine.orders.order updates)
    (hall : ∀ u ∈ updates, ∃ i, u.staged ∈ given i) : Tells api api' := by
  have hnews : ∀ i, news api api' i = given i := fun i => by
    rw [news, hgiven, drop_left]
  refine ⟨hid, fun i => by rw [hnews]; exact hgiven i, fun i => by rw [hnews]; exact hhome i, ?_⟩
  intro slot r' ho'
  rcases hto slot r' ho' with h | ⟨u, hu, hh, ht⟩
  · exact .inl h
  · obtain ⟨i, hmem⟩ := hall u hu
    refine .inr ⟨i, ?_, u.staged, by rw [hnews]; exact hmem, u, u.engineUpdate_staged, hh⟩
    rw [← ht]
    exact (hhome i u.staged hmem u u.engineUpdate_staged).symm

theorem Tells.of_quiet (hno : ∀ i, ∀ update ∈ given i, update.engineUpdate = none)
    (ho : api'.engine.orders.order = api.engine.orders.order) : Tells api api' := by
  refine .of_given given hid hgiven [] (fun i update hmem e he => ?_) ?_ (by simp)
  · rw [hno i update hmem] at he
    cases he
  · rw [ho]
    exact Told.refl _

end

theorem SameRings.tells (h : SameRings api api')
    (ho : api'.engine.orders.order = api.engine.orders.order) : Tells api api' :=
  .of_quiet (fun _ => []) h.laneId (fun i => by rw [h.published, append_nil]) (by simp) ho

theorem Tells.of_setLane (hid : lane.laneId = (api.lane index).laneId)
    (hp : lane.published = (api.lane index).published) : Tells api (api.setLane index lane) := by
  refine .of_quiet (fun _ => []) (fun i => ?_) (fun i => ?_) (by simp) rfl <;>
    rcases api.lane_setLane_cases index lane i with h | ⟨rfl, h⟩ <;> rw [h]
  · exact hid
  · rw [append_nil]
  · rw [hp, append_nil]

theorem Tells.of_frame (hl : api'.lanes = api.lanes) (he : api'.engine = api.engine) :
    Tells api api' := (SameRings.of_lanes hl).tells (by rw [he])

theorem Tells.of_publish (hrgs : SameRings api api₁)
    (hto : Told api.engine.orders.order api₁.engine.orders.order updates)
    (hb : index < api₁.lanes.length) (hrm : updates.length ≤ (api.lane index).room)
    (hln : ∀ u ∈ updates, u.token.lane = (api.lane index).laneId)
    (hrs : ∀ update ∈ rest, update.engineUpdate = none) :
    Tells api (api₁.publish index (updates.map staged ++ rest)) := by
  have hsf := lane_publish_self hb (updates.map staged ++ rest)
  have hne : ∀ i, i ≠ index → (api₁.publish index (updates.map staged ++ rest)).lane i =
      api₁.lane i := fun i hi => lane_setLane_ne hi _
  refine .of_given (fun i => if i = index then
    (updates.map staged ++ rest).take (api.lane index).room else [])
    (fun i => ?_) (fun i => ?_) updates (fun i update hmem e he => ?_) hto fun u hu => ⟨index, ?_⟩
  · by_cases hi : i = index
    · subst hi
      rw [hsf, publishAll_eq]
      exact hrgs.laneId i
    · rw [hne i hi, hrgs.laneId]
  · by_cases hi : i = index
    · subst hi
      rw [hsf, publishAll_published, hrgs.published, hrgs.room, if_pos rfl]
    · rw [hne i hi, hrgs.published, if_neg hi, append_nil]
  · by_cases hi : i = index
    · subst hi
      rw [if_pos rfl] at hmem
      rcases mem_append.mp (mem_of_mem_take hmem) with hmem | hmem
      · obtain ⟨u, hu, rfl⟩ := mem_map.mp hmem
        rw [u.engineUpdate_staged] at he
        cases he
        exact hln _ hu
      · rw [hrs update hmem] at he
        cases he
    · rw [if_neg hi] at hmem
      cases hmem
  · rw [if_pos rfl, take_append, take_of_length_le (by simpa using hrm)]
    exact mem_append_left _ (mem_map_of_mem hu)

theorem Tells.of_publish_rest (hb : index < api.lanes.length)
    (hrs : ∀ update ∈ rest, update.engineUpdate = none) : Tells api (api.publish index rest) :=
  of_publish (SameRings.of_lanes rfl) (Told.refl []) hb (Nat.zero_le _) (by simp) hrs

variable {slot : Nat} {event : VenueEvent}

abbrev TellsAll := Relation.ReflTransGen Tells

theorem Identified.eventRecord {t : OrderTable} (h : Identified H.orders t event slot) :
    eventRecord H t event = some slot := by
  unfold OmsApi.eventRecord
  by_cases hh : event.handle.generation ≠ 0
  · simp [hh, h.handle hh]
  by_cases ht : event.token.sequence ≠ 0
  · simp [hh, ht, h.token ht]
  by_cases hc : event.clientOrderId.length ≠ 0
  · simp [hh, ht, hc, h.client hc]
  rcases h.named with hn | hn | hn | hn
  · exact absurd hn hh
  · exact absurd hn ht
  · exact absurd hn hc
  · simp [hh, ht, hc, hn.1, hn.2]

theorem eventLane_owner (hv : api.engine.orders.Valid H.orders) (hl : api.eventLane H event = some index)
    {r : OrderRecord} (hid : Identified H.orders api.engine.orders event slot)
    (ho : api.engine.orders.order slot = some r) : r.request.token.lane = (api.lane index).laneId := by
  unfold eventLane at hl
  split at hl
  next hseq =>
    obtain ⟨r', ho', htok⟩ := hv.findToken_iff.mp (hid.token hseq)
    rw [ho] at ho'
    cases ho'
    rw [htok]
    exact (findLane_eq_some hl).2.symm
  next =>
    rw [hid.eventRecord] at hl
    rw [(order_eq_some ho).2.2]
    exact (findLane_eq_some hl).2.symm

theorem apply_updates_lane (hv : s.orders.Valid H.orders)
    (howner : ∀ slot r, Identified H.orders s.orders event slot → s.orders.order slot = some r →
      r.request.token.lane = id) :
    ∀ u ∈ (s.apply H.orders event).updates, u.token.lane = id := by
  rcases apply_spec hv event with ⟨_, _, hu⟩ | ⟨slot, r, s₁, r₁, hr, ha⟩
  · simp [hu]
  · intro u hu
    generalize s.apply H.orders event = out at hu ha
    have heff := AppliedAt.effect hr ha
    generalize out.updates = updates at hu heff
    generalize out.engine.orders.order = o' at heff
    cases heff with
    | quiet | erased => cases hu
    | placed hc => cases hc
    | changed ho _ hat hut =>
      cases hat
      rw [(hut u hu).1]
      exact howner slot _ hr.identified ho

theorem apply_refused_updates (hv : s.orders.Valid H.orders)
    (he : (s.apply H.orders event).error ≠ .ok) : (s.apply H.orders event).updates = [] := by
  rcases apply_spec hv event with ⟨_, _, hu⟩ | ⟨slot, r, s₁, r₁, hr, ha⟩
  · exact hu
  · cases ha with
    | refused _ _ hu => exact hu
    | reacted _ _ hw => exact absurd hw.ok he
    | duplicate _ _ _ hok => exact absurd hok he
    | filled _ _ _ hf => exact absurd hf.ok he

namespace OmsApi

theorem expireEvent_slot {t : OrderTable} {handle : OrderHandle} {slot' : Nat}
    (hl : t.lookup handle = some slot) (hid : Identified H.orders t (expireEvent handle) slot') :
    slot' = slot := by
  obtain ⟨he, hg, _⟩ := lookup_eq_some hl
  have hs : t.lookup handle = some slot' := hid.handle (by rw [he]; exact hg)
  rw [hl] at hs
  exact (Option.some.inj hs).symm

theorem VenueHandled.tells (h : VenueHandled H api event api')
    (hv : api.engine.orders.Valid H.orders) : Tells api api' := by
  cases h with
  | ignored h => exact .of_frame h.lanes h.engine
  | failed he h =>
    have hrgs : SameRings api api' := .of_lanes h.lanes
    refine .of_given (fun _ => []) hrgs.laneId (fun i => by rw [hrgs.published, append_nil]) [] (by simp) ?_ (by simp)
    have ht := perform_told hv (.apply event)
    rw [show (api.engine.perform H.orders (.apply event)).updates = [] from apply_refused_updates hv he] at ht
    rw [h.engine]
    exact ht
  | @applied index out hl hr ho he =>
    subst ho
    have hb := index_lt_of_hasRoom hr (by omega)
    rw [hasRoom_iff] at hr
    rw [← append_nil (map _ _)]
    refine .of_publish (.of_lanes (withdraw_only _).lanes) ?_ ?_ ?_ ?_ (by simp)
    · rw [(withdraw_only _).engine]
      exact perform_told hv (.apply event)
    · rw [(withdraw_only _).lanes]
      exact hb
    · exact le_trans (by simp [stage]) hr
    · intro u hu
      exact apply_updates_lane hv (fun slot r hid ho => eventLane_owner hv hl hid ho) u (mem_of_mem_take hu)

theorem EventHandled.tells (h : EventHandled H api api') (hv : api.engine.orders.Valid H.orders) : Tells api api' := by
  cases h with
  | venue h => exact h.tells hv
  | ignored => exact .of_frame rfl rfl
  | forwarded hu hr => exact .of_publish_rest (index_lt_of_hasRoom hr (by omega)) (by simpa using hu)
  | @broadcast update hu hall =>
    refine .of_quiet (fun i => if i < api.lanes.length then [update] else []) (fun i => ?_)
      (fun i => ?_) (fun i update' hmem => ?_) rfl
    · by_cases hb : i < api.lanes.length
      · simp [lane, hb, publish_eq_publishAll, publishAll_eq]
      · simp [lane, hb]
    · by_cases hb : i < api.lanes.length
      · have hr := hall _ (getElem_mem hb)
        rw [hasRoom_iff] at hr
        rw [if_pos hb]
        simp only [lane, getElem?_map, getElem?_eq_getElem hb, Option.map_some, Option.getD_some]
        rw [publish_eq_publishAll, publishAll_published, take_of_length_le hr]
      · simp [lane, hb]
    · split at hmem
      next =>
        cases mem_singleton.mp hmem
        exact hu
      next => cases hmem

theorem DeadlineTurn.tells {goes : Bool} (h : DeadlineTurn H now api api' goes)
    (hv : api.engine.orders.Valid H.orders) : Tells api api' := by
  cases h with
  | failed | dropped => exact .of_frame rfl rfl
  | retried => exact .of_frame retryDeadline_only.lanes retryDeadline_only.engine
  | @expired due scheduler handle slot index hp hh hl hi hr =>
    rw [hasRoom_iff] at hr
    unfold expireOrder
    dsimp only
    rw [← append_nil (map _ _)]
    refine .of_publish (.of_lanes rfl) (perform_told hv (.apply (expireEvent handle)))
      (findLane_eq_some hi).1 (le_trans (by simp [stage]) hr) (fun u hu => ?_) (by simp)
    refine apply_updates_lane hv (fun slot' r hid ho => ?_) u (mem_of_mem_take hu)
    obtain rfl := expireEvent_slot hl hid
    rw [(order_eq_some ho).2.2]
    exact (findLane_eq_some hi).2.symm

theorem query_tells (hr : EngineReach H.orders api.engine) (hb : index < api.lanes.length)
    (kind : QueryKind) (request : QueryRequest) :
    TellsAll api (api.query H index kind token request answers) := by
  refine (query_reach (P := fun api' => SameControls api api' ∧ TellsAll api api') (fun he hr h => ?_)
    (fun hu h => ?_) hr ⟨.refl, .refl⟩).2
  · exact ⟨h.1.trans he.sameControls, h.2.tail (he.tells hr.valid)⟩
  · refine ⟨h.1.trans (publish_sameControls _), h.2.tail (.of_publish_rest ?_ (by simpa using hu))⟩
    rw [lanes_length_congr h.1.controls]
    exact hb

end OmsApi

theorem Ran.staged_length (h : Ran H api command answers done) : done.staged.length ≤ command.required := by
  have hpos := command.required_pos
  cases h with
  | quiet | erased => exact Nat.zero_le _
  | unplaced hc => exact (stage_nil_length (submit_updates_length _)).trans hpos
  | placed hc ho => exact (stage_nil_length (ho ▸ submit_updates_length _)).trans hpos
  | rejected hc =>
    subst hc
    exact le_trans (by simp [stage]) (two_le_required_place _)
  | canceled hc ho => exact (stage_nil_length (ho ▸ requestCancel_updates_length _)).trans hpos
  | expired hc hm ho =>
    split
    next => exact (stage_nil_length (ho ▸ expireOneForRetirement_updates_length _)).trans hpos
    next => exact Nat.zero_le _

theorem OmsApi.Executes.tells (h : Executes H api index command answers api')
    (hr : EngineReach H.orders api.engine) (hrm : (api.lane index).hasRoom command.required)
    (howns : Owns api.engine.orders (api.lane index).laneId command) : TellsAll api api' := by
  have hb := index_lt_of_hasRoom hrm command.required_pos
  rw [hasRoom_iff] at hrm
  cases h with
  | nothing => exact .refl
  | refused => exact .single (.of_publish_rest hb fun _ => RuntimeCommand.results_engineUpdate)
  | @ran lane done hq hv h =>
    have hacc := validateToken_eq_some hv
    refine .single (.of_publish ?_ (h.told hr.valid) ?_ (h.staged_length.trans hrm) ?_
      fun _ => RuntimeCommand.results_engineUpdate)
    · exact (SameRings.of_setLane (by rw [hacc.eq]) (by rw [hacc.eq]; rfl) hacc.room).trans
        (.of_lanes h.lanes)
    · rw [h.lanes]
      simpa [setLane] using hb
    · exact h.staged_lane hr.valid hacc.home howns
  | @queried kind token request lane hc hv =>
    have hacc := validateToken_eq_some hv
    have hr' : EngineReach H.orders (api.setLane index lane).engine := hr
    exact .head (.of_setLane (by rw [hacc.eq]) (by rw [hacc.eq]; rfl))
      (query_tells hr' (by simpa [setLane] using hb) _ _)

end SelfQuant.Oms
