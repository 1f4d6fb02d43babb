import SelfQuant.OmsRouting

namespace SelfQuant.Oms

open Probe ExecutionDirectory OmsApi Option OmsReach

variable {H : RuntimeHashes} {api api' : OmsApi} {index now : Nat} {answers : Answers}
  {step : ApiStep} {allowed : OmsApi → ApiStep → Prop}

abbrev DirectorySteps (D : DirectoryHashes) := Relation.ReflTransGen fun d d' : ExecutionDirectory =>
  (∃ instrumentId routing, d' = (d.register D instrumentId routing).2) ∨
    ∃ instrumentId, d' = (d.retire D instrumentId false).2

theorem ExecutionDirectory.Indexed.steps {D : DirectoryHashes} {d d' : ExecutionDirectory}
    (hi : Indexed D d) (h : DirectorySteps D d d') : Indexed D d' := by
  induction h with
  | refl => exact hi
  | tail _ hs ih =>
    rcases hs with ⟨instrumentId, routing, rfl⟩ | ⟨instrumentId, rfl⟩
    · exact ih.registered instrumentId routing
    · exact ih.retired

namespace OmsApi

theorem DeadlinesOnly.directory (h : DeadlinesOnly api api') : api'.directory = api.directory := by
  rw [h]

theorem CountersOnly.directory (h : CountersOnly api api') : api'.directory = api.directory := by
  rw [h]

theorem VenueHandled.directory {event : VenueEvent} (h : VenueHandled H api event api') :
    api'.directory = api.directory := by
  cases h with
  | ignored h => exact h.directory
  | failed _ h => exact h.directory
  | applied => exact (withdraw_only _).directory

theorem EventHandled.directory (h : EventHandled H api api') : api'.directory = api.directory := by
  cases h with
  | venue h => exact h.directory
  | ignored | forwarded | broadcast => rfl

theorem withToken_directory {D : DirectoryHashes} {token : RequestToken} {run : OmsApi → Executed}
    (h : ∀ api : OmsApi, DirectorySteps D api.directory (run api).api.directory) :
    DirectorySteps D api.directory (api.withToken index token run).api.directory := by
  unfold withToken
  split
  next => exact .refl
  next lane _ => exact h (api.setLane index lane)

variable (H api)

theorem processDeadlines_directory : (api.processDeadlines H now).directory = api.directory := by
  refine deadlineLoop_keep (P := fun a => a.directory = api.directory) (fun ht hp => ?_) _ rfl
  cases ht with
  | failed | dropped | expired => exact hp
  | retried => exact retryDeadline_only.directory.trans hp

theorem place_directory (sub : SubmitOrderRequest) : (api.place H sub answers).api.directory = api.directory := by
  unfold place
  dsimp only
  split
  next => rfl
  split
  next => rfl
  split
  next hd => exact (commitPlaced_only hd).directory
  next hd => exact (commitPlaced_only hd).directory

theorem cancel_directory (request : CancelOrderRequest) :
    (api.cancel H request answers).api.directory = api.directory := by
  unfold cancel
  dsimp only
  split <;> split <;> rfl

theorem registerInstrument_directory (request : RegisterInstrumentRequest)
    (answers : Answers) : DirectorySteps H.directory api.directory
      (api.registerInstrument H request answers).api.directory := by
  have hst : DirectorySteps H.directory api.directory
      (api.directory.register H.directory request.instrumentId request.routing).2 :=
    .single (.inl ⟨_, _, rfl⟩)
  unfold registerInstrument
  split
  next => exact .refl
  split
  next he =>
    rw [he] at hst
    split
    next => exact hst.tail (.inr ⟨_, rfl⟩)
    next => exact hst
  next he => rw [he] at hst; exact hst
  next he => rw [he] at hst; exact hst

theorem retireInstrument_directory (request : RetireInstrumentRequest)
    (answers : Answers) : DirectorySteps H.directory api.directory
      (api.retireInstrument H request answers).api.directory := by
  have hst : DirectorySteps H.directory api.directory
      (api.directory.retire H.directory request.instrumentId false).2 := .single (.inr ⟨_, rfl⟩)
  unfold retireInstrument
  dsimp only
  split
  next => split <;> exact .refl
  split
  next => split <;> exact .refl
  unfold retireIdle
  split
  next => exact .refl
  next => split <;> rename_i he <;> rw [he] at hst <;> exact hst

theorem query_directory (kind : QueryKind) (token : RequestToken) (request : QueryRequest) :
    (api.query H index kind token request answers).directory = api.directory :=
  query_keep (P := fun a => a.directory = api.directory) (fun he h => he.directory.trans h) (fun _ h => h) rfl

theorem execute_directory (index : Nat) (command : RuntimeCommand) :
    DirectorySteps H.directory api.directory (api.execute H index command answers).directory := by
  cases command with
  | place submitted => exact withToken_directory fun api => by rw [place_directory]
  | cancel request => exact withToken_directory fun api => by rw [cancel_directory]
  | cancelVenue request => exact withToken_directory fun api => .refl
  | registerInstrument request =>
    exact withToken_directory fun api => registerInstrument_directory H api request answers
  | retireInstrument request => exact withToken_directory fun api => retireInstrument_directory H api request answers
  | query kind token request =>
    simp only [execute]
    split
    next => exact .refl
    next => rw [query_directory]; exact .refl
  | reservedCancelAll | reservedReconcile => exact .refl

end OmsApi

theorem Performed.directory (h : Performed H api step api') :
    DirectorySteps H.directory api.directory api'.directory := by
  cases h with
  | idle | stopped | initialized | drained | exhausted | queued | spent => exact .refl
  | @called _ _ index _ _ _ lane => exact execute_directory H (api.setLane index lane) _ _
  | owner => exact execute_directory H _ _ _
  | deadlines => rw [processDeadlines_directory]
  | event => rw [(handleAdapterEvent_handled _).directory]

theorem registerAll_indexed {instruments : List (InstrumentId × ResolvedInstrument)}
    {d d' : ExecutionDirectory} (hi : Indexed H.directory d)
    (h : registerAll H instruments d = some d') : Indexed H.directory d' := by
  induction instruments generalizing d with
  | nil => cases h; exact hi
  | cons instrument instruments ih =>
    unfold registerAll at h
    split at h
    next he =>
      have hr := hi.registered instrument.1 instrument.2
      rw [he] at hr
      exact ih hr h
    next => cases h

theorem OmsRun.indexed (h : OmsRun H allowed api) : Indexed H.directory api.directory := by
  induction h with
  | start h =>
    unfold OmsApi.create at h
    simp only [bind, bind_eq_some_iff] at h
    obtain ⟨_, _, _, _, d₀, hd₀, d, hd, engine, _, scheduler, _, router, _, _, _, _, _, h⟩ := h
    cases h
    exact registerAll_indexed (create_indexed hd₀) hd
  | next _ step _ ih => exact ih.steps (perform_performed H _ step).directory

/-- What the owner makes of a registration; its result is the one of the published update. -/
def OmsApi.registration (H : RuntimeHashes) (api : OmsApi) (index : Nat)
    (request : RegisterInstrumentRequest) (answers : Answers) : Executed :=
  api.withToken index request.requestToken fun api => api.registerInstrument H request answers

structure Addressable (D : DirectoryHashes) (d : ExecutionDirectory) (instrumentId : InstrumentId)
    (routing : ResolvedInstrument) : Prop where
  entry : ∃ e, d.find D instrumentId = some e ∧ e.lifecycle = .active ∧ sameRoute e.routing routing
  route : d.findRoute D routing = instrumentId

variable {request : RegisterInstrumentRequest} {D : DirectoryHashes} {d d' : ExecutionDirectory}
  {instrumentId : InstrumentId} {routing : ResolvedInstrument}

theorem addressable_of_entry {slot : Nat} {e : DirectoryEntry} (hi : Indexed D d)
    (he : d.entryAt slot = some e) (hid : e.instrumentId = instrumentId)
    (hr : sameRoute e.routing routing) : Addressable D d instrumentId routing where
  entry := ⟨e, hi.find_eq_some.mpr ⟨slot, he, hid⟩, hi.active he, hr⟩
  route := by rw [hi.findRoute_of he (sameRoute_iff.mp hr), hid]

theorem OmsApi.registerInstrument_addressable_iff (hi : Indexed H.directory api.directory)
    (hok : (api.registerInstrument H request answers).result = .ok) :
    Addressable H.directory (api.registerInstrument H request answers).api.directory
        request.instrumentId request.routing ↔
      api.directory.findRoute H.directory request.routing = 0 ∨
        api.directory.findRoute H.directory request.routing = request.instrumentId := by
  have hr := hi.register request.instrumentId request.routing
  unfold registerInstrument at hok ⊢
  split at hok
  next => cases hok
  generalize api.directory.register H.directory request.instrumentId request.routing = result at hr hok
  cases hr with
  | @refused error he =>
    cases error <;> first | exact absurd rfl he.1 | exact absurd rfl he.2 | cases hok
  | known hf ha hsm =>
    obtain ⟨slot, he, hid⟩ := hi.find_eq_some.mp hf
    have haddr := addressable_of_entry hi he hid hsm
    exact iff_of_true haddr (.inr haddr.route)
  | owned hid hf hrt =>
    refine iff_of_false (fun haddr => ?_) ?_
    · obtain ⟨e, he, _⟩ := haddr.entry
      rw [hf] at he
      cases he
    · rintro (hz | hown)
      · exact hrt hz
      · -- The owner of the route would be found under its identifier.
        have hso : ProbeMap.lookup H.directory.route api.directory.byRoute
            (routeKey request.routing) ≠ none := fun hn => hrt (hi.findRoute_eq_zero.mpr hn)
        obtain ⟨slot, hl⟩ := ne_none_iff_exists'.mp hso
        obtain ⟨e, he, hk⟩ := (hi.byRoute.agrees _ _).mp hl
        have hfound := hi.find_eq_some.mpr ⟨slot, he, rfl⟩
        rw [← hi.findRoute_of he hk, hown, hf] at hfound
        cases hfound
  | @placed slot d' hid hf hrt hi' hfe he =>
    dsimp only at hok ⊢
    split at hok
    next hne => exact absurd (adapterError_eq_ok.mp hok) hne
    next hans =>
    rw [if_neg hans]
    have hnew := congrFun he slot
    rw [Function.update_self] at hnew
    exact iff_of_true (addressable_of_entry hi' hnew rfl (sameRoute_iff.mpr rfl)) (.inl hrt)

/-- An inline call processes its command after it has taken the token from its lane, hence the
lanes: the statement holds whatever they are. -/
theorem registered_addressable_iff (h : OmsReach H api) (lanes : List Lane)
    (hok : ({ api with lanes := lanes }.registration H index request answers).result = .ok) :
    Addressable H.directory
        ({ api with lanes := lanes }.execute H index (.registerInstrument request) answers).directory
        request.instrumentId request.routing ↔
      api.directory.findRoute H.directory request.routing = 0 ∨
        api.directory.findRoute H.directory request.routing = request.instrumentId := by
  have hi := h.indexed
  show Addressable _ (({ api with lanes := lanes }.registration H index request answers).api.publish index
    _).directory _ _ ↔ _
  unfold registration withToken at hok ⊢
  split at hok
  next => cases hok
  next lane _ =>
  exact @registerInstrument_addressable_iff H (setLane { api with lanes := lanes } index lane) answers request hi hok

def sampleConfigured : OmsApi := sampleNarrow.performAll sourceRuntimeHashes [.initializeLane 1 1]

theorem registered_addressable_sample :
    Addressable sourceRuntimeHashes.directory (sampleConfigured.execute sourceRuntimeHashes 0
      (.registerInstrument ⟨⟨1, 1, 1⟩, 7, sampleOrder.routing⟩) sampleAnswers).directory 7
      sampleOrder.routing := by
  have hreach : OmsReach sourceRuntimeHashes sampleConfigured := performAll (.start (some_get _).symm) _
  exact (registered_addressable_iff hreach sampleConfigured.lanes (by decide +kernel)).mpr (.inr (by decide +kernel))

/-- The route of instrument 7 is registered again for instrument 8: the answer is `ok`, and the
directory does not know instrument 8. -/
theorem registered_not_addressable :
    let api := sampleRegistered.performAll sourceRuntimeHashes [.drainUpdates 1 2]
    let after := api.perform sourceRuntimeHashes (.registerInstrument 1 ⟨{}, 8, sampleOrder.routing⟩ sampleAnswers)
    OmsReach sourceRuntimeHashes api ∧
      (after.lane 0).updates = [.commandResult .registerInstrument .ok (.instrument ⟨1, 1, 2⟩ 8)] ∧
      after.directory.find sourceRuntimeHashes.directory 8 = none ∧
      after.directory.findRoute sourceRuntimeHashes.directory sampleOrder.routing = 7 :=
  ⟨performAll (performAll (.start (some_get _).symm) _) _, by decide +kernel, by decide +kernel, by decide +kernel⟩

end SelfQuant.Oms
