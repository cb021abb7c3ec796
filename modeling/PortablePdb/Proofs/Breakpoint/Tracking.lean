import PortablePdb.Proofs.Breakpoint.CanonicalBinding
import PortablePdb.Proofs.Breakpoint.Replay

/-!
# A client that keeps up with a session

What one request reports leads its record from what it was bound to before an operation to what it
is bound to afterwards.  So a client that knows all bindings before an operation can replay its
events and knows all bindings again.
-/

namespace PortablePdb

open TrackedBreakpoint Collection

/-- The record that belongs to a request with a given binding. -/
def recordOf (request : BreakpointRequest) (binding : Option (Nat × Location)) : TrapRecord :=
  binding.map fun found => (found.2, if request.activated then .on else .off)

/-! ## What one request reports -/

theorem recordReplay_append (record : TrapRecord) (first second : List BreakpointEvent) :
    recordReplay record (first ++ second) =
      (recordReplay record first).bind fun next => recordReplay next second := by
  simp only [recordReplay, List.foldlM_append]
  rfl

theorem recordReplay_bindingEvents (request : BreakpointRequest)
    (binding : Option (Nat × Location)) :
    recordReplay none (bindingEvents request binding) = some (recordOf request binding) := by
  cases binding with
  | none => rfl
  | some found =>
      cases hactive : request.activated <;>
        simp [recordReplay, bindingEvents, recordOf, recordAfter, BreakpointEvent.ofActivation,
          hactive]

theorem recordReplay_unbindEvents (request : BreakpointRequest)
    (binding : Option (Nat × Location)) :
    recordReplay (recordOf request binding) (ofBinding request binding).unbindEvents =
      some none := by
  cases binding <;> simp [recordReplay, recordOf, unbindEvents, recordAfter]

theorem recordReplay_flagEvents (request : BreakpointRequest) (active : Bool)
    (binding : Option (Nat × Location)) :
    recordReplay (recordOf request binding) (flagEvents request active binding) =
      some (recordOf (request.withActivated active) binding) := by
  cases binding with
  | none => rfl
  | some found =>
      cases hactive : request.activated <;> cases active <;>
        simp [recordReplay, recordOf, flagEvents, recordAfter, BreakpointEvent.ofActivation,
          BreakpointRequest.withActivated, hactive]

theorem recordReplay_removed (request : BreakpointRequest) (binding : Option (Nat × Location)) :
    recordReplay (recordOf request binding)
      [.removed request.id (ofBinding request binding).breakpoint.location] = some none := by
  cases binding <;> simp [recordReplay, recordOf, recordAfter]

theorem recordReplay_addEvents (files : List LoadedFile) (file : LoadedFile)
    (request : BreakpointRequest) :
    recordReplay (recordOf request (binding files request)) (addEvents files file request) =
      some (recordOf request (binding (files ++ [file]) request)) := by
  rw [binding_append, addEvents]
  cases binding files request with
  | none => exact recordReplay_bindingEvents request (binding [file] request)
  | some found => rfl

theorem recordReplay_removeEvents (files : List LoadedFile) (handle : Nat)
    (request : BreakpointRequest) :
    let remaining := files.filter fun file => file.handle ≠ handle
    recordReplay (recordOf request (binding files request))
        (removeEvents files remaining handle request) =
      some (recordOf request (binding remaining request)) := by
  intro remaining
  unfold removeEvents
  by_cases hbound : (settled files request).boundTo = some handle
  · rw [if_pos hbound, recordReplay_append, settled, recordReplay_unbindEvents]
    exact recordReplay_bindingEvents request (binding remaining request)
  · rw [if_neg hbound]
    have hother : ∀ location, binding files request ≠ some (handle, location) := by
      intro location hbinding
      apply hbound
      simp [settled, hbinding]
    rw [show binding remaining request = binding files request from binding_filter_of_ne hother]
    rfl

/-- The record that belongs to an id among answered requests. -/
def answeredRecord (files : List LoadedFile) (answered : List BreakpointRequest)
    (id : BreakpointId) : TrapRecord :=
  (answered.find? fun request => request.id = id).bind fun request =>
    recordOf request (binding files request)

theorem recordReplay_syncEvents (files : List LoadedFile) (answered : List BreakpointRequest)
    (request : BreakpointRequest) :
    recordReplay (answeredRecord files answered request.id) (syncEvents files answered request) =
      some (recordOf (request.reconciledWith answered)
        (binding files (request.reconciledWith answered))) := by
  unfold answeredRecord syncEvents BreakpointRequest.reconciledWith
  cases answered.find? fun other => other.id = request.id with
  | none => exact recordReplay_bindingEvents request (binding files request)
  | some kept =>
      by_cases hsource : kept.sameSource request = true
      · simp only [Option.bind_some, hsource, if_true]
        exact recordReplay_flagEvents kept request.activated (binding files kept)
      · simp only [Option.bind_some, hsource, Bool.false_eq_true, if_false]
        rw [recordReplay_append, settled, recordReplay_unbindEvents]
        exact recordReplay_bindingEvents request (binding files request)

/-! ## The ids of the events -/

theorem id_ofActivation (active : Bool) (id : BreakpointId) (location : Location) :
    (BreakpointEvent.ofActivation active id location).id = id := by
  cases active <;> rfl

theorem id_of_mem_bindingEvents {request : BreakpointRequest}
    {binding : Option (Nat × Location)} {event : BreakpointEvent}
    (hevent : event ∈ bindingEvents request binding) : event.id = request.id := by
  cases binding with
  | none => simp [bindingEvents] at hevent
  | some found =>
      simp only [bindingEvents, List.mem_cons, List.not_mem_nil, or_false] at hevent
      rcases hevent with rfl | rfl
      · rfl
      · exact id_ofActivation _ _ _

theorem id_of_mem_flagEvents {request : BreakpointRequest} {active : Bool}
    {binding : Option (Nat × Location)} {event : BreakpointEvent}
    (hevent : event ∈ flagEvents request active binding) : event.id = request.id := by
  cases binding with
  | none => simp [flagEvents] at hevent
  | some found =>
      by_cases hflag : request.activated = active
      · simp [flagEvents, hflag] at hevent
      · simp only [flagEvents, hflag, if_false, List.mem_singleton] at hevent
        rw [hevent, id_ofActivation]

theorem id_of_mem_unbindEvents {tracked : TrackedBreakpoint} {event : BreakpointEvent}
    (hevent : event ∈ tracked.unbindEvents) : event.id = tracked.id := by
  obtain ⟨location, -, rfl⟩ := List.mem_map.mp hevent
  rfl

theorem id_of_mem_addEvents {files : List LoadedFile} {file : LoadedFile}
    {request : BreakpointRequest} {event : BreakpointEvent}
    (hevent : event ∈ addEvents files file request) : event.id = request.id := by
  unfold addEvents at hevent
  split at hevent
  · simp at hevent
  · exact id_of_mem_bindingEvents hevent

theorem id_of_mem_removeEvents {files remaining : List LoadedFile} {handle : Nat}
    {request : BreakpointRequest} {event : BreakpointEvent}
    (hevent : event ∈ removeEvents files remaining handle request) : event.id = request.id := by
  unfold removeEvents at hevent
  split at hevent
  · rcases List.mem_append.mp hevent with hevent | hevent
    · rw [id_of_mem_unbindEvents hevent, id_settled]
    · exact id_of_mem_bindingEvents hevent
  · simp at hevent

theorem id_of_mem_syncEvents {files : List LoadedFile} {answered : List BreakpointRequest}
    {request : BreakpointRequest} {event : BreakpointEvent}
    (hevent : event ∈ syncEvents files answered request) : event.id = request.id := by
  unfold syncEvents at hevent
  cases hfind : answered.find? fun other => other.id = request.id with
  | none =>
      rw [hfind] at hevent
      exact id_of_mem_bindingEvents hevent
  | some kept =>
      have hid : kept.id = request.id := by simpa using List.find?_some hfind
      rw [hfind] at hevent
      simp only at hevent
      split at hevent
      · rw [id_of_mem_flagEvents hevent, hid]
      · rcases List.mem_append.mp hevent with hevent | hevent
        · rw [id_of_mem_unbindEvents hevent, id_settled, hid]
        · exact id_of_mem_bindingEvents hevent

/-! ## What a client knows during a session -/

/-- A client that knows the bindings of the given requests and nothing else. -/
structure Client.Tracks (client : Client) (files : List LoadedFile)
    (requests : List BreakpointRequest) : Prop where
  held : ∀ request ∈ requests,
    client.record request.id = recordOf request (binding files request)
  free : ∀ id, id ∉ requests.map BreakpointRequest.id → client.record id = none

theorem Client.Tracks.record_eq {client : Client} {files : List LoadedFile}
    {requests : List BreakpointRequest} (htracks : client.Tracks files requests)
    (id : BreakpointId) : client.record id = answeredRecord files requests id := by
  unfold answeredRecord
  cases hfind : requests.find? fun request => request.id = id with
  | none =>
      apply htracks.free
      intro hmem
      obtain ⟨request, hrequest, hid⟩ := List.mem_map.mp hmem
      simpa [hid] using List.find?_eq_none.mp hfind request hrequest
  | some request =>
      obtain rfl : request.id = id := by simpa using List.find?_some hfind
      exact htracks.held request (List.mem_of_find?_eq_some hfind)

/-- An operation whose events lead every request from its old binding to its new one. -/
theorem Client.Tracks.replay_requests {client : Client} {files after : List LoadedFile}
    {requests : List BreakpointRequest} (hvalid : ValidRequests requests)
    (htracks : client.Tracks files requests)
    {events : BreakpointRequest → List BreakpointEvent}
    (hids : ∀ request, ∀ event ∈ events request, event.id = request.id)
    (hreplay : ∀ request, recordReplay (recordOf request (binding files request))
      (events request) = some (recordOf request (binding after request))) :
    ∃ next, client.replay (requests.flatMap events) = some next ∧ next.Tracks after requests := by
  have hrecords : ∀ request ∈ requests,
      recordReplay (client.record request.id) (events request) =
        some (recordOf request (binding after request)) := by
    intro request hrequest
    rw [htracks.held request hrequest]
    exact hreplay request
  obtain ⟨next, hnext, hheld, hfree⟩ :=
    Client.replay_flatMap hvalid.ids_nodup (fun request _ => hids request) hrecords
  refine ⟨next, hnext, hheld, ?_⟩
  intro id hid
  rw [hfree id hid, htracks.free id hid]

theorem mem_dropped_ofRequests {files : List LoadedFile}
    {answered requests : List BreakpointRequest} {entry : TrackedBreakpoint} :
    entry ∈ (ofRequests files answered).dropped requests ↔
      ∃ request ∈ answered, request.id ∉ requests.map BreakpointRequest.id ∧
        settled files request = entry := by
  simp only [dropped, List.mem_mergeSort, List.mem_filter, ofRequests, List.mem_map,
    List.all_eq_true, decide_eq_true_eq]
  constructor
  · rintro ⟨⟨request, hrequest, rfl⟩, hdropped⟩
    refine ⟨request, hrequest, ?_, rfl⟩
    rintro ⟨other, hother, hid⟩
    exact hdropped other hother (by rw [hid, id_settled])
  · rintro ⟨request, hrequest, hdropped, rfl⟩
    refine ⟨⟨request, hrequest, rfl⟩, ?_⟩
    intro other hother hid
    exact hdropped ⟨other, hother, by rw [hid, id_settled]⟩

theorem dropped_ids_nodup (files : List LoadedFile) {answered : List BreakpointRequest}
    (hvalid : ValidRequests answered) (requests : List BreakpointRequest) :
    (((ofRequests files answered).dropped requests).map TrackedBreakpoint.id).Nodup := by
  have hids : ((ofRequests files answered).entries.map TrackedBreakpoint.id).Nodup := by
    rw [ids_ofRequests]
    exact hvalid.ids_nodup
  have hperm := (List.mergeSort_perm ((ofRequests files answered).entries.filter fun entry =>
    requests.all fun request => request.id ≠ entry.id)
      fun first second => first.id.number ≤ second.id.number).map TrackedBreakpoint.id
  exact hperm.nodup_iff.mpr (hids.sublist (List.filter_sublist.map _))

/-- The removals free the records of the ids that are not requested any more. -/
theorem Client.Tracks.replay_dropped {client : Client} {files : List LoadedFile}
    {answered : List BreakpointRequest} (hvalid : ValidRequests answered)
    (htracks : client.Tracks files answered) (requests : List BreakpointRequest) :
    ∃ next, client.replay (((ofRequests files answered).dropped requests).map fun entry =>
        BreakpointEvent.removed entry.id entry.breakpoint.location) = some next ∧
      (∀ id ∈ requests.map BreakpointRequest.id, next.record id = client.record id) ∧
      ∀ id, id ∉ requests.map BreakpointRequest.id → next.record id = none := by
  have hrecords : ∀ entry ∈ (ofRequests files answered).dropped requests,
      recordReplay (client.record entry.id)
        [.removed entry.id entry.breakpoint.location] = some none := by
    intro entry hentry
    obtain ⟨request, hrequest, -, rfl⟩ := mem_dropped_ofRequests.mp hentry
    rw [id_settled, htracks.held request hrequest]
    exact recordReplay_removed request (binding files request)
  obtain ⟨next, hnext, hfreed, hkept⟩ :=
    Client.replay_flatMap (dropped_ids_nodup files hvalid requests)
      (fun entry _ event hevent => by rw [List.mem_singleton.mp hevent]; rfl) hrecords
  refine ⟨next, ?_, ?_, ?_⟩
  · rwa [List.map_eq_flatMap]
  · intro id hid
    apply hkept
    intro hmem
    obtain ⟨entry, hentry, rfl⟩ := List.mem_map.mp hmem
    obtain ⟨request, -, hdropped, rfl⟩ := mem_dropped_ofRequests.mp hentry
    rw [id_settled] at hid
    exact hdropped hid
  · intro id hid
    by_cases hmem : id ∈ ((ofRequests files answered).dropped requests).map TrackedBreakpoint.id
    · obtain ⟨entry, hentry, rfl⟩ := List.mem_map.mp hmem
      exact hfreed entry hentry
    · rw [hkept id hmem]
      apply htracks.free
      intro hanswered
      obtain ⟨request, hrequest, rfl⟩ := List.mem_map.mp hanswered
      exact hmem (List.mem_map.mpr ⟨settled files request,
        mem_dropped_ofRequests.mpr ⟨request, hrequest, hid, rfl⟩, id_settled files request⟩)

theorem Client.Tracks.replay_sync {client : Client} {files : List LoadedFile}
    {answered requests : List BreakpointRequest} (hanswered : ValidRequests answered)
    (hvalid : ValidRequests requests) (htracks : client.Tracks files answered) :
    ∃ next, client.replay (((ofRequests files answered).dropped requests).map (fun entry =>
          BreakpointEvent.removed entry.id entry.breakpoint.location) ++
        requests.flatMap (syncEvents files answered)) = some next ∧
      next.Tracks files (requests.map (BreakpointRequest.reconciledWith answered)) := by
  obtain ⟨middle, hmiddle, hkept, hfreed⟩ := htracks.replay_dropped hanswered requests
  have hrecords : ∀ request ∈ requests,
      recordReplay (middle.record request.id) (syncEvents files answered request) =
        some (recordOf (request.reconciledWith answered)
          (binding files (request.reconciledWith answered))) := by
    intro request hrequest
    rw [hkept request.id (List.mem_map_of_mem hrequest), htracks.record_eq]
    exact recordReplay_syncEvents files answered request
  obtain ⟨next, hnext, hheld, hfree⟩ :=
    Client.replay_flatMap hvalid.ids_nodup (fun _ _ _ => id_of_mem_syncEvents) hrecords
  refine ⟨next, ?_, ?_, ?_⟩
  · rw [Client.replay_append, hmiddle]
    exact hnext
  · intro request hrequest
    obtain ⟨source, hsource, rfl⟩ := List.mem_map.mp hrequest
    rw [BreakpointRequest.id_reconciledWith]
    exact hheld source hsource
  · intro id hid
    have hrequests : id ∉ requests.map BreakpointRequest.id := by
      simpa [BreakpointRequest.id_reconciledWith] using hid
    rw [hfree id hrequests, hfreed id hrequests]

theorem Client.Tracks.replay_flag {client : Client} {files : List LoadedFile}
    {requests : List BreakpointRequest} (hvalid : ValidRequests requests)
    (htracks : client.Tracks files requests) {request : BreakpointRequest}
    (hmem : request ∈ requests) (active : Bool) :
    ∃ next, client.replay (flagEvents request active (binding files request)) = some next ∧
      next.Tracks files (requests.map (BreakpointRequest.activatedFor request.id active)) := by
  have hids : ∀ event ∈ flagEvents request active (binding files request),
      event.id = request.id := fun _ => id_of_mem_flagEvents
  have hreplay := Client.replay_of_id hids client
  rw [htracks.held request hmem, recordReplay_flagEvents, Option.map_some] at hreplay
  refine ⟨_, hreplay, ?_, ?_⟩
  · intro changed hchanged
    obtain ⟨other, hother, rfl⟩ := List.mem_map.mp hchanged
    rw [BreakpointRequest.id_activatedFor]
    by_cases hid : other.id = request.id
    · rw [hvalid.eq_of_id_eq hother hmem hid, Client.record_set_self,
        BreakpointRequest.activatedFor, if_pos rfl]
      rfl
    · rw [Client.record_set_of_ne _ _ hid, BreakpointRequest.activatedFor, if_neg hid]
      exact htracks.held other hother
  · intro id hid
    have hids : id ∉ requests.map BreakpointRequest.id := by
      simpa [BreakpointRequest.id_activatedFor] using hid
    have hne : id ≠ request.id := by
      rintro rfl
      exact hids (List.mem_map_of_mem hmem)
    rw [Client.record_set_of_ne _ _ hne, htracks.free id hids]

/-- One operation: its events are legal for a client that tracks the collection, and the client
tracks the collection again afterwards. -/
theorem Client.Tracks.replay_apply {client : Client} {files : List LoadedFile}
    {requests : List BreakpointRequest} (hvalid : ValidRequests requests)
    (htracks : client.Tracks files requests) (operation : CollectionOperation) :
    ∃ after changed next, ValidRequests changed ∧
      ((ofRequests files requests).apply operation).1 = ofRequests after changed ∧
      client.replay ((ofRequests files requests).apply operation).2 = some next ∧
      next.Tracks after changed := by
  have hkept : ∃ after changed next, ValidRequests changed ∧
      ofRequests files requests = ofRequests after changed ∧
      client.replay [] = some next ∧ next.Tracks after changed :=
    ⟨files, requests, client, hvalid, rfl, rfl, htracks⟩
  have hflag : ∀ id active, ∃ after changed next, ValidRequests changed ∧
      ((ofRequests files requests).setActiveOrKeep id active).1 = ofRequests after changed ∧
      client.replay ((ofRequests files requests).setActiveOrKeep id active).2 = some next ∧
      next.Tracks after changed := by
    intro id active
    rcases setActiveOrKeep_ofRequests files hvalid id active with
      ⟨request, hmem, rfl, -, hset⟩ | ⟨-, hset⟩
    · obtain ⟨next, hnext, hafter⟩ := htracks.replay_flag hvalid hmem active
      rw [hset]
      exact ⟨files, _, next, hvalid.activated request.id active, rfl, hnext, hafter⟩
    · rwa [hset]
  cases operation with
  | add file =>
      obtain ⟨next, hnext, hafter⟩ := htracks.replay_requests hvalid
        (fun request _ => id_of_mem_addEvents) (recordReplay_addEvents files file)
      rw [Collection.apply, add_ofRequests]
      exact ⟨_, requests, next, hvalid, rfl, hnext, hafter⟩
  | remove handle =>
      obtain ⟨next, hnext, hafter⟩ := htracks.replay_requests hvalid
        (fun request _ => id_of_mem_removeEvents) (recordReplay_removeEvents files handle)
      rw [Collection.apply, remove_ofRequests]
      exact ⟨_, requests, next, hvalid, rfl, hnext, hafter⟩
  | sync incoming =>
      rw [Collection.apply]
      rcases syncOrKeep_ofRequests files requests incoming with
        ⟨hincoming, hsync⟩ | ⟨-, hsync⟩
      · obtain ⟨next, hnext, hafter⟩ := htracks.replay_sync hvalid hincoming
        rw [hsync]
        exact ⟨files, _, next, hvalid.reconciled hincoming, rfl, hnext, hafter⟩
      · rwa [hsync]
  | resolvePending => rwa [Collection.apply, resolvePending_ofRequests]
  | activate id => exact hflag id true
  | deactivate id => exact hflag id false

theorem Client.Tracks.replay_run {client : Client} {files : List LoadedFile}
    {requests : List BreakpointRequest} (hvalid : ValidRequests requests)
    (htracks : client.Tracks files requests) (operations : List CollectionOperation) :
    ∃ after changed next, ValidRequests changed ∧
      ((ofRequests files requests).run operations).1 = ofRequests after changed ∧
      client.replay ((ofRequests files requests).run operations).2 = some next ∧
      next.Tracks after changed := by
  induction operations generalizing client files requests with
  | nil => exact ⟨files, requests, client, hvalid, rfl, rfl, htracks⟩
  | cons operation operations ih =>
      obtain ⟨after, changed, next, hchanged, hstep, hreplay, hnext⟩ :=
        htracks.replay_apply hvalid operation
      obtain ⟨final, left, last, hleft, hrun, hlater, hlast⟩ := ih hchanged hnext
      refine ⟨final, left, last, hleft, ?_, ?_, hlast⟩
      · rw [run_cons, hstep]
        exact hrun
      · rw [run_cons, Client.replay_append, hreplay, hstep]
        exact hlater

end PortablePdb
