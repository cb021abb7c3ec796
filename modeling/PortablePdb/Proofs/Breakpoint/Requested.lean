import Mathlib.Data.List.Nodup
import PortablePdb.Proofs.Breakpoint.Binding

/-!
# Collections as lists of requests

A collection whose entries are all settled is nothing but its files and the requests that its
entries answer.  Every operation leads from such a collection to another one, and the equations
below say to which one and with which events.  A session therefore runs on files and requests, and
its invariants are properties of those.
-/

namespace PortablePdb

open TrackedBreakpoint

/-- What a list of requests must satisfy to be carried out. -/
structure ValidRequests (requests : List BreakpointRequest) : Prop where
  ids_nodup : (requests.map BreakpointRequest.id).Nodup
  valid : ∀ request ∈ requests, request.validate = .ok ()

namespace BreakpointRequest

/-- Whether another request is for the same place, up to the spelling of the path. -/
def sameSource (kept request : BreakpointRequest) : Bool :=
  FilePath.same kept.filePath request.filePath &&
    kept.line == request.line && kept.column == request.column

def withActivated (request : BreakpointRequest) (active : Bool) : BreakpointRequest :=
  { request with activated := active }

/-- What a request comes to among the requests that were answered before.  If one of them has the
same id and the same source, it stays, spelled as it was. -/
def reconciledWith (answered : List BreakpointRequest) (request : BreakpointRequest) :
    BreakpointRequest :=
  match answered.find? fun other => other.id = request.id with
  | none => request
  | some kept =>
      if kept.sameSource request then kept.withActivated request.activated else request

/-- The request with its activation flag replaced if it has the given id. -/
def activatedFor (id : BreakpointId) (active : Bool) (request : BreakpointRequest) :
    BreakpointRequest :=
  if request.id = id then request.withActivated active else request

theorem id_reconciledWith (answered : List BreakpointRequest) (request : BreakpointRequest) :
    (request.reconciledWith answered).id = request.id := by
  unfold reconciledWith
  cases hfind : answered.find? fun other => other.id = request.id with
  | none => rfl
  | some kept =>
      have hid : kept.id = request.id := by simpa using List.find?_some hfind
      by_cases hsource : kept.sameSource request = true
      · simp [hsource, withActivated, hid]
      · simp [hsource]

theorem validate_reconciledWith {answered : List BreakpointRequest} {request : BreakpointRequest}
    (hanswered : ∀ other ∈ answered, other.validate = .ok ()) (hvalid : request.validate = .ok ()) :
    (request.reconciledWith answered).validate = .ok () := by
  unfold reconciledWith
  cases hfind : answered.find? fun other => other.id = request.id with
  | none => exact hvalid
  | some kept =>
      by_cases hsource : kept.sameSource request = true
      · simp only [hsource, if_true]
        exact hanswered kept (List.mem_of_find?_eq_some hfind)
      · simpa [hsource] using hvalid

theorem id_activatedFor (id : BreakpointId) (active : Bool) (request : BreakpointRequest) :
    (request.activatedFor id active).id = request.id := by
  unfold activatedFor
  split <;> rfl

theorem validate_activatedFor (id : BreakpointId) (active : Bool) (request : BreakpointRequest) :
    (request.activatedFor id active).validate = request.validate := by
  unfold activatedFor
  split <;> rfl

end BreakpointRequest

theorem ValidRequests.eq_of_id_eq {requests : List BreakpointRequest}
    (hvalid : ValidRequests requests) {first second : BreakpointRequest}
    (hfirst : first ∈ requests) (hsecond : second ∈ requests) (hid : first.id = second.id) :
    first = second :=
  List.inj_on_of_nodup_map hvalid.ids_nodup hfirst hsecond hid

theorem ValidRequests.find?_id {requests : List BreakpointRequest}
    (hvalid : ValidRequests requests) {request : BreakpointRequest} (hmem : request ∈ requests) :
    (requests.find? fun other => other.id = request.id) = some request := by
  cases hfind : requests.find? fun other => other.id = request.id with
  | none => simpa using List.find?_eq_none.mp hfind request hmem
  | some other =>
      have hid : other.id = request.id := by simpa using List.find?_some hfind
      rw [hvalid.eq_of_id_eq (List.mem_of_find?_eq_some hfind) hmem hid]

theorem ValidRequests.reconciled {answered requests : List BreakpointRequest}
    (hanswered : ValidRequests answered) (hvalid : ValidRequests requests) :
    ValidRequests (requests.map (BreakpointRequest.reconciledWith answered)) where
  ids_nodup := by
    have hids : (requests.map (BreakpointRequest.reconciledWith answered)).map
        BreakpointRequest.id = requests.map BreakpointRequest.id := by
      simp [BreakpointRequest.id_reconciledWith]
    rw [hids]
    exact hvalid.ids_nodup
  valid := by
    intro request hrequest
    obtain ⟨source, hsource, rfl⟩ := List.mem_map.mp hrequest
    exact BreakpointRequest.validate_reconciledWith hanswered.valid (hvalid.valid source hsource)

theorem ValidRequests.activated {requests : List BreakpointRequest}
    (hvalid : ValidRequests requests) (id : BreakpointId) (active : Bool) :
    ValidRequests (requests.map (BreakpointRequest.activatedFor id active)) where
  ids_nodup := by
    have hids : (requests.map (BreakpointRequest.activatedFor id active)).map
        BreakpointRequest.id = requests.map BreakpointRequest.id := by
      simp [BreakpointRequest.id_activatedFor]
    rw [hids]
    exact hvalid.ids_nodup
  valid := by
    intro request hrequest
    obtain ⟨source, hsource, rfl⟩ := List.mem_map.mp hrequest
    rw [BreakpointRequest.validate_activatedFor]
    exact hvalid.valid source hsource

namespace Collection

/-- The collection that holds the given requests, settled among the given files. -/
def ofRequests (files : List LoadedFile) (requests : List BreakpointRequest) : Collection :=
  ⟨requests.map (settled files), files⟩

@[simp] theorem files_ofRequests (files : List LoadedFile) (requests : List BreakpointRequest) :
    (ofRequests files requests).files = files := rfl

theorem request_settled (files : List LoadedFile) (request : BreakpointRequest) :
    (settled files request).request = request :=
  request_ofBinding request (binding files request)

theorem id_settled (files : List LoadedFile) (request : BreakpointRequest) :
    (settled files request).id = request.id :=
  id_ofBinding request (binding files request)

theorem requests_ofRequests (files : List LoadedFile) (requests : List BreakpointRequest) :
    (ofRequests files requests).entries.map TrackedBreakpoint.request = requests := by
  simp [ofRequests, request_settled, Function.comp_def]

theorem ids_ofRequests (files : List LoadedFile) (requests : List BreakpointRequest) :
    (ofRequests files requests).entries.map TrackedBreakpoint.id =
      requests.map BreakpointRequest.id := by
  simp [ofRequests, id_settled, Function.comp_def]

theorem ids_nodup_ofRequests (files : List LoadedFile) {requests : List BreakpointRequest}
    (hvalid : ValidRequests requests) :
    ((ofRequests files requests).entries.map TrackedBreakpoint.id).Nodup := by
  rw [ids_ofRequests]
  exact hvalid.ids_nodup

theorem find?_ofRequests (files : List LoadedFile) (requests : List BreakpointRequest)
    (id : BreakpointId) :
    (ofRequests files requests).find? id =
      (requests.find? fun request => request.id = id).map (settled files) := by
  have hids : (fun entry : TrackedBreakpoint => decide (entry.id = id)) ∘ settled files =
      fun request => decide (request.id = id) := by
    funext request
    rw [Function.comp_apply, id_settled]
  rw [find?, ofRequests, List.find?_map, hids]

/-- What a request reports when a file is loaded. -/
def addEvents (files : List LoadedFile) (file : LoadedFile) (request : BreakpointRequest) :
    List BreakpointEvent :=
  if (binding files request).isSome then [] else bindingEvents request (binding [file] request)

/-- What a request reports when a file is unloaded and others remain. -/
def removeEvents (files remaining : List LoadedFile) (handle : Nat) (request : BreakpointRequest) :
    List BreakpointEvent :=
  if (settled files request).boundTo = some handle then
    (settled files request).unbindEvents ++ bindingEvents request (binding remaining request)
  else []

theorem update_ofRequests {files after : List LoadedFile} (requests : List BreakpointRequest)
    (shown : List LoadedFile)
    (change : TrackedBreakpoint → TrackedBreakpoint × List BreakpointEvent)
    (events : BreakpointRequest → List BreakpointEvent)
    (hchange : ∀ request,
      change (settled files request) = (settled after request, events request)) :
    update ⟨requests.map (settled files), shown⟩ change =
      (⟨requests.map (settled after), shown⟩, requests.flatMap events) := by
  simp [update, List.flatMap_map, Function.comp_def, hchange]

theorem add_ofRequests (files : List LoadedFile) (requests : List BreakpointRequest)
    (file : LoadedFile) :
    (ofRequests files requests).add file =
      (ofRequests (files ++ [file]) requests, requests.flatMap (addEvents files file)) := by
  have hupdate := update_ofRequests requests files (fun entry => entry.resolve [file])
    (addEvents files file) (resolve_settled_single files file)
  simp only [add, ofRequests, hupdate]

theorem remove_ofRequests (files : List LoadedFile) (requests : List BreakpointRequest)
    (handle : Nat) :
    let remaining := files.filter fun file => file.handle ≠ handle
    (ofRequests files requests).remove handle =
      (ofRequests remaining requests, requests.flatMap (removeEvents files remaining handle)) := by
  intro remaining
  simp only [remove, ofRequests]
  exact update_ofRequests requests remaining (fun entry => entry.rebind handle remaining)
    (removeEvents files remaining handle) (rebind_settled files handle)

theorem resolvePending_ofRequests (files : List LoadedFile) (requests : List BreakpointRequest) :
    (ofRequests files requests).resolvePending = (ofRequests files requests, []) := by
  have hupdate := update_ofRequests requests files (fun entry => entry.resolve files)
    (fun _ => []) (resolve_settled files)
  simp only [resolvePending, ofRequests, hupdate]
  simp

/-! ## Replacing the requests -/

theorem checkRequests_eq_ok_iff {seen : List BreakpointId} {requests : List BreakpointRequest} :
    checkRequests seen requests = .ok () ↔
      ValidRequests requests ∧ ∀ request ∈ requests, request.id ∉ seen := by
  induction requests generalizing seen with
  | nil =>
      simp only [checkRequests, List.not_mem_nil, false_imp_iff, implies_true, and_true, true_iff]
      exact ⟨List.nodup_nil, by simp⟩
  | cons request requests ih =>
      have hopen : checkRequests seen (request :: requests) = .ok () ↔
          request.id ∉ seen ∧ request.validate = .ok () ∧
            checkRequests (request.id :: seen) requests = .ok () := by
        by_cases hseen : request.id ∈ seen
        · simp [checkRequests, hseen, throw, throwThe, MonadExceptOf.throw, bind, Except.bind]
        · cases hvalid : request.validate <;>
            simp [checkRequests, hseen, hvalid, bind, Except.bind]
      rw [hopen, ih]
      constructor
      · rintro ⟨hseen, hvalid, hrest, hfresh⟩
        refine ⟨⟨?_, ?_⟩, ?_⟩
        · rw [List.map_cons, List.nodup_cons]
          refine ⟨?_, hrest.ids_nodup⟩
          intro hmem
          obtain ⟨other, hother, hid⟩ := List.mem_map.mp hmem
          exact hfresh other hother (by simp [hid])
        · simpa [hvalid] using hrest.valid
        · simp only [List.forall_mem_cons]
          exact ⟨hseen, fun other hother hmem => hfresh other hother (List.mem_cons_of_mem _ hmem)⟩
      · rintro ⟨hrequests, hfresh⟩
        obtain ⟨hid, hids⟩ := List.nodup_cons.mp hrequests.ids_nodup
        obtain ⟨hvalid, hvalids⟩ := List.forall_mem_cons.mp hrequests.valid
        obtain ⟨hseen, hseens⟩ := List.forall_mem_cons.mp hfresh
        refine ⟨hseen, hvalid, ⟨hids, hvalids⟩, ?_⟩
        intro other hother hmem
        rcases List.mem_cons.mp hmem with heq | hmem
        · exact hid (List.mem_map.mpr ⟨other, hother, heq⟩)
        · exact hseens other hother hmem

/-- What answering a request reports, apart from the removals. -/
def syncEvents (files : List LoadedFile) (answered : List BreakpointRequest)
    (request : BreakpointRequest) : List BreakpointEvent :=
  match answered.find? fun other => other.id = request.id with
  | none => bindingEvents request (binding files request)
  | some kept =>
      if kept.sameSource request then flagEvents kept request.activated (binding files kept)
      else (settled files kept).unbindEvents ++ bindingEvents request (binding files request)

theorem sameSource_settled (files : List LoadedFile) (kept request : BreakpointRequest) :
    (settled files kept).breakpoint.sameSource request = kept.sameSource request := by
  unfold settled
  cases binding files kept <;> rfl

theorem sync_find?_ofRequests (files : List LoadedFile) (answered : List BreakpointRequest)
    (request : BreakpointRequest) :
    TrackedBreakpoint.sync ((ofRequests files answered).find? request.id) files request =
      (settled files (request.reconciledWith answered), syncEvents files answered request) := by
  rw [find?_ofRequests]
  unfold BreakpointRequest.reconciledWith syncEvents
  cases answered.find? fun other => other.id = request.id with
  | none => exact sync_none files request
  | some kept =>
      have hsame := sameSource_settled files kept request
      by_cases hsource : kept.sameSource request = true
      · simp only [Option.map_some, hsource, if_true]
        exact sync_settled_of_kept (hsame.trans hsource)
      · simp only [Option.map_some, hsource, if_false, Bool.false_eq_true]
        exact sync_settled_of_moved (hsame.trans (Bool.not_eq_true _ ▸ hsource))

/-- The removals come first, then what the requests report in their order. -/
theorem sync_ofRequests (files : List LoadedFile) (answered : List BreakpointRequest)
    {requests : List BreakpointRequest} (hvalid : ValidRequests requests) :
    (ofRequests files answered).sync requests =
      .ok (ofRequests files (requests.map (BreakpointRequest.reconciledWith answered)),
        ((ofRequests files answered).dropped requests).map (fun entry =>
            BreakpointEvent.removed entry.id entry.breakpoint.location) ++
          requests.flatMap (syncEvents files answered)) := by
  have hcheck : checkRequests [] requests = .ok () :=
    checkRequests_eq_ok_iff.mpr ⟨hvalid, by simp⟩
  unfold sync
  rw [hcheck]
  simp only [files_ofRequests, sync_find?_ofRequests]
  simp [ofRequests, bind, Except.bind, pure, Except.pure, Function.comp_def, List.flatMap_map]

theorem sync_error (collection : Collection) {requests : List BreakpointRequest}
    (hinvalid : ¬ValidRequests requests) : ∃ error, collection.sync requests = .error error := by
  cases hcheck : checkRequests [] requests with
  | ok _ => exact absurd (checkRequests_eq_ok_iff.mp hcheck).1 hinvalid
  | error error => exact ⟨error, by simp [sync, hcheck, bind, Except.bind]⟩

/-! ## Activating and deactivating -/

theorem setActive_ofRequests {files : List LoadedFile} {requests : List BreakpointRequest}
    (hvalid : ValidRequests requests) {request : BreakpointRequest} (hmem : request ∈ requests)
    (hbound : (binding files request).isSome) (active : Bool) :
    (ofRequests files requests).setActive request.id active =
      .ok (ofRequests files (requests.map (BreakpointRequest.activatedFor request.id active)),
        flagEvents request active (binding files request)) := by
  have hfind : (ofRequests files requests).find? request.id = some (settled files request) := by
    rw [find?_ofRequests, hvalid.find?_id hmem, Option.map_some]
  have hresolved : (settled files request).breakpoint.isResolved = true := by
    simpa [settled] using hbound
  have hentries : ((ofRequests files requests).entries.map fun entry =>
      if entry.id = request.id then settled files { request with activated := active } else entry) =
        (requests.map (BreakpointRequest.activatedFor request.id active)).map (settled files) := by
    simp only [ofRequests, List.map_map]
    apply List.map_congr_left
    intro other hother
    by_cases hid : other.id = request.id
    · rw [hvalid.eq_of_id_eq hother hmem hid]
      simp [id_settled, BreakpointRequest.activatedFor, BreakpointRequest.withActivated]
    · simp [id_settled, hid, BreakpointRequest.activatedFor]
  simp only [setActive, hfind, hresolved, applyActivation_settled]
  rw [hentries]
  rfl

theorem setActiveOrKeep_ofRequests (files : List LoadedFile) {requests : List BreakpointRequest}
    (hvalid : ValidRequests requests) (id : BreakpointId) (active : Bool) :
    (∃ request ∈ requests, request.id = id ∧ (binding files request).isSome ∧
      (ofRequests files requests).setActiveOrKeep id active =
        (ofRequests files (requests.map (BreakpointRequest.activatedFor id active)),
          flagEvents request active (binding files request))) ∨
      ((∀ request ∈ requests, request.id = id → binding files request = none) ∧
        (ofRequests files requests).setActiveOrKeep id active =
          (ofRequests files requests, [])) := by
  cases hfind : requests.find? fun other => other.id = id with
  | none =>
      right
      have hnone : (ofRequests files requests).find? id = none := by
        rw [find?_ofRequests, hfind, Option.map_none]
      refine ⟨fun request hmem hid => ?_, ?_⟩
      · simpa [hid] using List.find?_eq_none.mp hfind request hmem
      · simp [setActiveOrKeep, setActive, hnone, throw, throwThe, MonadExceptOf.throw]
  | some request =>
      have hmem : request ∈ requests := List.mem_of_find?_eq_some hfind
      obtain rfl : request.id = id := by simpa using List.find?_some hfind
      cases hbinding : binding files request with
      | none =>
          right
          have hsome : (ofRequests files requests).find? request.id =
              some (settled files request) := by
            rw [find?_ofRequests, hfind, Option.map_some]
          have hresolved : (settled files request).breakpoint.isResolved = false := by
            simp [settled, hbinding]
          refine ⟨fun other hother hid => ?_, ?_⟩
          · rw [hvalid.eq_of_id_eq hother hmem hid, hbinding]
          · simp [setActiveOrKeep, setActive, hsome, hresolved, throw, throwThe,
              MonadExceptOf.throw, bind, Except.bind]
      | some found =>
          left
          have hbound : (binding files request).isSome = true := by simp [hbinding]
          refine ⟨request, hmem, rfl, hbound, ?_⟩
          have hset := setActive_ofRequests hvalid hmem hbound active
          have hlast : (flagEvents request active (binding files request)).getLast?.toList =
              flagEvents request active (binding files request) := by
            by_cases hflag : request.activated = active <;> simp [hbinding, flagEvents, hflag]
          rw [setActiveOrKeep, hset]
          simp only [hlast]

theorem syncOrKeep_ofRequests (files : List LoadedFile)
    (answered requests : List BreakpointRequest) :
    (ValidRequests requests ∧ (ofRequests files answered).syncOrKeep requests =
      (ofRequests files (requests.map (BreakpointRequest.reconciledWith answered)),
        ((ofRequests files answered).dropped requests).map (fun entry =>
            BreakpointEvent.removed entry.id entry.breakpoint.location) ++
          requests.flatMap (syncEvents files answered))) ∨
      (¬ValidRequests requests ∧
        (ofRequests files answered).syncOrKeep requests = (ofRequests files answered, [])) := by
  by_cases hvalid : ValidRequests requests
  · left
    refine ⟨hvalid, ?_⟩
    rw [syncOrKeep, sync_ofRequests files answered hvalid]
  · right
    refine ⟨hvalid, ?_⟩
    obtain ⟨error, herror⟩ := sync_error (ofRequests files answered) hvalid
    rw [syncOrKeep, herror]

end Collection

end PortablePdb
