import PortablePdb.Proofs.Breakpoint.Tracking

/-!
# Entries that stay as they are

An operation that leaves the entry of an id as it is reports nothing for the id.
-/

namespace PortablePdb

open TrackedBreakpoint Collection

/-- Whether an id has no entry before and after, or entries for the same place with the same bound
file and the same activation.  Either of the two signs of activation will do. -/
def KeepsEntry (before after : Collection) (id : BreakpointId) : Prop :=
  (before.find? id = none ∧ after.find? id = none) ∨
    ∃ old new, before.find? id = some old ∧ after.find? id = some new ∧
      old.breakpoint.filePath = new.breakpoint.filePath ∧
      old.breakpoint.line = new.breakpoint.line ∧
      old.breakpoint.column = new.breakpoint.column ∧ old.boundTo = new.boundTo ∧
      (old.activated = new.activated ∨ old.breakpoint.state = new.breakpoint.state)

/-- What keeping an entry says about the requests that the entry answers. -/
structure KeepsRequest (files after : List LoadedFile) (old new : BreakpointRequest) : Prop where
  sameSource : old.sameSource new = true
  boundTo_eq : (binding files old).map Prod.fst = (binding after new).map Prod.fst
  activated_eq : (binding files old).isSome → old.activated = new.activated

theorem keepsRequest_of_keepsEntry {files after : List LoadedFile}
    {requests changed : List BreakpointRequest} {id : BreakpointId}
    (hkeeps : KeepsEntry (ofRequests files requests) (ofRequests after changed) id)
    {request : BreakpointRequest}
    (hfind : (requests.find? fun other => other.id = id) = some request) :
    ∃ new, (changed.find? fun other => other.id = id) = some new ∧
      KeepsRequest files after request new := by
  unfold KeepsEntry at hkeeps
  rw [find?_ofRequests, find?_ofRequests, hfind] at hkeeps
  rcases hkeeps with ⟨hnone, -⟩ | ⟨old, new, hold, hnew, hpath, hline, hcolumn, hbound, hactive⟩
  · simp at hnone
  · obtain rfl : settled files request = old := by simpa using hold
    obtain ⟨source, hsource, rfl⟩ := Option.map_eq_some_iff.mp hnew
    have hfields : ∀ (among : List LoadedFile) (answered : BreakpointRequest),
        (settled among answered).request = answered := request_settled
    have hpaths : request.filePath = source.filePath := by
      rw [← hfields files request, ← hfields after source]
      exact hpath
    have hlines : request.line = source.line := by
      rw [← hfields files request, ← hfields after source]
      exact hline
    have hcolumns : request.column = source.column := by
      rw [← hfields files request, ← hfields after source]
      exact hcolumn
    rw [settled, settled, boundTo_ofBinding, boundTo_ofBinding] at hbound
    refine ⟨source, hsource, ?_, hbound, ?_⟩
    · simp [BreakpointRequest.sameSource, FilePath.same, hpaths, hlines, hcolumns]
    · intro hsome
      have hsomeNew : (binding after source).isSome := by
        rw [← Option.isSome_map, ← hbound, Option.isSome_map]
        exact hsome
      obtain ⟨found, hfound⟩ := Option.isSome_iff_exists.mp hsome
      obtain ⟨foundNew, hfoundNew⟩ := Option.isSome_iff_exists.mp hsomeNew
      rw [settled, settled, hfound, hfoundNew] at hactive
      rcases hactive with hflag | hstate
      · exact hflag
      · cases hold : request.activated <;> cases hnew : source.activated <;>
          simp_all [ofBinding, BreakpointState.ofActivation]

theorem addEvents_of_keepsRequest {files : List LoadedFile} {file : LoadedFile}
    {request : BreakpointRequest}
    (hkeeps : KeepsRequest files (files ++ [file]) request request) :
    addEvents files file request = [] := by
  have hbound := hkeeps.boundTo_eq
  rw [binding_append] at hbound
  unfold addEvents
  cases hbinding : binding files request with
  | some found => rfl
  | none =>
      rw [hbinding, Option.none_or, Option.map_none] at hbound
      rw [Option.map_eq_none_iff.mp hbound.symm]
      rfl

theorem removeEvents_of_keepsRequest {files : List LoadedFile} {handle : Nat}
    {request : BreakpointRequest}
    (hkeeps : KeepsRequest files (files.filter fun file => file.handle ≠ handle) request request) :
    removeEvents files (files.filter fun file => file.handle ≠ handle) handle request = [] := by
  unfold removeEvents
  rw [if_neg]
  intro hbound
  rw [settled, boundTo_ofBinding, hkeeps.boundTo_eq] at hbound
  obtain ⟨⟨bound, location⟩, hfound, hhandle⟩ := Option.map_eq_some_iff.mp hbound
  obtain ⟨before, file, after, hsplit, hfile, -, -⟩ := binding_eq_some_iff.mp hfound
  have hmem : file ∈ files.filter fun file => file.handle ≠ handle := by
    rw [hsplit]
    exact List.mem_append_right before List.mem_cons_self
  have hne : file.handle ≠ handle := by simpa using (List.mem_filter.mp hmem).2
  exact hne (hfile.trans hhandle)

theorem flagEvents_of_keepsRequest {files : List LoadedFile} {request : BreakpointRequest}
    {active : Bool} (hkeeps : KeepsRequest files files request (request.withActivated active)) :
    flagEvents request active (binding files request) = [] := by
  cases hbinding : binding files request with
  | none => rfl
  | some found =>
      have hflag : request.activated = active := hkeeps.activated_eq (by simp [hbinding])
      simp [flagEvents, hflag]

theorem syncEvents_of_keepsRequest {files : List LoadedFile}
    {answered : List BreakpointRequest} {kept request : BreakpointRequest}
    (hfind : (answered.find? fun other => other.id = request.id) = some kept)
    (hkeeps : KeepsRequest files files kept (request.reconciledWith answered)) :
    syncEvents files answered request = [] := by
  unfold syncEvents
  unfold BreakpointRequest.reconciledWith at hkeeps
  rw [hfind] at hkeeps ⊢
  by_cases hsource : kept.sameSource request = true
  · simp only [hsource, if_true] at hkeeps ⊢
    exact flagEvents_of_keepsRequest hkeeps
  · simp only [hsource, if_false, Bool.false_eq_true] at hkeeps
    exact absurd hkeeps.sameSource hsource

/-- A request with the id is the only one, so what is kept for the id is kept for it. -/
theorem keepsRequest_of_mem {files after : List LoadedFile} {requests : List BreakpointRequest}
    (hvalid : ValidRequests requests) {request : BreakpointRequest} (hmem : request ∈ requests)
    (hkeeps : KeepsEntry (ofRequests files requests) (ofRequests after requests) request.id) :
    KeepsRequest files after request request := by
  obtain ⟨new, hnew, hrequest⟩ := keepsRequest_of_keepsEntry hkeeps (hvalid.find?_id hmem)
  rw [hvalid.find?_id hmem, Option.some.injEq] at hnew
  rwa [← hnew] at hrequest

section Quiet

variable {files : List LoadedFile} {requests : List BreakpointRequest} {id : BreakpointId}
  {event : BreakpointEvent}

theorem setActive_quiet (hvalid : ValidRequests requests) {other : BreakpointId} {active : Bool}
    (hkeeps : KeepsEntry (ofRequests files requests)
      ((ofRequests files requests).setActiveOrKeep other active).1 id)
    (hevent : event ∈ ((ofRequests files requests).setActiveOrKeep other active).2) :
    event.id ≠ id := by
  intro hid
  rcases setActiveOrKeep_ofRequests files hvalid other active with
    ⟨request, hmem, rfl, -, hset⟩ | ⟨-, hset⟩
  · rw [hset] at hkeeps hevent
    obtain rfl : request.id = id := (id_of_mem_flagEvents hevent).symm.trans hid
    have hchanged := (hvalid.activated request.id active).find?_id (List.mem_map_of_mem hmem)
    obtain ⟨new, hnew, hrequest⟩ := keepsRequest_of_keepsEntry hkeeps (hvalid.find?_id hmem)
    rw [BreakpointRequest.id_activatedFor] at hchanged
    rw [hchanged, Option.some.injEq, BreakpointRequest.activatedFor, if_pos rfl] at hnew
    rw [← hnew] at hrequest
    rw [flagEvents_of_keepsRequest hrequest] at hevent
    simp at hevent
  · rw [hset] at hevent
    simp at hevent

theorem dropped_quiet (hvalid : ValidRequests requests) {incoming : List BreakpointRequest}
    (hkeeps : KeepsEntry (ofRequests files requests)
      (ofRequests files (incoming.map (BreakpointRequest.reconciledWith requests))) id)
    {entry : TrackedBreakpoint} (hentry : entry ∈ (ofRequests files requests).dropped incoming) :
    entry.id ≠ id := by
  intro hid
  obtain ⟨request, hmem, hdropped, rfl⟩ := mem_dropped_ofRequests.mp hentry
  obtain rfl : request.id = id := (id_settled files request).symm.trans hid
  obtain ⟨new, hnew, -⟩ := keepsRequest_of_keepsEntry hkeeps (hvalid.find?_id hmem)
  obtain ⟨source, hsource, rfl⟩ := List.mem_map.mp (List.mem_of_find?_eq_some hnew)
  have hsourceId : source.id = request.id := by
    simpa [BreakpointRequest.id_reconciledWith] using List.find?_some hnew
  exact hdropped (hsourceId ▸ List.mem_map_of_mem hsource)

theorem syncEvents_quiet {incoming : List BreakpointRequest}
    (hchanged : ValidRequests (incoming.map (BreakpointRequest.reconciledWith requests)))
    (hkeeps : KeepsEntry (ofRequests files requests)
      (ofRequests files (incoming.map (BreakpointRequest.reconciledWith requests))) id)
    {request : BreakpointRequest} (hmem : request ∈ incoming)
    (hevent : event ∈ syncEvents files requests request) : event.id ≠ id := by
  intro hid
  obtain rfl : request.id = id := (id_of_mem_syncEvents hevent).symm.trans hid
  have hnew := hchanged.find?_id (List.mem_map_of_mem hmem)
  rw [BreakpointRequest.id_reconciledWith] at hnew
  cases hfind : requests.find? fun other => other.id = request.id with
  | none =>
      unfold KeepsEntry at hkeeps
      rw [find?_ofRequests, find?_ofRequests, hfind, hnew] at hkeeps
      simp at hkeeps
  | some kept =>
      obtain ⟨new, hfound, hrequest⟩ := keepsRequest_of_keepsEntry hkeeps hfind
      rw [hnew, Option.some.injEq] at hfound
      rw [← hfound] at hrequest
      rw [syncEvents_of_keepsRequest hfind hrequest] at hevent
      simp at hevent

/-- No operation reports anything for an id whose entry stays as it is. -/
theorem id_ne_of_keepsEntry (hvalid : ValidRequests requests) (operation : CollectionOperation)
    (hkeeps : KeepsEntry (ofRequests files requests)
      ((ofRequests files requests).apply operation).1 id)
    (hevent : event ∈ ((ofRequests files requests).apply operation).2) : event.id ≠ id := by
  cases operation with
  | add file =>
      intro hid
      rw [Collection.apply, add_ofRequests] at hkeeps hevent
      obtain ⟨request, hmem, hevent⟩ := List.mem_flatMap.mp hevent
      obtain rfl : request.id = id := (id_of_mem_addEvents hevent).symm.trans hid
      rw [addEvents_of_keepsRequest (keepsRequest_of_mem hvalid hmem hkeeps)] at hevent
      simp at hevent
  | remove handle =>
      intro hid
      rw [Collection.apply, remove_ofRequests] at hkeeps hevent
      obtain ⟨request, hmem, hevent⟩ := List.mem_flatMap.mp hevent
      obtain rfl : request.id = id := (id_of_mem_removeEvents hevent).symm.trans hid
      rw [removeEvents_of_keepsRequest (keepsRequest_of_mem hvalid hmem hkeeps)] at hevent
      simp at hevent
  | sync incoming =>
      rw [Collection.apply] at hkeeps hevent
      rcases syncOrKeep_ofRequests files requests incoming with
        ⟨hincoming, hsync⟩ | ⟨-, hsync⟩
      · rw [hsync] at hkeeps hevent
        rcases List.mem_append.mp hevent with hremoved | hsynced
        · obtain ⟨entry, hentry, rfl⟩ := List.mem_map.mp hremoved
          exact dropped_quiet hvalid hkeeps hentry
        · obtain ⟨request, hmem, hreported⟩ := List.mem_flatMap.mp hsynced
          exact syncEvents_quiet (hvalid.reconciled hincoming) hkeeps hmem hreported
      · rw [hsync] at hevent
        simp at hevent
  | resolvePending =>
      rw [Collection.apply, resolvePending_ofRequests] at hevent
      simp at hevent
  | activate other => exact setActive_quiet hvalid hkeeps hevent
  | deactivate other => exact setActive_quiet hvalid hkeeps hevent

end Quiet

end PortablePdb
