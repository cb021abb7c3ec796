import PortablePdb.Proofs.Breakpoint.Answers

/-!
# Bindings do not depend on history

After every session the collection is the one that the loaded files and the breakpoints asked for
determine.  So each breakpoint is bound to the first file in load order that has code for it, and
loading the same files afresh and asking for the same breakpoints leads to the same collection.
-/

namespace PortablePdb

open TrackedBreakpoint

/-- What the loaded files say about a breakpoint is what the breakpoint shows. -/
structure TrackedBreakpoint.CanonicallyBound (files : List LoadedFile)
    (entry : TrackedBreakpoint) : Prop where
  unresolved_iff : entry.breakpoint.state = .unresolved ↔
    ∀ file ∈ files,
      Location.resolve file.symbols entry.breakpoint.filePath entry.breakpoint.line = none
  unbound_of_unresolved : entry.breakpoint.state = .unresolved →
    entry.breakpoint.location = none ∧ entry.boundTo = none
  bound_of_resolved : entry.breakpoint.state ≠ .unresolved →
    ∃ before file after location, files = before ++ file :: after ∧
      (∀ earlier ∈ before, Location.resolve earlier.symbols entry.breakpoint.filePath
        entry.breakpoint.line = none) ∧
      Location.resolve file.symbols entry.breakpoint.filePath entry.breakpoint.line =
        some location ∧
      entry.boundTo = some file.handle ∧ entry.breakpoint.location = some location ∧
      entry.breakpoint.state = if entry.activated then .activated else .deactivated

namespace Collection

theorem canonicallyBound_settled (files : List LoadedFile) (request : BreakpointRequest) :
    CanonicallyBound files (settled files request) := by
  have hnone : binding files request = none → settled files request = ofBinding request none :=
    fun hbinding => by rw [settled, hbinding]
  have hpath : (settled files request).breakpoint.filePath = request.filePath :=
    congrArg BreakpointRequest.filePath (request_settled files request)
  have hline : (settled files request).breakpoint.line = request.line :=
    congrArg BreakpointRequest.line (request_settled files request)
  have hstate : (settled files request).breakpoint.state = .unresolved ↔
      binding files request = none := by
    have hresolved := isResolved_ofBinding request (binding files request)
    rw [← settled, Breakpoint.isResolved, BreakpointState.isResolved] at hresolved
    rw [← Option.isNone_iff_eq_none, ← Option.not_isSome, ← hresolved]
    simp
  constructor
  · rw [hstate, hpath, hline]
    exact binding_eq_none_iff
  · intro hunresolved
    rw [hnone (hstate.mp hunresolved)]
    exact ⟨rfl, rfl⟩
  · intro hresolved
    obtain ⟨⟨handle, location⟩, hbinding⟩ :=
      Option.ne_none_iff_exists'.mp fun h => hresolved (hstate.mpr h)
    obtain ⟨before, file, after, hfiles, rfl, hfound, hbefore⟩ := binding_eq_some_iff.mp hbinding
    rw [hpath, hline]
    refine ⟨before, file, after, location, hfiles, hbefore, hfound, ?_, ?_, ?_⟩
    · rw [settled, hbinding]
      rfl
    · rw [settled, hbinding]
      rfl
    · rw [settled, hbinding]
      rfl

def loadAll (files : List LoadedFile) : Collection :=
  files.foldl (fun collection file => (collection.add file).1) empty

theorem loadAll_eq_ofRequests (files : List LoadedFile) : loadAll files = ofRequests files [] := by
  have hfold : ∀ loaded : List LoadedFile,
      files.foldl (fun collection file => (collection.add file).1) (ofRequests loaded []) =
        ofRequests (loaded ++ files) [] := by
    induction files with
    | nil => simp
    | cons file files ih =>
        intro loaded
        rw [List.foldl_cons, add_ofRequests, ih, List.append_assoc, List.singleton_append]
  exact hfold []

/-- A collection that starts with the files and the requests settles them at once. -/
theorem exists_sync_loadAll (files : List LoadedFile) {requests : List BreakpointRequest}
    (hvalid : ValidRequests requests) :
    ∃ events, (loadAll files).sync requests = .ok (ofRequests files requests, events) := by
  have hnone : BreakpointRequest.reconciledWith [] = fun request => request := rfl
  have hsync := sync_ofRequests files [] hvalid
  rw [hnone, List.map_id', ← loadAll_eq_ofRequests] at hsync
  exact ⟨_, hsync⟩

/-- In every session, the files are those that were loaded and not unloaded since, the entries
answer what was last asked for, ids are distinct, every breakpoint shows what the loaded files say
about its place, loading the files afresh and requesting the breakpoints as they are gives the same
collection, and nothing is left to resolve. -/
theorem run_bindings_canonical (operations : List CollectionOperation) :
    let collection := (run empty operations).1
    let session := Session.ofOperations operations
    collection.files = session.files ∧
      List.Forall₂ Answers session.requests collection.entries ∧
      (collection.breakpoints.map Breakpoint.id).Nodup ∧
      (∀ entry ∈ collection.entries, entry.CanonicallyBound collection.files) ∧
      (∃ events,
        (loadAll collection.files).sync (collection.entries.map TrackedBreakpoint.request) =
          .ok (collection, events)) ∧
      collection.resolvePending = (collection, []) := by
  intro collection session
  obtain ⟨kept, hvalid, hkept, hcollection⟩ : collection.Follows session := follows_run operations
  have hfiles : collection.files = session.files := by rw [hcollection, files_ofRequests]
  have hrequests : collection.entries.map TrackedBreakpoint.request = kept := by
    rw [hcollection, requests_ofRequests]
  refine ⟨hfiles, ?_, ?_, ?_, ?_, ?_⟩
  · rw [hcollection, ofRequests, List.forall₂_map_right_iff]
    exact hkept.imp fun _ _ => answers_settled session.files
  · rw [breakpoints, List.map_map, hcollection]
    exact ids_nodup_ofRequests session.files hvalid
  · intro entry hentry
    rw [hcollection] at hentry ⊢
    obtain ⟨request, -, rfl⟩ := List.mem_map.mp hentry
    exact canonicallyBound_settled session.files request
  · rw [hrequests, hfiles, hcollection]
    exact exists_sync_loadAll session.files hvalid
  · rw [hcollection]
    exact resolvePending_ofRequests session.files kept

end Collection

end PortablePdb
