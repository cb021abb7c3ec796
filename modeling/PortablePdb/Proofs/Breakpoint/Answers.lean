import PortablePdb.Proofs.Breakpoint.Requested
import PortablePdb.Proofs.Breakpoint.RequestText
import PortablePdb.Proofs.RelatedLists

/-!
# What is asked for

A breakpoint may keep an older spelling of its path than the last request for it has.  Otherwise the
entries of a collection answer, in order, what its session asks for, and its files are those that
the session leaves loaded.
-/

namespace PortablePdb

open TrackedBreakpoint

/-- Whether an entry is what a request asks for. -/
structure Answers (request : BreakpointRequest) (entry : TrackedBreakpoint) : Prop where
  id_eq : entry.id = request.id
  samePath : FilePath.same entry.breakpoint.filePath request.filePath = true
  line_eq : entry.breakpoint.line = request.line
  column_eq : entry.breakpoint.column = request.column
  activated_eq : entry.activated = request.activated
  state_eq : entry.breakpoint.isResolved → entry.breakpoint.state = .ofActivation request.activated

/-- Whether one request can stand for another, whose path it may spell differently. -/
structure Restates (request kept : BreakpointRequest) : Prop where
  id_eq : kept.id = request.id
  sameSource : kept.sameSource request = true
  activated_eq : kept.activated = request.activated

/-! ## Restated requests -/

namespace BreakpointRequest

theorem sameSource_iff {kept request : BreakpointRequest} :
    kept.sameSource request = true ↔ FilePath.same kept.filePath request.filePath = true ∧
      kept.line = request.line ∧ kept.column = request.column := by
  simp only [sameSource, Bool.and_eq_true, beq_iff_eq, and_assoc]

theorem sameSource_refl (request : BreakpointRequest) : request.sameSource request = true := by
  simp [sameSource_iff, FilePath.same]

theorem sameSource_reconciledWith (answered : List BreakpointRequest)
    (request : BreakpointRequest) : (request.reconciledWith answered).sameSource request = true := by
  unfold reconciledWith
  cases answered.find? fun other => other.id = request.id with
  | none => exact sameSource_refl request
  | some kept =>
      by_cases hsource : kept.sameSource request = true
      · simp only [hsource, if_true]
        exact hsource
      · simp only [hsource, Bool.false_eq_true, if_false]
        exact sameSource_refl request

theorem activated_reconciledWith (answered : List BreakpointRequest)
    (request : BreakpointRequest) :
    (request.reconciledWith answered).activated = request.activated := by
  unfold reconciledWith
  cases answered.find? fun other => other.id = request.id with
  | none => rfl
  | some kept => by_cases hsource : kept.sameSource request = true <;> simp [hsource, withActivated]

end BreakpointRequest

theorem restates_reconciledWith (answered : List BreakpointRequest)
    (request : BreakpointRequest) : Restates request (request.reconciledWith answered) where
  id_eq := BreakpointRequest.id_reconciledWith answered request
  sameSource := BreakpointRequest.sameSource_reconciledWith answered request
  activated_eq := BreakpointRequest.activated_reconciledWith answered request

theorem Restates.withActivated {request kept : BreakpointRequest} (hrestates : Restates request kept)
    (active : Bool) : Restates (request.withActivated active) (kept.withActivated active) where
  id_eq := hrestates.id_eq
  sameSource := hrestates.sameSource
  activated_eq := rfl

theorem state_ofBinding_of_isResolved {request : BreakpointRequest}
    {binding : Option (Nat × Location)}
    (hresolved : (ofBinding request binding).breakpoint.isResolved) :
    (ofBinding request binding).breakpoint.state = .ofActivation request.activated := by
  cases binding with
  | none => simp at hresolved
  | some found => rfl

theorem answers_settled (files : List LoadedFile) {request kept : BreakpointRequest}
    (hrestates : Restates request kept) : Answers request (settled files kept) := by
  have hrequest := Collection.request_settled files kept
  obtain ⟨hsamePath, hsameLine, hsameColumn⟩ :=
    BreakpointRequest.sameSource_iff.mp hrestates.sameSource
  have hpath : (settled files kept).breakpoint.filePath = kept.filePath :=
    congrArg BreakpointRequest.filePath hrequest
  have hline : (settled files kept).breakpoint.line = kept.line :=
    congrArg BreakpointRequest.line hrequest
  have hcolumn : (settled files kept).breakpoint.column = kept.column :=
    congrArg BreakpointRequest.column hrequest
  have hflag : (settled files kept).activated = kept.activated :=
    congrArg BreakpointRequest.activated hrequest
  constructor
  · rw [Collection.id_settled, hrestates.id_eq]
  · rw [hpath, hsamePath]
  · rw [hline, hsameLine]
  · rw [hcolumn, hsameColumn]
  · rw [hflag, hrestates.activated_eq]
  · rw [← hrestates.activated_eq]
    exact state_ofBinding_of_isResolved

/-! ## The code for a restated request -/

theorem Location.resolve_congr {first second : String} (hsame : FilePath.same first second = true)
    (file : SymbolFile) (line : Nat) : resolve file first line = resolve file second line := by
  have hfold : FilePath.fold first = FilePath.fold second := beq_iff_eq.mp hsame
  have hdocuments : file.findDocuments first = file.findDocuments second := by
    simp only [SymbolFile.findDocuments, DocumentInfo.matchesPath, FilePath.same, hfold]
  rw [resolve, resolve, candidates, candidates, hdocuments]

theorem Restates.hasCode_eq {session : Session} {request kept : BreakpointRequest}
    (hrestates : Restates request kept) :
    session.hasCode request = (binding session.files kept).isSome := by
  obtain ⟨hpath, hline, -⟩ := BreakpointRequest.sameSource_iff.mp hrestates.sameSource
  have hresolve : ∀ file : LoadedFile,
      Location.resolve file.symbols request.filePath request.line =
        Location.resolve file.symbols kept.filePath kept.line := by
    intro file
    rw [hline, Location.resolve_congr hpath]
  rw [Bool.eq_iff_iff, Option.isSome_iff_ne_none, Ne, binding_eq_none_iff]
  simp [Session.hasCode, hresolve, Option.isSome_iff_ne_none]

/-! ## Collections that follow a session -/

theorem Session.acceptable_iff {requests : List BreakpointRequest} :
    Acceptable requests ↔ ValidRequests requests := by
  simp only [Acceptable, ← BreakpointRequest.validate_eq_ok_iff]
  exact ⟨fun hrequests => ⟨hrequests.1, hrequests.2⟩, fun hvalid => ⟨hvalid.ids_nodup, hvalid.valid⟩⟩

namespace Collection

/-- The collection has the files of the session and an entry for each breakpoint that it asks for,
settled among the files. -/
def Follows (collection : Collection) (session : Session) : Prop :=
  ∃ kept, ValidRequests kept ∧ List.Forall₂ Restates session.requests kept ∧
    collection = ofRequests session.files kept

variable {collection : Collection} {session : Session}

theorem Follows.sync (hfollows : collection.Follows session) (requests : List BreakpointRequest) :
    (collection.syncOrKeep requests).1.Follows (session.after (.sync requests)) := by
  obtain ⟨kept, hvalid, hkept, rfl⟩ := hfollows
  rcases syncOrKeep_ofRequests session.files kept requests with
    ⟨hrequests, hsync⟩ | ⟨hinvalid, hsync⟩
  · rw [hsync, Session.after, if_pos (Session.acceptable_iff.mpr hrequests)]
    refine ⟨_, hvalid.reconciled hrequests, ?_, rfl⟩
    rw [List.forall₂_map_right_iff, List.forall₂_same]
    exact fun request _ => restates_reconciledWith kept request
  · rw [hsync, Session.after, if_neg (mt Session.acceptable_iff.mp hinvalid)]
    exact ⟨kept, hvalid, hkept, rfl⟩

theorem Follows.setActive (hfollows : collection.Follows session) (id : BreakpointId)
    (active : Bool) :
    (collection.setActiveOrKeep id active).1.Follows (session.setActive id active) := by
  obtain ⟨kept, hvalid, hkept, rfl⟩ := hfollows
  rcases setActiveOrKeep_ofRequests session.files hvalid id active with
    ⟨bound, hmem, rfl, hbound, hset⟩ | ⟨hunbound, hset⟩
  · rw [hset]
    refine ⟨_, hvalid.activated bound.id active, forall₂_map_of_mem hkept ?_, rfl⟩
    intro request other hother hrestates
    by_cases hid : request.id = bound.id
    · -- Ids are distinct, so the request with the id is the one with code.
      obtain rfl := hvalid.eq_of_id_eq hother hmem (hrestates.id_eq.trans hid)
      rw [if_pos ⟨hid, hrestates.hasCode_eq.trans hbound⟩, BreakpointRequest.activatedFor,
        if_pos rfl]
      exact hrestates.withActivated active
    · have hother : other.id ≠ bound.id := hrestates.id_eq ▸ hid
      rw [if_neg fun hboth => hid hboth.1, BreakpointRequest.activatedFor, if_neg hother]
      exact hrestates
  · rw [hset]
    refine ⟨kept, hvalid, ?_, rfl⟩
    rw [← List.map_id kept]
    refine forall₂_map_of_mem hkept fun request other hother hrestates => ?_
    have hskipped : ¬(request.id = id ∧ session.hasCode request = true) := by
      rintro ⟨hid, hcode⟩
      rw [hrestates.hasCode_eq, hunbound other hother (hrestates.id_eq.trans hid)] at hcode
      cases hcode
    rw [if_neg hskipped]
    exact hrestates

theorem Follows.apply (hfollows : collection.Follows session) (operation : CollectionOperation) :
    (collection.apply operation).1.Follows (session.after operation) := by
  cases operation with
  | add file =>
      obtain ⟨kept, hvalid, hkept, rfl⟩ := hfollows
      rw [Collection.apply, add_ofRequests]
      exact ⟨kept, hvalid, hkept, rfl⟩
  | remove handle =>
      obtain ⟨kept, hvalid, hkept, rfl⟩ := hfollows
      rw [Collection.apply, remove_ofRequests]
      exact ⟨kept, hvalid, hkept, rfl⟩
  | sync requests => exact hfollows.sync requests
  | resolvePending =>
      obtain ⟨kept, hvalid, hkept, rfl⟩ := hfollows
      rw [Collection.apply, resolvePending_ofRequests]
      exact ⟨kept, hvalid, hkept, rfl⟩
  | activate id => exact hfollows.setActive id true
  | deactivate id => exact hfollows.setActive id false

theorem Follows.run (hfollows : collection.Follows session)
    (operations : List CollectionOperation) :
    (collection.run operations).1.Follows (operations.foldl Session.after session) := by
  induction operations generalizing collection session with
  | nil => exact hfollows
  | cons operation operations ih =>
      rw [run_cons, List.foldl_cons]
      exact ih (hfollows.apply operation)

theorem follows_run (operations : List CollectionOperation) :
    (run empty operations).1.Follows (.ofOperations operations) := by
  have hempty : empty.Follows ⟨[], []⟩ := ⟨[], ⟨List.nodup_nil, by simp⟩, .nil, rfl⟩
  exact hempty.run operations

end Collection

end PortablePdb
