import PortablePdb.Proofs.Breakpoint.EntryMap
import PortablePdb.Proofs.Breakpoint.Faults
import PortablePdb.Proofs.Breakpoint.Resolution
import PortablePdb.Proofs.Breakpoint.Tracking

/-!
# Reconciliation

`sync` makes a collection answer a list of requests, all of them or none.  The first request at
fault decides the error.  Without a fault, each request has an entry afterwards, in the order of the
requests.  Ids that are not requested are reported removed, before anything else, and an entry that
had code for the same place keeps it without a word.  Asking for the same once more does nothing.

On a collection of settled entries all this is read off `sync_ofRequests`.  The only other thing to
know is that `reconciledWith` comes to rest after one step.
-/

namespace PortablePdb

open TrackedBreakpoint

theorem ValidRequests.find?_reconciled {answered requests : List BreakpointRequest}
    (hanswered : ValidRequests answered) (hvalid : ValidRequests requests)
    {request : BreakpointRequest} (hmem : request ∈ requests) :
    ((requests.map (BreakpointRequest.reconciledWith answered)).find? fun other =>
      other.id = request.id) = some (request.reconciledWith answered) := by
  rw [← BreakpointRequest.id_reconciledWith answered request]
  exact (hanswered.reconciled hvalid).find?_id (List.mem_map_of_mem hmem)

/-- Reconciling comes to rest after one step. -/
theorem ValidRequests.reconciledWith_reconciled {answered requests : List BreakpointRequest}
    (hanswered : ValidRequests answered) (hvalid : ValidRequests requests)
    {request : BreakpointRequest} (hmem : request ∈ requests) :
    request.reconciledWith (requests.map (BreakpointRequest.reconciledWith answered)) =
      request.reconciledWith answered := by
  have hactivated := BreakpointRequest.activated_reconciledWith answered request
  rw [BreakpointRequest.reconciledWith, hanswered.find?_reconciled hvalid hmem]
  simp only [BreakpointRequest.sameSource_reconciledWith, if_true, ← hactivated,
    BreakpointRequest.withActivated]

/-- No answer reports a removal. -/
theorem ne_removed_of_mem_syncEvents {files : List LoadedFile} {answered : List BreakpointRequest}
    {request : BreakpointRequest} {event : BreakpointEvent}
    (hevent : event ∈ Collection.syncEvents files answered request) (id : BreakpointId)
    (location : Option Location) : event ≠ .removed id location := by
  have hbinding : ∀ binding, .removed id location ∉ bindingEvents request binding := by
    intro binding
    cases binding with
    | none => simp [bindingEvents]
    | some found =>
        cases hactive : request.activated <;>
          simp [bindingEvents, BreakpointEvent.ofActivation, hactive]
  have hflag : ∀ kept binding, .removed id location ∉ flagEvents kept request.activated binding := by
    intro kept binding
    cases binding with
    | none => simp [flagEvents]
    | some found => cases request.activated <;> simp [flagEvents, BreakpointEvent.ofActivation]
  rintro rfl
  unfold Collection.syncEvents at hevent
  cases hfind : answered.find? fun other => other.id = request.id with
  | none =>
      rw [hfind] at hevent
      exact hbinding _ hevent
  | some kept =>
      rw [hfind] at hevent
      simp only at hevent
      split at hevent
      · exact hflag kept _ hevent
      · rcases List.mem_append.mp hevent with hevent | hevent
        · simp [unbindEvents] at hevent
        · exact hbinding _ hevent

/-- What a collection and its events come to when it answers a list of requests. -/
structure Reconciles (before : Collection) (requests : List BreakpointRequest)
    (after : Collection) (events : List BreakpointEvent) : Prop where
  files_eq : after.files = before.files
  answers : List.Forall₂ Answers requests after.entries
  /-- An entry that has code for the same place keeps it, and reports at most that it is activated
  or deactivated there. -/
  kept : ∀ request ∈ requests, ∀ old ∈ before.entries, old.id = request.id →
    old.breakpoint.sameSource request → old.breakpoint.isResolved →
      (∃ new ∈ after.entries, new.id = request.id ∧
        new.breakpoint.location = old.breakpoint.location ∧ new.boundTo = old.boundTo) ∧
      ∀ event ∈ events, event.id = request.id → ∃ location,
        old.breakpoint.location = some location ∧
          event = .ofActivation request.activated request.id location
  /-- The ids that are not requested are removed first, each once and in increasing order. -/
  removals : ∃ (removed : List TrackedBreakpoint) (later : List BreakpointEvent),
    events = removed.map (fun entry => .removed entry.id entry.breakpoint.location) ++ later ∧
      (removed.Pairwise fun first second => first.id.number < second.id.number) ∧
      (∀ entry, entry ∈ removed ↔
        entry ∈ before.entries ∧ entry.id ∉ requests.map BreakpointRequest.id) ∧
      ∀ id location, .removed id location ∉ later

namespace Collection

theorem dropped_pairwise_lt (files : List LoadedFile) {answered : List BreakpointRequest}
    (hvalid : ValidRequests answered) (requests : List BreakpointRequest) :
    ((ofRequests files answered).dropped requests).Pairwise
      fun first second => first.id.number < second.id.number := by
  have hle : ((ofRequests files answered).dropped requests).Pairwise
      fun first second => first.id.number ≤ second.id.number :=
    pairwise_mergeSort_key (fun entry : TrackedBreakpoint => entry.id.number) _
  have hne := List.pairwise_map.mp (dropped_ids_nodup files hvalid requests)
  refine (hle.and hne).imp ?_
  rintro first second ⟨hle, hne⟩
  refine Nat.lt_of_le_of_ne hle fun heq => hne ?_
  cases hfirst : first.id
  cases hsecond : second.id
  simp_all

/-- An id that is requested with a place that has code already reports at most a change of its
activation. -/
theorem reports_of_sameSource {files : List LoadedFile} {answered requests : List BreakpointRequest}
    (hvalid : ValidRequests requests) {kept request : BreakpointRequest}
    (hmem : request ∈ requests)
    (hfind : (answered.find? fun other => other.id = request.id) = some kept)
    (hsource : kept.sameSource request = true) {event : BreakpointEvent}
    (hid : event.id = request.id)
    (hevent : event ∈ ((ofRequests files answered).dropped requests).map (fun entry =>
          BreakpointEvent.removed entry.id entry.breakpoint.location) ++
        requests.flatMap (syncEvents files answered)) :
    event ∈ flagEvents kept request.activated (binding files kept) := by
  rcases List.mem_append.mp hevent with hevent | hevent
  · obtain ⟨entry, hentry, rfl⟩ := List.mem_map.mp hevent
    have hdropped := (mem_entries_of_mem_dropped hentry).2
    have hsame : entry.id = request.id := hid
    exact absurd (hsame ▸ List.mem_map_of_mem hmem) hdropped
  · obtain ⟨other, hother, hreported⟩ := List.mem_flatMap.mp hevent
    have hsame : other.id = request.id := (id_of_mem_syncEvents hreported).symm.trans hid
    rw [hvalid.eq_of_id_eq hother hmem hsame] at hreported
    rw [syncEvents, hfind] at hreported
    simpa [hsource] using hreported

theorem mem_entries_ofRequests {files : List LoadedFile} {requests : List BreakpointRequest}
    {entry : TrackedBreakpoint} :
    entry ∈ (ofRequests files requests).entries ↔
      ∃ request ∈ requests, settled files request = entry :=
  List.mem_map

theorem reconciles_ofRequests (files : List LoadedFile) {answered requests : List BreakpointRequest}
    (hanswered : ValidRequests answered) (hvalid : ValidRequests requests) :
    Reconciles (ofRequests files answered) requests
      (ofRequests files (requests.map (BreakpointRequest.reconciledWith answered)))
      (((ofRequests files answered).dropped requests).map (fun entry =>
          BreakpointEvent.removed entry.id entry.breakpoint.location) ++
        requests.flatMap (syncEvents files answered)) where
  files_eq := rfl
  answers := by
    simp only [ofRequests, List.forall₂_map_right_iff, List.forall₂_same]
    exact fun request _ => answers_settled files (restates_reconciledWith answered request)
  kept := by
    intro request hmem old hold hid hsource hresolved
    obtain ⟨kept, hkept, rfl⟩ := mem_entries_ofRequests.mp hold
    rw [id_settled] at hid
    rw [sameSource_settled] at hsource
    have hfind : (answered.find? fun other => other.id = request.id) = some kept :=
      hid ▸ hanswered.find?_id hkept
    have hreconciled : request.reconciledWith answered =
        kept.withActivated request.activated := by
      simp [BreakpointRequest.reconciledWith, hfind, hsource]
    have hbinding : binding files (kept.withActivated request.activated) = binding files kept := rfl
    refine ⟨⟨settled files (request.reconciledWith answered),
      mem_entries_ofRequests.mpr ⟨_, List.mem_map_of_mem hmem, rfl⟩, ?_, ?_, ?_⟩, ?_⟩
    · rw [id_settled, BreakpointRequest.id_reconciledWith]
    · rw [hreconciled, settled, settled, location_ofBinding, location_ofBinding, hbinding]
    · rw [hreconciled, settled, settled, boundTo_ofBinding, boundTo_ofBinding, hbinding]
    · intro event hevent hevents
      have hflag := reports_of_sameSource hvalid hmem hfind hsource hevents hevent
      rw [settled, location_ofBinding]
      cases hbound : binding files kept with
      | none => simp [hbound, flagEvents] at hflag
      | some found =>
          rw [hbound, flagEvents] at hflag
          split at hflag
          · simp at hflag
          · exact ⟨found.2, rfl, hid ▸ List.mem_singleton.mp hflag⟩
  removals := by
    refine ⟨(ofRequests files answered).dropped requests,
      requests.flatMap (syncEvents files answered), rfl,
      dropped_pairwise_lt files hanswered requests, ?_, ?_⟩
    · intro entry
      rw [mem_dropped_ofRequests, mem_entries_ofRequests]
      constructor
      · rintro ⟨request, hrequest, hdropped, rfl⟩
        exact ⟨⟨request, hrequest, rfl⟩, by rwa [id_settled]⟩
      · rintro ⟨⟨request, hrequest, rfl⟩, hdropped⟩
        exact ⟨request, hrequest, by rwa [id_settled] at hdropped, rfl⟩
    · intro id location hremoved
      obtain ⟨request, -, hreported⟩ := List.mem_flatMap.mp hremoved
      exact ne_removed_of_mem_syncEvents hreported id location rfl

/-- The requests that a collection has just answered change nothing. -/
theorem sync_reconciled (files : List LoadedFile) {answered requests : List BreakpointRequest}
    (hanswered : ValidRequests answered) (hvalid : ValidRequests requests) :
    let after := ofRequests files (requests.map (BreakpointRequest.reconciledWith answered))
    after.sync requests = .ok (after, []) := by
  intro after
  have hagain : requests.map (BreakpointRequest.reconciledWith
      (requests.map (BreakpointRequest.reconciledWith answered))) =
        requests.map (BreakpointRequest.reconciledWith answered) :=
    List.map_congr_left fun request hmem => hanswered.reconciledWith_reconciled hvalid hmem
  have hsilent : ∀ request ∈ requests, syncEvents files
      (requests.map (BreakpointRequest.reconciledWith answered)) request = [] := by
    intro request hmem
    rw [syncEvents, hanswered.find?_reconciled hvalid hmem]
    simp only [BreakpointRequest.sameSource_reconciledWith, if_true]
    rw [← BreakpointRequest.activated_reconciledWith answered request, flagEvents_self]
  have hdropped : after.dropped requests = [] := by
    apply List.eq_nil_iff_forall_not_mem.mpr
    intro entry hentry
    obtain ⟨other, hother, hgone, -⟩ := mem_dropped_ofRequests.mp hentry
    obtain ⟨request, hrequest, rfl⟩ := List.mem_map.mp hother
    rw [BreakpointRequest.id_reconciledWith] at hgone
    exact hgone (List.mem_map_of_mem hrequest)
  rw [sync_ofRequests files _ hvalid, hagain, hdropped, List.flatMap_eq_nil_iff.mpr hsilent]
  rfl

end Collection

/-- What must hold of the state and the outcome that a list of requests leads to. -/
structure ExactSync (collection : Collection) (requests : List BreakpointRequest)
    (after : Collection) (outcome : Except BreakpointError (List BreakpointEvent)) : Prop where
  fails_iff : (∃ error, outcome = .error error) ↔
    ∃ before request rest, requests = before ++ request :: rest ∧
      (request.id ∈ before.map BreakpointRequest.id ∨ Text.isBlankText request.filePath ∨
        request.line = 0)
  error_iff : ∀ error, outcome = .error error ↔ FirstFault [] requests error
  unchanged : ∀ error, outcome = .error error → after = collection
  answered : ∀ events, outcome = .ok events →
    Reconciles collection requests after events ∧
      ∀ again : EntryMap, again.HasEntries after.entries →
        after.syncThrough again requests = (after, .ok [])

namespace Collection

theorem exactSync_ofRequests (files : List LoadedFile) {answered : List BreakpointRequest}
    (hanswered : ValidRequests answered) (requests : List BreakpointRequest) :
    let collection := ofRequests files answered
    ExactSync collection requests (collection.syncOrKeep requests).1
      ((collection.sync requests).map Prod.snd) := by
  intro collection
  have herror : ∀ error, (collection.sync requests).map Prod.snd = .error error ↔
      FirstFault [] requests error := by
    intro error
    have hsync : collection.sync requests = .error error ↔ FirstFault [] requests error :=
      sync_eq_error_iff
    rw [← hsync]
    cases collection.sync requests <;> simp [Except.map]
  have hok : ∀ events, (collection.sync requests).map Prod.snd = .ok events →
      ∃ after, collection.sync requests = .ok (after, events) ∧ ValidRequests requests := by
    intro events houtcome
    cases hsync : collection.sync requests with
    | error error => simp [hsync, Except.map] at houtcome
    | ok result =>
        obtain ⟨after, reported⟩ := result
        obtain rfl : reported = events := by simpa [hsync, Except.map] using houtcome
        refine ⟨after, rfl, ?_⟩
        by_contra hinvalid
        obtain ⟨error, herror⟩ := sync_error collection hinvalid
        rw [hsync] at herror
        cases herror
  constructor
  · simp only [herror, exists_firstFault_iff, List.nil_append,
      BreakpointRequest.fault?_ne_none_iff]
  · exact herror
  · intro error houtcome
    have hsync : collection.sync requests = .error error :=
      sync_eq_error_iff.mpr ((herror error).mp houtcome)
    rw [syncOrKeep, hsync]
  · intro events houtcome
    obtain ⟨after, hsync, hvalid⟩ := hok events houtcome
    have hclosed := sync_ofRequests files answered hvalid
    rw [hsync] at hclosed
    obtain ⟨rfl, rfl⟩ := Prod.mk.inj (Except.ok.inj hclosed)
    rw [syncOrKeep, hsync]
    refine ⟨reconciles_ofRequests files hanswered hvalid, ?_⟩
    intro again hagain
    rw [syncThrough_eq (ids_nodup_ofRequests files (hanswered.reconciled hvalid)) hagain,
      syncOrKeep, sync_reconciled files hanswered hvalid]
    rfl

/-- In every session and whatever the order of the map: a list of requests is refused for its first
request at fault and then changes nothing, or it is answered exactly, and answered again without an
event. -/
theorem run_sync_exact (operations : List CollectionOperation)
    (requests : List BreakpointRequest) {map : EntryMap}
    (hmap : map.HasEntries (run empty operations).1.entries) :
    let collection := (run empty operations).1
    collection.syncThrough map requests =
        ((collection.syncOrKeep requests).1, (collection.sync requests).map Prod.snd) ∧
      ExactSync collection requests (collection.syncThrough map requests).1
        (collection.syncThrough map requests).2 := by
  obtain ⟨answered, hanswered, -, hcollection⟩ := follows_run operations
  generalize (Session.ofOperations operations).files = files at hcollection
  rw [hcollection] at hmap ⊢
  intro collection
  have hthrough : collection.syncThrough map requests =
      ((collection.syncOrKeep requests).1, (collection.sync requests).map Prod.snd) :=
    syncThrough_eq (ids_nodup_ofRequests files hanswered) hmap requests
  refine ⟨hthrough, ?_⟩
  rw [hthrough]
  exact exactSync_ofRequests files hanswered requests

/-- The first is the only one for a line that `Location.twinImage` covers. -/
def firstRequests : List BreakpointRequest :=
  [.ofLine ⟨2⟩ "S/a" 15, .ofLine ⟨1⟩ "b" 3, .ofLine ⟨3⟩ "c" 1]

/-- One id moves, one is kept under another spelling and disabled, and one is gone. -/
def secondRequests : List BreakpointRequest :=
  [.ofLine ⟨3⟩ "c" 2, (BreakpointRequest.ofLine ⟨2⟩ "s\\A" 15).withActivated false]

theorem valid_firstRequests : ValidRequests firstRequests :=
  (checkRequests_eq_ok_iff.mp (show checkRequests [] firstRequests = .ok () from rfl)).1

theorem valid_secondRequests : ValidRequests secondRequests :=
  (checkRequests_eq_ok_iff.mp (show checkRequests [] secondRequests = .ok () from rfl)).1

theorem run_firstRequests (file : LoadedFile) :
    (run empty [.add file, .sync firstRequests]).1 = ofRequests [file] firstRequests := by
  have hreconciled : firstRequests.map (BreakpointRequest.reconciledWith []) = firstRequests := rfl
  have hadd : empty.add file = (ofRequests [file] [], []) := add_ofRequests [] [] file
  have hsync := sync_ofRequests [file] [] valid_firstRequests
  rw [hreconciled] at hsync
  simp only [run, Collection.apply, hadd, syncOrKeep, hsync]

theorem exists_resolve_twinImage : ∃ file,
    SymbolFile.parse Location.twinImage = .ok file ∧ Location.resolve file "S/a" 15 ≠ none := by
  obtain ⟨file, hfile, hcovered⟩ := SymbolFile.exists_parse_of_any (fun file =>
    file.documents.any fun document => document.matchesPath "S/a" &&
      document.methods.any fun method => method.covers 15)
    (show (SymbolFile.parse Location.twinImage).toOption.any _ = true by decide +kernel)
  refine ⟨file, hfile, fun hnone => ?_⟩
  have huncovered := (Location.resolve_eq_none_iff (Location.inRowOrder_of_parse hfile)).mp hnone
  simp only [List.any_eq_true, Bool.and_eq_true] at hcovered
  obtain ⟨document, hdocument, hmatches, method, hmethod, hcovers⟩ := hcovered
  rw [huncovered document hdocument hmatches method hmethod] at hcovers
  cases hcovers

/-- The map may show the entries backwards. -/
theorem run_sync_exact_reversed : ∃ file map,
    SymbolFile.parse Location.twinImage = .ok file ∧
      let collection := (run empty [.add ⟨7, file⟩, .sync firstRequests]).1
      map.HasEntries collection.entries ∧ map.items = collection.entries.reverse ∧
      (∃ kept ∈ collection.entries, kept.id = ⟨2⟩ ∧ kept.breakpoint.isResolved) ∧
      (∃ events, (collection.syncThrough map secondRequests).2 = .ok events) ∧
      ExactSync collection secondRequests (collection.syncThrough map secondRequests).1
        (collection.syncThrough map secondRequests).2 := by
  obtain ⟨file, hfile, hresolves⟩ := exists_resolve_twinImage
  have hrun := run_firstRequests ⟨7, file⟩
  obtain ⟨map, hitems, hmap⟩ := EntryMap.exists_reversed
    (ids_nodup_ofRequests [⟨7, file⟩] valid_firstRequests)
  rw [← hrun] at hitems hmap
  have hexact := run_sync_exact [.add ⟨7, file⟩, .sync firstRequests] secondRequests hmap
  refine ⟨file, map, hfile, hmap, hitems, ?_, ?_, hexact.2⟩
  · rw [hrun]
    refine ⟨settled [⟨7, file⟩] (.ofLine ⟨2⟩ "S/a" 15),
      mem_entries_ofRequests.mpr ⟨_, by simp [firstRequests], rfl⟩, id_settled _ _, ?_⟩
    rw [settled, isResolved_ofBinding, Option.isSome_iff_ne_none, Ne, binding_eq_none_iff]
    exact fun hnone => hresolves (hnone ⟨7, file⟩ (by simp))
  · rw [hexact.1, hrun, sync_ofRequests [⟨7, file⟩] firstRequests valid_secondRequests]
    exact ⟨_, rfl⟩

end Collection

end PortablePdb
