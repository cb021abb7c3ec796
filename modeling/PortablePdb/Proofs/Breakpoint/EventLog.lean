import PortablePdb.Proofs.Breakpoint.Quiet

/-!
# The events of a session are a faithful log

A client that replays the events of a session never meets an illegal one, and after every operation
it holds the location of each resolved breakpoint, with the trap set or cleared as the breakpoint
is active or not.
-/

namespace PortablePdb

open TrackedBreakpoint Collection

/-- A client that holds the resolved breakpoints of a collection and nothing else, with traps that
are set or cleared as the breakpoints say. -/
structure Client.Shows (client : Client) (collection : Collection) : Prop where
  held_of_resolved : ∀ breakpoint ∈ collection.breakpoints, breakpoint.isResolved →
    ∃ location trap, breakpoint.location = some location ∧
      client.record breakpoint.id = some (location, trap)
  resolved_of_held : ∀ id location trap, client.record id = some (location, trap) →
    ∃ breakpoint ∈ collection.breakpoints, breakpoint.id = id ∧ breakpoint.isResolved ∧
      breakpoint.location = some location ∧ trap ≠ .pending ∧
      (trap = .on ↔ breakpoint.state = .activated) ∧
      (trap = .off ↔ breakpoint.state = .deactivated)

theorem Client.Tracks.shows {client : Client} {files : List LoadedFile}
    {requests : List BreakpointRequest} (htracks : client.Tracks files requests) :
    client.Shows (ofRequests files requests) where
  held_of_resolved := by
    intro breakpoint hmem hresolved
    simp only [breakpoints, ofRequests, List.map_map, List.mem_map] at hmem
    obtain ⟨request, hrequest, rfl⟩ := hmem
    have hheld := htracks.held request hrequest
    change (settled files request).breakpoint.isResolved = true at hresolved
    rw [settled, isResolved_ofBinding] at hresolved
    obtain ⟨⟨handle, location⟩, hbinding⟩ := Option.isSome_iff_exists.mp hresolved
    rw [hbinding] at hheld
    refine ⟨location, _, ?_, (congrArg client.record (id_settled files request)).trans hheld⟩
    change (settled files request).breakpoint.location = some location
    rw [settled, location_ofBinding, hbinding]
    rfl
  resolved_of_held := by
    intro id location trap hrecord
    rw [htracks.record_eq, answeredRecord] at hrecord
    obtain ⟨request, hfind, hrecord⟩ := Option.bind_eq_some_iff.mp hrecord
    obtain ⟨⟨handle, found⟩, hbinding, hpair⟩ := Option.map_eq_some_iff.mp hrecord
    obtain ⟨rfl, rfl⟩ := Prod.mk.inj hpair
    have hid : request.id = id := by simpa using List.find?_some hfind
    have hmem : request ∈ requests := List.mem_of_find?_eq_some hfind
    refine ⟨(settled files request).breakpoint, ?_, (id_settled files request).trans hid, ?_⟩
    · exact List.mem_map_of_mem (List.mem_map_of_mem hmem)
    · rw [settled, hbinding, isResolved_ofBinding]
      cases hactive : request.activated <;>
        simp [ofBinding, BreakpointState.ofActivation, hactive]

/-- In every session, a client that starts with nothing can replay all events, then shows the
collection, and the next operation reports nothing for an id whose entry it leaves as it is. -/
theorem run_events_replay (operations : List CollectionOperation) :
    let collection := (run empty operations).1
    (∃ client, Client.empty.replay (run empty operations).2 = some client ∧
      client.Shows collection) ∧
    ∀ operation id, KeepsEntry collection (collection.apply operation).1 id →
      ∀ event ∈ (collection.apply operation).2, event.id ≠ id := by
  intro collection
  have hstart : Client.empty.Tracks [] [] := ⟨by simp, fun _ _ => rfl⟩
  have hvalid : ValidRequests [] := ⟨List.nodup_nil, by simp⟩
  obtain ⟨files, requests, client, hrequests, hrun, hreplay, htracks⟩ :=
    hstart.replay_run hvalid operations
  have hcollection : collection = ofRequests files requests := hrun
  rw [hcollection]
  exact ⟨⟨client, hreplay, htracks.shows⟩,
    fun operation id hkeeps event hevent => id_ne_of_keepsEntry hrequests operation hkeeps hevent⟩

end PortablePdb
