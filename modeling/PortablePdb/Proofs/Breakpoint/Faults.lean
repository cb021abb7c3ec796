import Mathlib.Data.List.Basic
import PortablePdb.Breakpoint.Collection

/-!
# Requests at fault

A request is at fault if it repeats the id of an earlier one, has a blank path or has the line zero.
A list of requests is refused for the first of its requests that is at fault, and for the first of
the three reasons that applies to it.
-/

namespace PortablePdb

namespace BreakpointRequest

/-- What is wrong with a request that comes after others. -/
def fault? (earlier : List BreakpointRequest) (request : BreakpointRequest) :
    Option BreakpointError :=
  if request.id ∈ earlier.map id then some (.duplicateId request.id)
  else if Text.isBlankText request.filePath then some .emptyPath
  else if request.line = 0 then some .zeroLine
  else none

theorem fault?_ne_none_iff {earlier : List BreakpointRequest} {request : BreakpointRequest} :
    request.fault? earlier ≠ none ↔
      request.id ∈ earlier.map id ∨ Text.isBlankText request.filePath ∨ request.line = 0 := by
  unfold fault?
  grind

end BreakpointRequest

/-- Whether no request is at fault after the earlier ones and those before it. -/
def Faultless (earlier requests : List BreakpointRequest) : Prop :=
  ∀ before request after, requests = before ++ request :: after →
    request.fault? (earlier ++ before) = none

/-- Whether the first request at fault is so for the given reason. -/
def FirstFault (earlier requests : List BreakpointRequest) (error : BreakpointError) : Prop :=
  ∃ before request after, requests = before ++ request :: after ∧ Faultless earlier before ∧
    request.fault? (earlier ++ before) = some error

theorem faultless_nil (earlier : List BreakpointRequest) : Faultless earlier [] := by
  intro before request after hsplit
  simp at hsplit

theorem faultless_cons {earlier requests : List BreakpointRequest} {request : BreakpointRequest} :
    Faultless earlier (request :: requests) ↔
      request.fault? earlier = none ∧ Faultless (earlier ++ [request]) requests := by
  constructor
  · intro hfaultless
    refine ⟨by simpa using hfaultless [] request requests rfl, ?_⟩
    rintro before other after rfl
    simpa using hfaultless (request :: before) other after rfl
  · rintro ⟨hrequest, hrequests⟩ before other after hsplit
    cases before with
    | nil =>
        obtain ⟨rfl, rfl⟩ := List.cons.inj hsplit
        simpa using hrequest
    | cons first before =>
        obtain ⟨rfl, rfl⟩ := List.cons.inj hsplit
        simpa using hrequests before other after rfl

theorem firstFault_cons {earlier requests : List BreakpointRequest} {request : BreakpointRequest}
    {error : BreakpointError} :
    FirstFault earlier (request :: requests) error ↔
      request.fault? earlier = some error ∨
        request.fault? earlier = none ∧ FirstFault (earlier ++ [request]) requests error := by
  constructor
  · rintro ⟨before, other, after, hsplit, hbefore, hfault⟩
    cases before with
    | nil =>
        obtain ⟨rfl, rfl⟩ := List.cons.inj hsplit
        left
        simpa using hfault
    | cons first before =>
        obtain ⟨rfl, rfl⟩ := List.cons.inj hsplit
        obtain ⟨hfirst, hbefore⟩ := faultless_cons.mp hbefore
        exact .inr ⟨hfirst, before, other, after, rfl, hbefore, by simpa using hfault⟩
  · rintro (hfault | ⟨hnone, before, other, after, rfl, hbefore, hfault⟩)
    · exact ⟨[], request, requests, rfl, faultless_nil earlier, by simpa using hfault⟩
    · exact ⟨request :: before, other, after, rfl, faultless_cons.mpr ⟨hnone, hbefore⟩,
        by simpa using hfault⟩

namespace Collection

theorem checkRequests_cons {seen : List BreakpointId} {earlier : List BreakpointRequest}
    (hseen : ∀ id, id ∈ seen ↔ id ∈ earlier.map BreakpointRequest.id)
    (request : BreakpointRequest) (requests : List BreakpointRequest) :
    checkRequests seen (request :: requests) =
      match request.fault? earlier with
      | some error => .error error
      | none => checkRequests (request.id :: seen) requests := by
  unfold BreakpointRequest.fault?
  by_cases hid : request.id ∈ earlier.map BreakpointRequest.id
  · simp [checkRequests, (hseen _).mpr hid, hid, throw, throwThe, MonadExceptOf.throw, bind,
      Except.bind]
  · have hfresh : request.id ∉ seen := fun hmem => hid ((hseen _).mp hmem)
    by_cases hblank : Text.isBlankText request.filePath = true
    · simp [checkRequests, hfresh, hid, BreakpointRequest.validate, hblank, bind, Except.bind]
    · by_cases hline : request.line = 0 <;>
        simp [checkRequests, hfresh, hid, BreakpointRequest.validate, hblank, hline, bind,
          Except.bind]

theorem checkRequests_eq_error_iff {seen : List BreakpointId}
    {earlier requests : List BreakpointRequest}
    (hseen : ∀ id, id ∈ seen ↔ id ∈ earlier.map BreakpointRequest.id) {error : BreakpointError} :
    checkRequests seen requests = .error error ↔ FirstFault earlier requests error := by
  induction requests generalizing seen earlier with
  | nil =>
      constructor
      · intro herror
        simp [checkRequests] at herror
      · rintro ⟨before, request, after, hsplit, -⟩
        simp at hsplit
  | cons request requests ih =>
      have hnext : ∀ id, id ∈ request.id :: seen ↔
          id ∈ (earlier ++ [request]).map BreakpointRequest.id := by
        intro id
        rw [List.mem_cons, hseen, List.map_append, List.mem_append, List.map_singleton,
          List.mem_singleton, or_comm]
      rw [checkRequests_cons hseen, firstFault_cons]
      cases request.fault? earlier with
      | none => simpa using ih hnext
      | some fault => simp

theorem sync_eq_error_iff {collection : Collection} {requests : List BreakpointRequest}
    {error : BreakpointError} :
    collection.sync requests = .error error ↔ FirstFault [] requests error := by
  have hseen : ∀ id, id ∈ ([] : List BreakpointId) ↔
      id ∈ ([] : List BreakpointRequest).map BreakpointRequest.id := by simp
  rw [← checkRequests_eq_error_iff hseen]
  cases hcheck : checkRequests [] requests <;>
    simp [sync, hcheck, bind, Except.bind, pure, Except.pure]

/-- A list has a first request at fault as soon as it has one at fault. -/
theorem exists_firstFault_iff {earlier requests : List BreakpointRequest} :
    (∃ error, FirstFault earlier requests error) ↔
      ∃ before request after, requests = before ++ request :: after ∧
        request.fault? (earlier ++ before) ≠ none := by
  constructor
  · rintro ⟨error, before, request, after, hsplit, -, hfault⟩
    exact ⟨before, request, after, hsplit, by simp [hfault]⟩
  · rintro ⟨before, request, after, rfl, hfault⟩
    induction before generalizing earlier with
    | nil =>
        obtain ⟨error, herror⟩ := Option.ne_none_iff_exists'.mp hfault
        exact ⟨error, firstFault_cons.mpr (.inl (by simpa using herror))⟩
    | cons first before ih =>
        cases hfirst : first.fault? earlier with
        | some error => exact ⟨error, firstFault_cons.mpr (.inl hfirst)⟩
        | none =>
            obtain ⟨error, herror⟩ := @ih (earlier ++ [first]) (by simpa using hfault)
            exact ⟨error, firstFault_cons.mpr (.inr ⟨hfirst, herror⟩)⟩

end Collection

end PortablePdb
