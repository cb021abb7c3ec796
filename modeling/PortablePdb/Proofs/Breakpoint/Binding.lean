import PortablePdb.Proofs.Breakpoint.Session

/-!
# Canonical bindings

What a breakpoint is bound to depends on its path, its line and the loaded files alone, not on the
operations that led there: `settled` computes it, and every operation keeps every entry settled.
The operations look only at a part of the entries or at a part of the files; the lemmas on
`ofBinding` say that this part is all that can change.
-/

namespace PortablePdb

namespace TrackedBreakpoint

/-- The request that asks for a breakpoint as it is. -/
def request (tracked : TrackedBreakpoint) : BreakpointRequest where
  id := tracked.id
  filePath := tracked.breakpoint.filePath
  line := tracked.breakpoint.line
  column := tracked.breakpoint.column
  activated := tracked.activated

/-- The handle of the first file that has code for a request, and the code's location. -/
def binding (files : List LoadedFile) (request : BreakpointRequest) : Option (Nat × Location) :=
  firstBinding (Breakpoint.unresolved request) files

/-- The breakpoint of a request with a given binding, active or not as requested. -/
def ofBinding (request : BreakpointRequest) : Option (Nat × Location) → TrackedBreakpoint
  | none => ofRequest request
  | some (handle, location) =>
      { breakpoint :=
          { Breakpoint.unresolved request with
            location := some location
            state := .ofActivation request.activated }
        activated := request.activated
        boundTo := some handle }

/-- The breakpoint that a request comes to among the given files. -/
def settled (files : List LoadedFile) (request : BreakpointRequest) : TrackedBreakpoint :=
  ofBinding request (binding files request)

/-! ## The first binding among several files -/

theorem binding_append (files more : List LoadedFile) (request : BreakpointRequest) :
    binding (files ++ more) request = (binding files request).or (binding more request) := by
  simp only [binding, firstBinding, List.findSome?_append]

theorem binding_eq_none_iff {files : List LoadedFile} {request : BreakpointRequest} :
    binding files request = none ↔
      ∀ file ∈ files, Location.resolve file.symbols request.filePath request.line = none := by
  simp only [binding, firstBinding, List.findSome?_eq_none_iff, Option.map_eq_none_iff]
  rfl

theorem binding_eq_some_iff {files : List LoadedFile} {request : BreakpointRequest}
    {handle : Nat} {location : Location} :
    binding files request = some (handle, location) ↔
      ∃ before file after, files = before ++ file :: after ∧ file.handle = handle ∧
        Location.resolve file.symbols request.filePath request.line = some location ∧
        ∀ earlier ∈ before,
          Location.resolve earlier.symbols request.filePath request.line = none := by
  simp only [binding, firstBinding, List.findSome?_eq_some_iff, Option.map_eq_some_iff,
    Option.map_eq_none_iff, Prod.mk.injEq]
  constructor
  · rintro ⟨before, file, after, hfiles, ⟨found, hfound, hhandle, hlocation⟩, hbefore⟩
    subst hlocation
    exact ⟨before, file, after, hfiles, hhandle, hfound, hbefore⟩
  · rintro ⟨before, file, after, hfiles, hhandle, hfound, hbefore⟩
    exact ⟨before, file, after, hfiles, ⟨location, hfound, hhandle, rfl⟩, hbefore⟩

theorem binding_filter_of_ne {files : List LoadedFile} {request : BreakpointRequest}
    {handle : Nat} (hother : ∀ location, binding files request ≠ some (handle, location)) :
    binding (files.filter fun file => file.handle ≠ handle) request = binding files request := by
  induction files with
  | nil => rfl
  | cons file files ih =>
      have hcons : ∀ rest, binding (file :: rest) request =
          (binding [file] request).or (binding rest request) :=
        fun rest => binding_append [file] rest request
      rw [hcons files] at hother ⊢
      cases hfile : binding [file] request with
      | some found =>
          have hfound : found.1 = file.handle := by
            obtain ⟨before, member, after, hsplit, hhandle, -, -⟩ :=
              binding_eq_some_iff.mp (show _ = some (found.1, found.2) from hfile)
            have hmember : member ∈ [file] := by simp [hsplit]
            rw [← hhandle, List.mem_singleton.mp hmember]
          have hkept : file.handle ≠ handle := by
            intro heq
            apply hother found.2
            simp [hfile, ← heq, ← hfound]
          rw [List.filter_cons_of_pos (by simpa using hkept), hcons, hfile]
          rfl
      | none =>
          simp only [hfile, Option.none_or] at hother ⊢
          rw [← ih hother]
          by_cases hkept : file.handle = handle
          · rw [List.filter_cons_of_neg (by simpa using hkept)]
          · rw [List.filter_cons_of_pos (by simpa using hkept), hcons, hfile, Option.none_or]

/-! ## Changes of a breakpoint with a known binding -/

/-- What a breakpoint reports when it gets a binding. -/
def bindingEvents (request : BreakpointRequest) : Option (Nat × Location) → List BreakpointEvent
  | none => []
  | some (_, location) =>
      [.resolved request.id location, .ofActivation request.activated request.id location]

/-- What a breakpoint reports when its activation flag is replaced. -/
def flagEvents (request : BreakpointRequest) (active : Bool) :
    Option (Nat × Location) → List BreakpointEvent
  | none => []
  | some (_, location) =>
      if request.activated = active then [] else [.ofActivation active request.id location]

@[simp] theorem request_ofBinding (request : BreakpointRequest)
    (binding : Option (Nat × Location)) : (ofBinding request binding).request = request := by
  cases binding <;> rfl

@[simp] theorem id_ofBinding (request : BreakpointRequest) (binding : Option (Nat × Location)) :
    (ofBinding request binding).id = request.id := by
  cases binding <;> rfl

@[simp] theorem boundTo_ofBinding (request : BreakpointRequest)
    (binding : Option (Nat × Location)) :
    (ofBinding request binding).boundTo = binding.map Prod.fst := by
  cases binding <;> rfl

@[simp] theorem location_ofBinding (request : BreakpointRequest)
    (binding : Option (Nat × Location)) :
    (ofBinding request binding).breakpoint.location = binding.map Prod.snd := by
  cases binding <;> rfl

@[simp] theorem isResolved_ofBinding (request : BreakpointRequest)
    (binding : Option (Nat × Location)) :
    (ofBinding request binding).breakpoint.isResolved = binding.isSome := by
  cases binding with
  | none => rfl
  | some found =>
      cases hactive : request.activated <;>
        simp [ofBinding, Breakpoint.isResolved, BreakpointState.isResolved,
          BreakpointState.ofActivation, hactive]

@[simp] theorem unbind_ofBinding (request : BreakpointRequest)
    (binding : Option (Nat × Location)) :
    (ofBinding request binding).unbind = ofBinding request none := by
  cases binding <;> rfl

theorem resolve_ofBinding_none (request : BreakpointRequest) (files : List LoadedFile) :
    (ofBinding request none).resolve files =
      (settled files request, bindingEvents request (binding files request)) := by
  have hunresolved : ¬(ofBinding request none).breakpoint.isResolved = true := by simp
  have hbinding : firstBinding (ofBinding request none).breakpoint files =
      binding files request := rfl
  unfold resolve settled
  rw [if_neg hunresolved, hbinding]
  cases binding files request with
  | none => rfl
  | some found =>
      cases hactive : request.activated <;>
        simp [ofBinding, ofRequest, bindingEvents, applyActivation, activationEvents, id,
          Breakpoint.isResolved, Breakpoint.unresolved, BreakpointState.isResolved,
          BreakpointState.ofActivation, BreakpointEvent.ofActivation, hactive]

theorem resolve_ofBinding_some (request : BreakpointRequest) (found : Nat × Location)
    (files : List LoadedFile) :
    (ofBinding request (some found)).resolve files = (ofBinding request (some found), []) := by
  simp [resolve]

theorem applyActivation_ofBinding (request : BreakpointRequest)
    (binding : Option (Nat × Location)) (active : Bool) :
    applyActivation { ofBinding request binding with activated := active } =
      (ofBinding { request with activated := active } binding,
        flagEvents request active binding) := by
  cases binding with
  | none =>
      simp [applyActivation, ofBinding, ofRequest, flagEvents, Breakpoint.isResolved,
        Breakpoint.unresolved, BreakpointState.isResolved]
  | some found =>
      cases hactive : request.activated <;> cases active <;>
        simp [applyActivation, activationEvents, ofBinding, flagEvents, id,
          Breakpoint.isResolved, Breakpoint.unresolved, BreakpointState.isResolved,
          BreakpointState.ofActivation, hactive]

/-! ## Changes of a settled breakpoint -/

/-- One more file at the end of the load order binds the breakpoints that are still without code. -/
theorem resolve_settled_single (files : List LoadedFile) (file : LoadedFile)
    (request : BreakpointRequest) :
    (settled files request).resolve [file] =
      (settled (files ++ [file]) request,
        if (binding files request).isSome then []
        else bindingEvents request (binding [file] request)) := by
  unfold settled
  rw [binding_append]
  cases hbinding : binding files request with
  | none => rw [resolve_ofBinding_none]; rfl
  | some found => rw [resolve_ofBinding_some]; rfl

theorem resolve_settled (files : List LoadedFile) (request : BreakpointRequest) :
    (settled files request).resolve files = (settled files request, []) := by
  cases hbinding : binding files request with
  | none =>
      have hsettled : settled files request = ofBinding request none := by
        rw [settled, hbinding]
      rw [hsettled, resolve_ofBinding_none, hsettled, hbinding]
      rfl
  | some found =>
      have hsettled : settled files request = ofBinding request (some found) := by
        rw [settled, hbinding]
      rw [hsettled, resolve_ofBinding_some]

/-- Unloading a file moves the breakpoints that are bound to it to the first remaining file. -/
theorem rebind_settled (files : List LoadedFile) (handle : Nat) (request : BreakpointRequest) :
    let remaining := files.filter fun file => file.handle ≠ handle
    (settled files request).rebind handle remaining =
      (settled remaining request,
        if (settled files request).boundTo = some handle then
          (settled files request).unbindEvents ++
            bindingEvents request (binding remaining request)
        else []) := by
  intro remaining
  unfold rebind
  by_cases hbound : (settled files request).boundTo = some handle
  · rw [if_pos hbound, if_pos hbound, settled, unbind_ofBinding, resolve_ofBinding_none]
  · rw [if_neg hbound, if_neg hbound]
    have hother : ∀ location, binding files request ≠ some (handle, location) := by
      intro location hbinding
      apply hbound
      simp [settled, hbinding]
    rw [settled, settled, binding_filter_of_ne hother]

theorem applyActivation_settled (files : List LoadedFile) (request : BreakpointRequest)
    (active : Bool) :
    applyActivation { settled files request with activated := active } =
      (settled files { request with activated := active },
        flagEvents request active (binding files request)) :=
  applyActivation_ofBinding request (binding files request) active

theorem flagEvents_self (request : BreakpointRequest) (binding : Option (Nat × Location)) :
    flagEvents request request.activated binding = [] := by
  cases binding <;> simp [flagEvents]

theorem applyActivation_settled_self (files : List LoadedFile) (request : BreakpointRequest) :
    (settled files request).applyActivation = (settled files request, []) := by
  have hflag : { settled files request with activated := request.activated } =
      settled files request := by
    unfold settled
    cases binding files request <;> rfl
  have happly := applyActivation_settled files request request.activated
  rwa [hflag, flagEvents_self] at happly

theorem sync_settled_of_kept {files : List LoadedFile} {kept request : BreakpointRequest}
    (hsource : (settled files kept).breakpoint.sameSource request) :
    sync (some (settled files kept)) files request =
      (settled files { kept with activated := request.activated },
        flagEvents kept request.activated (binding files kept)) := by
  have hresolve :
      resolve { settled files kept with activated := request.activated } files =
        ({ settled files kept with activated := request.activated }, []) := by
    unfold settled
    cases hbinding : binding files kept with
    | none =>
        have hnone : binding files { kept with activated := request.activated } = none := hbinding
        have hopen := resolve_settled files { kept with activated := request.activated }
        rwa [settled, hnone] at hopen
    | some found => simp [resolve]
  simp only [sync, reconcile, if_pos hsource, hresolve, applyActivation_settled, List.nil_append]

theorem sync_settled_of_moved {files : List LoadedFile} {stale request : BreakpointRequest}
    (hsource : (settled files stale).breakpoint.sameSource request = false) :
    sync (some (settled files stale)) files request =
      (settled files request, (settled files stale).unbindEvents ++
        bindingEvents request (binding files request)) := by
  have hresolve := resolve_ofBinding_none request files
  simp only [ofBinding] at hresolve
  simp only [sync, reconcile, hsource, Bool.false_eq_true, if_false, hresolve,
    applyActivation_settled_self, List.append_nil]

theorem sync_none (files : List LoadedFile) (request : BreakpointRequest) :
    sync none files request =
      (settled files request, bindingEvents request (binding files request)) := by
  have hresolve := resolve_ofBinding_none request files
  simp only [ofBinding] at hresolve
  simp only [sync, reconcile, hresolve, applyActivation_settled_self, List.nil_append,
    List.append_nil]

end TrackedBreakpoint

end PortablePdb
