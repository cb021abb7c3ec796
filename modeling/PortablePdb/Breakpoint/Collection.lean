import PortablePdb.Breakpoint.Event

/-!
# Breakpoint collections

A collection holds the breakpoints of a debugging session and the symbol files loaded so far.  It
binds each breakpoint to the first loaded file that has code for it, and answers every change with
the events that it causes.  Files are told apart by a handle, not by their contents, and may be
loaded more than once.
-/

namespace PortablePdb

/-- A symbol file under the handle by which it is unloaded. -/
structure LoadedFile where
  handle : Nat
  symbols : SymbolFile

structure TrackedBreakpoint where
  breakpoint : Breakpoint
  /-- Whether the breakpoint is to be active while it is resolved. -/
  activated : Bool
  /-- The handle of the file that the breakpoint is bound to. -/
  boundTo : Option Nat
  deriving DecidableEq, Repr

namespace TrackedBreakpoint

def ofRequest (request : BreakpointRequest) : TrackedBreakpoint where
  breakpoint := Breakpoint.unresolved request
  activated := request.activated
  boundTo := none

def id (tracked : TrackedBreakpoint) : BreakpointId :=
  tracked.breakpoint.id

def activationEvents (tracked : TrackedBreakpoint) : List BreakpointEvent :=
  tracked.breakpoint.location.toList.map (.ofActivation tracked.activated tracked.id)

/-- Brings the state of a resolved breakpoint in line with its activation flag. -/
def applyActivation (tracked : TrackedBreakpoint) : TrackedBreakpoint × List BreakpointEvent :=
  let target := BreakpointState.ofActivation tracked.activated
  if tracked.breakpoint.isResolved ∧ tracked.breakpoint.state ≠ target then
    ({ tracked with breakpoint := { tracked.breakpoint with state := target } },
      tracked.activationEvents)
  else (tracked, [])

/-- The first of the files that has code for the breakpoint, and the code's location. -/
def firstBinding (breakpoint : Breakpoint) (files : List LoadedFile) : Option (Nat × Location) :=
  files.findSome? fun file =>
    (breakpoint.locationIn file.symbols).map fun location => (file.handle, location)

/-- Binds an unresolved breakpoint to the first of the files that has code for it. -/
def resolve (tracked : TrackedBreakpoint) (files : List LoadedFile) :
    TrackedBreakpoint × List BreakpointEvent :=
  if tracked.breakpoint.isResolved then (tracked, [])
  else
    match firstBinding tracked.breakpoint files with
    | none => (tracked, [])
    | some (handle, location) =>
        let bound := { tracked with
          breakpoint :=
            { tracked.breakpoint with location := some location, state := .resolved }
          boundTo := some handle }
        let (active, events) := bound.applyActivation
        (active, .resolved tracked.id location :: events)

def unbind (tracked : TrackedBreakpoint) : TrackedBreakpoint :=
  { tracked with breakpoint := tracked.breakpoint.unbind, boundTo := none }

def unbindEvents (tracked : TrackedBreakpoint) : List BreakpointEvent :=
  tracked.breakpoint.location.toList.map (.unresolved tracked.id)

/-- Binds anew if the breakpoint is bound to the file with the given handle. -/
def rebind (tracked : TrackedBreakpoint) (handle : Nat) (files : List LoadedFile) :
    TrackedBreakpoint × List BreakpointEvent :=
  if tracked.boundTo = some handle then
    let (bound, events) := tracked.unbind.resolve files
    (bound, tracked.unbindEvents ++ events)
  else (tracked, [])

/-- The breakpoint that answers a request, given the one that has the request's id so far.  It is
kept if it has the same source and replaced otherwise. -/
def reconcile (current : Option TrackedBreakpoint) (request : BreakpointRequest) :
    TrackedBreakpoint × List BreakpointEvent :=
  match current with
  | some tracked =>
      if tracked.breakpoint.sameSource request then
        ({ tracked with activated := request.activated }, [])
      else (ofRequest request, tracked.unbindEvents)
  | none => (ofRequest request, [])

/-- Reconciles, binds and activates. -/
def sync (current : Option TrackedBreakpoint) (files : List LoadedFile)
    (request : BreakpointRequest) : TrackedBreakpoint × List BreakpointEvent :=
  let (kept, staleEvents) := reconcile current request
  let (bound, bindEvents) := kept.resolve files
  let (active, activationEvents) := bound.applyActivation
  (active, staleEvents ++ bindEvents ++ activationEvents)

end TrackedBreakpoint

structure Collection where
  /-- The breakpoints in the order of the last requests. -/
  entries : List TrackedBreakpoint
  /-- The files in load order. -/
  files : List LoadedFile

namespace Collection

def empty : Collection :=
  ⟨[], []⟩

def breakpoints (collection : Collection) : List Breakpoint :=
  collection.entries.map TrackedBreakpoint.breakpoint

def find? (collection : Collection) (id : BreakpointId) : Option TrackedBreakpoint :=
  collection.entries.find? fun entry => entry.id = id

def get? (collection : Collection) (id : BreakpointId) : Option Breakpoint :=
  (collection.find? id).map TrackedBreakpoint.breakpoint

/-- Changes every entry and joins the events in the order of the entries. -/
def update (collection : Collection)
    (change : TrackedBreakpoint → TrackedBreakpoint × List BreakpointEvent) :
    Collection × List BreakpointEvent :=
  let changed := collection.entries.map change
  ({ collection with entries := changed.map Prod.fst }, changed.flatMap Prod.snd)

/-- Loads a file and binds the unresolved breakpoints that it has code for. -/
def add (collection : Collection) (file : LoadedFile) : Collection × List BreakpointEvent :=
  let (changed, events) := collection.update fun entry => entry.resolve [file]
  ({ changed with files := collection.files ++ [file] }, events)

/-- Unloads all loads of a file and binds its breakpoints to the remaining files. -/
def remove (collection : Collection) (handle : Nat) : Collection × List BreakpointEvent :=
  let files := collection.files.filter fun file => file.handle ≠ handle
  ({ collection with files }).update fun entry => entry.rebind handle files

def resolvePending (collection : Collection) : Collection × List BreakpointEvent :=
  collection.update fun entry => entry.resolve collection.files

/-- Checks that no request repeats the id of an earlier one, of which `seen` are the ids, and that
each is valid. -/
def checkRequests (seen : List BreakpointId) : List BreakpointRequest → Except BreakpointError Unit
  | [] => .ok ()
  | request :: requests => do
      if request.id ∈ seen then throw (.duplicateId request.id)
      request.validate
      checkRequests (request.id :: seen) requests

/-- The entries whose ids are not requested, in increasing order of their ids. -/
def dropped (collection : Collection) (requests : List BreakpointRequest) :
    List TrackedBreakpoint :=
  (collection.entries.filter fun entry => requests.all fun request => request.id ≠ entry.id)
    |>.mergeSort fun first second => first.id.number ≤ second.id.number

/-- Replaces the breakpoints by the requested ones.  A breakpoint whose source stays the same keeps
its binding.  Either all requests are carried out or, if one is not valid, none. -/
def sync (collection : Collection) (requests : List BreakpointRequest) :
    Except BreakpointError (Collection × List BreakpointEvent) := do
  checkRequests [] requests
  let removals := (collection.dropped requests).map fun entry =>
    BreakpointEvent.removed entry.id entry.breakpoint.location
  let changed := requests.map fun request =>
    TrackedBreakpoint.sync (collection.find? request.id) collection.files request
  return ({ collection with entries := changed.map Prod.fst },
    removals ++ changed.flatMap Prod.snd)

/-- Changes the activation flag of a resolved breakpoint.  There is an event unless the breakpoint
was in the requested state before. -/
def setActive (collection : Collection) (id : BreakpointId) (active : Bool) :
    Except BreakpointError (Collection × List BreakpointEvent) := do
  let some tracked := collection.find? id | throw (.unknownId id)
  if !tracked.breakpoint.isResolved then throw (.notResolved id)
  let (changed, events) := { tracked with activated := active }.applyActivation
  let entries := collection.entries.map fun entry => if entry.id = id then changed else entry
  return ({ collection with entries }, events)

end Collection

end PortablePdb
