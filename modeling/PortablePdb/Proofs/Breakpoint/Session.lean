import PortablePdb.Breakpoint.Collection

/-!
# Sessions of a breakpoint collection

A session is a run of operations that starts from the empty collection.  An operation that fails
changes nothing and reports nothing.  Which files a session leaves loaded and which breakpoints it
leaves asked for can be told from its operations alone.
-/

namespace PortablePdb

/-- What a debugger asks of a collection. -/
inductive CollectionOperation where
  | add (file : LoadedFile)
  | remove (handle : Nat)
  | sync (requests : List BreakpointRequest)
  | resolvePending
  | activate (id : BreakpointId)
  | deactivate (id : BreakpointId)

namespace Collection

def syncOrKeep (collection : Collection) (requests : List BreakpointRequest) :
    Collection × List BreakpointEvent :=
  match collection.sync requests with
  | .ok outcome => outcome
  | .error _ => (collection, [])

/-- Sets the activation flag of a resolved breakpoint.  Only the last event is handed out. -/
def setActiveOrKeep (collection : Collection) (id : BreakpointId) (active : Bool) :
    Collection × List BreakpointEvent :=
  match collection.setActive id active with
  | .ok (changed, events) => (changed, events.getLast?.toList)
  | .error _ => (collection, [])

def apply (collection : Collection) :
    CollectionOperation → Collection × List BreakpointEvent
  | .add file => collection.add file
  | .remove handle => collection.remove handle
  | .sync requests => collection.syncOrKeep requests
  | .resolvePending => collection.resolvePending
  | .activate id => collection.setActiveOrKeep id true
  | .deactivate id => collection.setActiveOrKeep id false

/-- The collection after some operations and all events that they hand out, in order. -/
def run (collection : Collection) :
    List CollectionOperation → Collection × List BreakpointEvent
  | [] => (collection, [])
  | operation :: operations =>
      let (next, events) := collection.apply operation
      let (final, later) := next.run operations
      (final, events ++ later)

theorem run_cons (collection : Collection) (operation : CollectionOperation)
    (operations : List CollectionOperation) :
    collection.run (operation :: operations) =
      (((collection.apply operation).1.run operations).1,
        (collection.apply operation).2 ++ ((collection.apply operation).1.run operations).2) := rfl

end Collection

/-! ## What a session leaves -/

/-- The files that are loaded, in load order, and the breakpoints that are asked for.  What these
are bound to is not a part of it. -/
structure Session where
  files : List LoadedFile
  requests : List BreakpointRequest

namespace Session

/-- Whether requests can be carried out together. -/
def Acceptable (requests : List BreakpointRequest) : Prop :=
  (requests.map BreakpointRequest.id).Nodup ∧
    ∀ request ∈ requests, ¬Text.isBlankText request.filePath ∧ 0 < request.line

instance (requests : List BreakpointRequest) : Decidable (Acceptable requests) :=
  inferInstanceAs (Decidable (_ ∧ _))

def hasCode (session : Session) (request : BreakpointRequest) : Bool :=
  session.files.any fun file =>
    (Location.resolve file.symbols request.filePath request.line).isSome

/-- Sets the activation flag of a breakpoint if there is code for it. -/
def setActive (session : Session) (id : BreakpointId) (active : Bool) : Session :=
  { session with
    requests := session.requests.map fun request =>
      if request.id = id ∧ session.hasCode request then { request with activated := active }
      else request }

def after (session : Session) : CollectionOperation → Session
  | .add file => { session with files := session.files ++ [file] }
  | .remove handle =>
      { session with files := session.files.filter fun file => file.handle ≠ handle }
  | .sync requests => if Acceptable requests then { session with requests } else session
  | .resolvePending => session
  | .activate id => session.setActive id true
  | .deactivate id => session.setActive id false

/-- The session of some operations that starts with nothing. -/
def ofOperations (operations : List CollectionOperation) : Session :=
  operations.foldl after ⟨[], []⟩

end Session

end PortablePdb
