import PortablePdb.Breakpoint.Location
import PortablePdb.Breakpoint.Request

/-!
# Breakpoints

A breakpoint starts without a location, is resolved when a symbol file has code for its line, and
can then be activated and deactivated.
-/

namespace PortablePdb

inductive BreakpointState where
  | unresolved
  | resolved
  | activated
  | deactivated
  deriving DecidableEq, Repr

namespace BreakpointState

def all : List BreakpointState :=
  [unresolved, resolved, activated, deactivated]

def name : BreakpointState → String
  | unresolved => "Unresolved"
  | resolved => "Resolved"
  | activated => "Activated"
  | deactivated => "Deactivated"

def ofName? (name : String) : Option BreakpointState :=
  all.find? fun state => state.name == name

def isResolved (state : BreakpointState) : Bool :=
  state != unresolved

/-- The state that a resolved breakpoint is to have. -/
def ofActivation (activated : Bool) : BreakpointState :=
  if activated then .activated else .deactivated

end BreakpointState

structure Breakpoint where
  id : BreakpointId
  filePath : String
  line : Nat
  column : Nat
  state : BreakpointState
  location : Option Location
  deriving DecidableEq, Repr

namespace Breakpoint

/-- The unresolved breakpoint of a request. -/
def unresolved (request : BreakpointRequest) : Breakpoint where
  id := request.id
  filePath := request.filePath
  line := request.line
  column := request.column
  state := .unresolved
  location := none

/-- The unresolved breakpoint of a valid request. -/
def ofRequest (request : BreakpointRequest) : Except BreakpointError Breakpoint := do
  request.validate
  return unresolved request

def isResolved (breakpoint : Breakpoint) : Bool :=
  breakpoint.state.isResolved

/-- Whether the request is for the same place, up to the spelling of the path. -/
def sameSource (breakpoint : Breakpoint) (request : BreakpointRequest) : Bool :=
  FilePath.same breakpoint.filePath request.filePath &&
    breakpoint.line == request.line && breakpoint.column == request.column

/-- Where a file has code for the breakpoint. -/
def locationIn (breakpoint : Breakpoint) (file : SymbolFile) : Option Location :=
  Location.resolve file breakpoint.filePath breakpoint.line

/-- Binds the breakpoint to a file if it is not bound yet and the file has code for it. -/
def resolveIn (breakpoint : Breakpoint) (file : SymbolFile) : Breakpoint :=
  if breakpoint.isResolved then breakpoint
  else
    match breakpoint.locationIn file with
    | some location => { breakpoint with location := some location, state := .resolved }
    | none => breakpoint

/-- What `resolveIn` reports. -/
def resolutionLog (breakpoint : Breakpoint) (file : SymbolFile) : List LogEntry :=
  if breakpoint.isResolved then []
  else
    let place := [("id", LogValue.text breakpoint.id.toText),
      ("file", LogValue.text breakpoint.filePath), ("line", LogValue.number breakpoint.line)]
    match breakpoint.locationIn file with
    | some location =>
        [{ level := .debug
           message := "breakpoint resolved"
           fields := place ++ [("method_def", .number location.methodDef),
            ("il_offset", .number location.ilOffset)] }]
    | none => [{ level := .debug, message := "no code at breakpoint location", fields := place }]

def setActive (breakpoint : Breakpoint) (active : Bool) : Except BreakpointError Breakpoint :=
  if breakpoint.isResolved then .ok { breakpoint with state := .ofActivation active }
  else .error (.notResolved breakpoint.id)

def unbind (breakpoint : Breakpoint) : Breakpoint :=
  { breakpoint with state := .unresolved, location := none }

end Breakpoint

end PortablePdb
