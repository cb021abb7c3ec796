import PortablePdb.Breakpoint.Basic

/-!
# Events of a breakpoint collection

An event tells a debugger what to change in the running program.  A resolved breakpoint does not
stop the program yet; an activation or a deactivation follows.
-/

namespace PortablePdb

inductive BreakpointEvent where
  /-- The breakpoint was bound to a location. -/
  | resolved (id : BreakpointId) (location : Location)
  /-- The breakpoint lost its location. -/
  | unresolved (id : BreakpointId) (location : Location)
  | activated (id : BreakpointId) (location : Location)
  | deactivated (id : BreakpointId) (location : Location)
  /-- The breakpoint is gone, with the location that it had, if any. -/
  | removed (id : BreakpointId) (location : Option Location)
  deriving DecidableEq, Repr

namespace BreakpointEvent

def id : BreakpointEvent → BreakpointId
  | resolved id _ | unresolved id _ | activated id _ | deactivated id _ | removed id _ => id

/-- The event of a breakpoint that starts or stops to stop the program. -/
def ofActivation (active : Bool) (id : BreakpointId) (location : Location) : BreakpointEvent :=
  if active then .activated id location else .deactivated id location

end BreakpointEvent

end PortablePdb
