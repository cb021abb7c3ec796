import PortablePdb.Breakpoint.Event
import PortablePdb.Json.Parser

/-!
# Breakpoints as JSON

Requests, breakpoints and events are exchanged as JSON.  A record is an object whose fields stand
in any order, or an array of the fields in order.  An object may hold further fields, but none of
its own twice.  An optional field may be missing from an object, and a field with a default from
both; an array cannot leave out anything else.
-/

namespace PortablePdb.Serialized

/-- A field of a record that is being read. -/
inductive Member where
  | given (value : Json)
  /-- Left out of an object. -/
  | missing
  /-- Past the end of an array. -/
  | pastEnd

/-- The value of the only field with this name. -/
def field? (fields : List (Option String × Json)) (name : String) : Option Member :=
  match fields.filter fun field => field.1 == some name with
  | [] => some .missing
  | [(_, value)] => some (.given value)
  | _ => none

/-- The fields of a record, in the order of their names. -/
def members? (names : List String) : Json → Option (List Member)
  | .object fields =>
      if fields.all fun field => field.1.isSome then names.mapM (field? fields) else none
  | .array items =>
      if items.length ≤ names.length then
        some (items.map .given ++ List.replicate (names.length - items.length) .pastEnd)
      else none
  | _ => none

namespace Member

variable {α : Type}

def required (read : Json → Option α) : Member → Option α
  | given value => read value
  | missing | pastEnd => none

/-- A field that may be `null` or be left out of an object. -/
def optional (read : Json → Option α) : Member → Option (Option α)
  | given .null => some none
  | given value => (read value).map some
  | missing => some none
  | pastEnd => none

def withDefault (value : α) (read : Json → Option α) : Member → Option α
  | given value => read value
  | missing | pastEnd => some value

end Member

/-- A natural number below `2 ^ 32`. -/
def word? : Json → Option Nat
  | .natural value => if value < 0x100000000 then some value else none
  | _ => none

def bool? : Json → Option Bool
  | .bool value => some value
  | _ => none

def string? : Json → Option String
  | .text value => value
  | _ => none

def id? (value : Json) : Option BreakpointId :=
  (word? value).map BreakpointId.mk

/-- The name of a state, or an object with that name as the key of a `null`. -/
def state? : Json → Option BreakpointState
  | .text value => value.bind BreakpointState.ofName?
  | .object [(key, .null)] => key.bind BreakpointState.ofName?
  | _ => none

def location (value : Location) : Json :=
  .ofFields [
    ("method_def", .natural value.methodDef),
    ("il_offset", .natural value.ilOffset),
    ("file_path", .ofString value.filePath),
    ("start_line", .natural value.startLine),
    ("end_line", .natural value.endLine)]

def location? (value : Json) : Option Location := do
  match ← members? ["method_def", "il_offset", "file_path", "start_line", "end_line"] value with
  | [methodDef, ilOffset, filePath, startLine, endLine] =>
      return {
        methodDef := ← methodDef.required word?
        ilOffset := ← ilOffset.required word?
        filePath := ← filePath.required string?
        startLine := ← startLine.required word?
        endLine := ← endLine.required word? }
  | _ => none

def optionalLocation (value : Option Location) : Json :=
  (value.map location).getD .null

def request (value : BreakpointRequest) : Json :=
  .ofFields [
    ("id", .natural value.id.number),
    ("file_path", .ofString value.filePath),
    ("line", .natural value.line),
    ("column", .natural value.column),
    ("activated", .bool value.activated)]

/-- A request, which need not be valid.  Without a column it is for the whole line, and it is
activated unless it says otherwise. -/
def request? (value : Json) : Option BreakpointRequest := do
  match ← members? ["id", "file_path", "line", "column", "activated"] value with
  | [id, filePath, line, column, activated] =>
      return {
        id := ← id.required id?
        filePath := ← filePath.required string?
        line := ← line.required word?
        column := ← column.withDefault 0 word?
        activated := ← activated.withDefault true bool? }
  | _ => none

def breakpoint (value : Breakpoint) : Json :=
  .ofFields [
    ("id", .natural value.id.number),
    ("file_path", .ofString value.filePath),
    ("line", .natural value.line),
    ("column", .natural value.column),
    ("state", .ofString value.state.name),
    ("location", optionalLocation value.location)]

def breakpoint? (value : Json) : Option Breakpoint := do
  match ← members? ["id", "file_path", "line", "column", "state", "location"] value with
  | [id, filePath, line, column, state, location] =>
      return {
        id := ← id.required id?
        filePath := ← filePath.required string?
        line := ← line.required word?
        column := ← column.required word?
        state := ← state.required state?
        location := ← location.optional location? }
  | _ => none

def eventName : BreakpointEvent → String
  | .resolved _ _ => "resolved"
  | .unresolved _ _ => "unresolved"
  | .activated _ _ => "activated"
  | .deactivated _ _ => "deactivated"
  | .removed _ _ => "removed"

def eventLocation : BreakpointEvent → Option Location
  | .resolved _ location | .unresolved _ location | .activated _ location
  | .deactivated _ location => some location
  | .removed _ location => location

def event (value : BreakpointEvent) : Json :=
  .ofFields [
    ("event", .ofString (eventName value)),
    ("id", .natural value.id.number),
    ("location", optionalLocation (eventLocation value))]

/-- The event with the given name that the other fields describe. -/
def eventOfMembers? (name : String) (id place : Member) : Option BreakpointEvent := do
  let id ← id.required id?
  match name with
  | "resolved" => return .resolved id (← place.required location?)
  | "unresolved" => return .unresolved id (← place.required location?)
  | "activated" => return .activated id (← place.required location?)
  | "deactivated" => return .deactivated id (← place.required location?)
  | "removed" => return .removed id (← place.optional location?)
  | _ => none

/-- The deepest nesting of a value that has to be stored before it can be understood. -/
def storedDepth : Nat := 127

/-- An event.  Its name can stand behind the other fields, which are stored until then. -/
def event? (value : Json) : Option BreakpointEvent := do
  if !value.storable storedDepth then failure
  match ← members? ["event", "id", "location"] value with
  | [name, id, place] => eventOfMembers? (← name.required string?) id place
  | _ => none

end PortablePdb.Serialized
