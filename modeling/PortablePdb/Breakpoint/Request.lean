import PortablePdb.Text.Numeral

/-!
# Breakpoint requests

A breakpoint is asked for by a source line, as text `file:line` or `file:line:column`.  Reading the
text goes from the right: the last part must be a number; if the part before it is a number too,
the two are line and column, and otherwise the single number is the line.  Colons and numbers
further to the left belong to the path.
-/

namespace PortablePdb

structure BreakpointId where
  number : Nat
  deriving DecidableEq, Repr

def BreakpointId.toText (id : BreakpointId) : String :=
  "#" ++ toString id.number

inductive BreakpointError where
  | emptyPath
  | zeroLine
  | malformed (text : String)
  | unknownId (id : BreakpointId)
  | notResolved (id : BreakpointId)
  | duplicateId (id : BreakpointId)
  deriving DecidableEq, Repr

def BreakpointError.message : BreakpointError → String
  | emptyPath => "breakpoint path is empty"
  | zeroLine => "breakpoint line must be greater than zero"
  | malformed text => "malformed breakpoint `" ++ text ++ "`, expected `file:line[:column]`"
  | unknownId id => "unknown breakpoint " ++ id.toText
  | notResolved id => "breakpoint " ++ id.toText ++ " is not resolved"
  | duplicateId id => "duplicate breakpoint " ++ id.toText

structure BreakpointRequest where
  id : BreakpointId
  filePath : String
  line : Nat
  /-- Zero if the request names no column. -/
  column : Nat
  /-- Whether the breakpoint is to stop the program once it is resolved. -/
  activated : Bool
  deriving DecidableEq, Repr

namespace BreakpointRequest

def ofLine (id : BreakpointId) (filePath : String) (line : Nat) : BreakpointRequest where
  id := id
  filePath := filePath
  line := line
  column := 0
  activated := true

/-- The path must not be blank, and lines count from one. -/
def validate (request : BreakpointRequest) : Except BreakpointError Unit :=
  if Text.isBlankText request.filePath then .error .emptyPath
  else if request.line = 0 then .error .zeroLine
  else .ok ()

/-- The text before and after the last colon, if there is one. -/
def splitAtLastColon : List Char → Option (List Char × List Char)
  | [] => none
  | c :: rest =>
      match splitAtLastColon rest with
      | some (before, after) => some (c :: before, after)
      | none => if c = ':' then some ([], rest) else none

/-- The path, line and column in a text. -/
def places? (text : List Char) : Option (List Char × Nat × Nat) := do
  let (before, after) ← splitAtLastColon text
  let last ← Text.paddedNumeral32? after
  let split := do
    let (path, lineText) ← splitAtLastColon before
    return (path, ← Text.paddedNumeral32? lineText)
  match split with
  | some (path, line) => return (path, line, last)
  | none => return (before, last, 0)

/-- Reads a request with the id zero. -/
def ofText (text : String) : Except BreakpointError BreakpointRequest :=
  match places? text.toList with
  | none => .error (.malformed text)
  | some (path, line, column) => do
      let request : BreakpointRequest :=
        { ofLine ⟨0⟩ (String.ofList path) line with column }
      request.validate
      return request

/-- The text that names the path, the line and the column of a request. -/
def toText (request : BreakpointRequest) : String :=
  request.filePath ++ ":" ++ toString request.line ++ ":" ++ toString request.column

end BreakpointRequest

end PortablePdb
