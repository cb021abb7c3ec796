import PortablePdb.SequencePoint.Basic
import PortablePdb.Text.Quoted

/-!
# Methods, their points and their locals

A `MethodInfo` is the part of a method that lies in one document: its points there, the range of
lines that they cover, and the method's scopes from the outermost to the innermost.  A method
without a visible point has none.
-/

namespace PortablePdb

structure LocalVariable where
  index : Nat
  attributes : Nat
  name : String
  deriving DecidableEq, Repr

namespace LocalVariable

/-- The lowest attribute bit asks debuggers not to show the variable. -/
def isDebuggerHidden (entry : LocalVariable) : Bool :=
  entry.attributes.testBit 0

def describe (entry : LocalVariable) : String :=
  Text.record "LocalVariable" [
    ("index", toString entry.index),
    ("attributes", toString entry.attributes),
    ("name", Text.quoted entry.name)]

end LocalVariable

structure LocalConstant where
  name : String
  signature : ByteArray

def LocalConstant.describe (constant : LocalConstant) : String :=
  Text.record "LocalConstant" [
    ("name", Text.quoted constant.name),
    ("signature", Text.byteList constant.signature)]

/-- A range of a method's code and the locals that live there. -/
structure Scope where
  startOffset : Nat
  length : Nat
  «variables» : List LocalVariable
  constants : List LocalConstant

namespace Scope

/-- The first offset after the scope. -/
def endOffset (scope : Scope) : Nat :=
  scope.startOffset + scope.length

def contains (scope : Scope) (ilOffset : Nat) : Bool :=
  scope.startOffset ≤ ilOffset && ilOffset < scope.endOffset

/-- Whether a scope may stand before another: an earlier start first, then the longer one. -/
def precedes (first second : Scope) : Bool :=
  first.startOffset < second.startOffset ||
    (first.startOffset == second.startOffset && second.length ≤ first.length)

def describe (scope : Scope) : String :=
  Text.record "Scope" [
    ("start_offset", toString scope.startOffset),
    ("length", toString scope.length),
    ("variables", Text.bracketed (scope.variables.map LocalVariable.describe)),
    ("constants", Text.bracketed (scope.constants.map LocalConstant.describe))]

end Scope

structure MethodInfo where
  methodDef : Nat
  firstLine : Nat
  lastLine : Nat
  sequencePoints : List SequencePoint
  scopes : List Scope

namespace MethodInfo

/-- The token of the first method row, less one. -/
def token : Nat := 0x06000000

/-- The 32-bit words without a bit of the token. -/
def rowMask : Nat := 0xF9FFFFFF

/-- The method with the given row number.  Document changes are dropped from its points, and
scopes that start at the same place with the same length keep their order. -/
def ofPoints? (row : Nat) (points : List SequencePoint) (scopes : List Scope) :
    Option MethodInfo := do
  let sequencePoints := points.filter fun point => !point.isDocumentChange
  let visible := sequencePoints.filter SequencePoint.isVisible
  let firstLine ← (visible.map SequencePoint.startLine).min?
  let lastLine ← (visible.map SequencePoint.endLine).max?
  return {
    methodDef := token ||| row
    firstLine
    lastLine
    sequencePoints
    scopes := scopes.mergeSort Scope.precedes }

def row (method : MethodInfo) : Nat :=
  method.methodDef &&& rowMask

def containsLine (method : MethodInfo) (line : Nat) : Bool :=
  method.firstLine ≤ line && line ≤ method.lastLine

/-- The smallest offset of a point that covers the line. -/
def ilOffsetForLine (method : MethodInfo) (line : Nat) : Option Nat :=
  ((method.sequencePoints.filter fun point => point.containsLine line).map
    SequencePoint.ilOffset).min?

/-- The variables that live at an offset, those of outer scopes first. -/
def localsAt (method : MethodInfo) (ilOffset : Nat) : List LocalVariable :=
  (method.scopes.filter fun scope => scope.contains ilOffset).flatMap Scope.variables

def describe (method : MethodInfo) : String :=
  Text.record "MethodInfo" [
    ("method_def", Text.markedHexFilled 8 method.methodDef),
    ("first_line", toString method.firstLine),
    ("last_line", toString method.lastLine),
    ("sequence_points", Text.bracketed (method.sequencePoints.map SequencePoint.describe)),
    ("scopes", Text.bracketed (method.scopes.map Scope.describe))]

end MethodInfo

end PortablePdb
