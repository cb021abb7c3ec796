import PortablePdb.SymbolFile

/-!
# The code of a source line

A line may be covered by several methods, one inside the other.  The methods of the matching
documents are tried from the latest first line to the earliest, and the first one that has code for
the line wins; within it, the code with the smallest offset does.
-/

namespace PortablePdb

structure Location where
  methodDef : Nat
  ilOffset : Nat
  /-- The path as the symbol file records it. -/
  filePath : String
  startLine : Nat
  endLine : Nat
  deriving DecidableEq, Repr

namespace Location

/-- The location of a line in a method, if the method has code for it. -/
def inMethod? (document : DocumentInfo) (method : MethodInfo) (line : Nat) : Option Location := do
  let ilOffset ← method.ilOffsetForLine line
  let point ← method.sequencePoints.find? fun point =>
    point.ilOffset == ilOffset && point.containsLine line
  return {
    methodDef := method.methodDef
    ilOffset
    filePath := document.filePath
    startLine := point.startLine
    endLine := point.endLine }

/-- The methods whose range of lines holds the line, each with its document. -/
def candidates (file : SymbolFile) (path : String) (line : Nat) :
    List (DocumentInfo × MethodInfo) :=
  (file.findDocuments path).flatMap fun document =>
    (document.methodsAtLine line).map fun method => (document, method)

def triedBefore (first second : DocumentInfo × MethodInfo) : Bool :=
  second.2.firstLine ≤ first.2.firstLine

def resolve (file : SymbolFile) (path : String) (line : Nat) : Option Location :=
  ((candidates file path line).mergeSort triedBefore).findSome? fun candidate =>
    inMethod? candidate.1 candidate.2 line

def describe (location : Location) : String :=
  Text.record "ResolvedLocation" [
    ("method_def", Text.markedHexFilled 8 location.methodDef),
    ("il_offset", Text.markedHex location.ilOffset),
    ("file_path", Text.quoted location.filePath),
    ("start_line", toString location.startLine),
    ("end_line", toString location.endLine)]

end Location

end PortablePdb
