import PortablePdb.Document
import PortablePdb.Grouping
import PortablePdb.LocalRun
import PortablePdb.Log
import PortablePdb.SequencePoint.Decode
import PortablePdb.Table.Tables

/-!
# The index of documents and their methods

The index joins the tables: every document that can be read, with the methods that have visible
points in it.  A document or method that cannot be read is left out and recorded with its error;
the others do not notice.  A method also fails if one of its scopes does, or if one of its points
lies in a document that has no row.
-/

namespace PortablePdb

structure DocumentIndex where
  /-- The readable documents in row order, each with its methods in row order. -/
  documents : List DocumentInfo
  malformedDocuments : List (Nat × ReadError)
  malformedMethods : List (Nat × ReadError)

namespace DocumentIndex

def failures {α : Type} (results : List (Nat × Except ReadError α)) : List (Nat × ReadError) :=
  results.filterMap fun
    | (id, .error error) => some (id, error)
    | (_, .ok _) => none

def successes {α : Type} (results : List (Nat × Except ReadError α)) : List α :=
  results.filterMap fun
    | (_, .ok value) => some value
    | (_, .error _) => none

def readVariable (heaps : Heaps) (row : VariableRow) : Except ReadError LocalVariable := do
  return { index := row.index, attributes := row.attributes, name := ← heaps.string row.name }

def readConstant (heaps : Heaps) (row : ConstantRow) : Except ReadError LocalConstant := do
  return { name := ← heaps.string row.name, signature := ← heaps.blob row.signature }

/-- The scope of a row that owns the given runs of locals. -/
def scopeOfRow (tables : Tables) (heaps : Heaps) (row : ScopeRow)
    (variableRun constantRun : Except ReadError LocalRun) : Except ReadError Scope := do
  let variableIds ← variableRun
  let constantIds ← constantRun
  let «variables» ←
    (tables.variables.slice variableIds.start variableIds.stop).mapM (readVariable heaps)
  let constants ←
    (tables.constants.slice constantIds.start constantIds.stop).mapM (readConstant heaps)
  return { startOffset := row.startOffset, length := row.length, «variables», constants }

def variableRuns (tables : Tables) : List (Except ReadError LocalRun) :=
  LocalRun.all .localVariable tables.variables.count
    (tables.scopes.toArray.toList.map ScopeRow.variableList)

def constantRuns (tables : Tables) : List (Except ReadError LocalRun) :=
  LocalRun.all .localConstant tables.constants.count
    (tables.scopes.toArray.toList.map ScopeRow.constantList)

/-- The scopes in row order, each with the number of its method. -/
def scopes (tables : Tables) (heaps : Heaps) : List (Nat × Except ReadError Scope) :=
  (tables.scopes.toArray.toList.zip ((variableRuns tables).zip (constantRuns tables))).map
    fun (row, variableRun, constantRun) =>
      (row.method, scopeOfRow tables heaps row variableRun constantRun)

/-- The documents that points lie in, each once. -/
def documentNumbers (points : List SequencePoint) : List Nat :=
  (points.map SequencePoint.document).eraseDups

/-- The parts of a method that lie in the documents of its points. -/
def partsOfMethod (row : Nat) (points : List SequencePoint) (scopes : List Scope) :
    List (Nat × MethodInfo) :=
  (documentNumbers points).filterMap fun document =>
    (MethodInfo.ofPoints? row (points.filter fun point => point.document = document) scopes).map
      fun info => (document, info)

/-- The points of a method's row, which must lie in documents that have rows. -/
def pointsOfRow (tables : Tables) (heaps : Heaps) (row : MethodRow) :
    Except ReadError (List SequencePoint) := do
  let blob ← heaps.blob row.sequencePoints
  let points ← SequencePoint.decode blob row.document
  match points.find? fun point => (tables.documents.get? point.document).isNone with
  | some point => .error ⟨.rowIndexOutOfBounds .document point.document, []⟩
  | none => return points

/-- The parts of the method with the given row number, whose scopes have been read before. -/
def methodOfRow (tables : Tables) (heaps : Heaps) (number : Nat) (row : MethodRow)
    (scopes : List (Except ReadError Scope)) : Except ReadError (List (Nat × MethodInfo)) := do
  let scopes ← scopes.mapM id
  if row.sequencePoints = 0 then return []
  let points ← pointsOfRow tables heaps row
  return partsOfMethod number points scopes

def documentResults (tables : Tables) (heaps : Heaps) :
    List (Nat × Except ReadError DocumentInfo) :=
  tables.documents.entries.map fun (id, row) => (id, DocumentInfo.ofRow heaps id row)

def methodResults (tables : Tables) (heaps : Heaps) :
    List (Nat × Except ReadError (List (Nat × MethodInfo))) :=
  let scopesByMethod := groupByNumber (tables.methods.count + 1) (scopes tables heaps)
  tables.methods.entries.map fun (id, row) =>
    (id, methodOfRow tables heaps id row (group scopesByMethod id))

def ofTables (tables : Tables) (heaps : Heaps) : DocumentIndex :=
  let documents := documentResults tables heaps
  let methods := methodResults tables heaps
  let methodsByDocument :=
    groupByNumber (tables.documents.count + 1) (successes methods).flatten
  { documents := (successes documents).map fun info =>
      { info with methods := group methodsByDocument info.document }
    malformedDocuments := failures documents
    malformedMethods := failures methods }

def skippedDocuments (index : DocumentIndex) : Nat :=
  index.malformedDocuments.length

def skippedMethods (index : DocumentIndex) : Nat :=
  index.malformedMethods.length

def log (index : DocumentIndex) : List LogEntry :=
  (index.malformedDocuments.map fun (id, error) =>
    { level := .warn
      message := "skipping malformed document"
      fields := [("document", .number id), ("error", .text error.message)] }) ++
  index.malformedMethods.map fun (id, error) =>
    { level := .warn
      message := "skipping malformed method"
      fields := [("method", .number id), ("error", .text error.message)] }

end DocumentIndex

end PortablePdb
