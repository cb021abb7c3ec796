import PortablePdb.Table.Column

/-!
# The rows of the decoded tables

Each decoded table has a record for its rows.  `TableRow` ties the record to the table's columns
and to the cells in that order.
-/

namespace PortablePdb

class TableRow (Row : Type) where
  table : TableId
  columns : List Column
  cells : Row → List Nat
  /-- The row with these cells; only lists of as many cells as there are columns matter. -/
  ofCells : List Nat → Row
  length_cells : ∀ row, (cells row).length = columns.length
  ofCells_cells : ∀ row, ofCells (cells row) = row

structure DocumentRow where
  name : Nat
  hashAlgorithm : Nat
  hash : Nat
  language : Nat
  deriving DecidableEq, Repr, Inhabited

instance : TableRow DocumentRow where
  table := .document
  columns := [.heap .blob, .heap .guid, .heap .blob, .heap .guid]
  cells row := [row.name, row.hashAlgorithm, row.hash, row.language]
  ofCells
    | [name, hashAlgorithm, hash, language] => { name, hashAlgorithm, hash, language }
    | _ => default
  length_cells _ := rfl
  ofCells_cells _ := rfl

/-- The debugging information of the method that has the same row number. -/
structure MethodRow where
  document : Nat
  sequencePoints : Nat
  deriving DecidableEq, Repr, Inhabited

instance : TableRow MethodRow where
  table := .methodDebugInformation
  columns := [.row .document, .heap .blob]
  cells row := [row.document, row.sequencePoints]
  ofCells
    | [document, sequencePoints] => { document, sequencePoints }
    | _ => default
  length_cells _ := rfl
  ofCells_cells _ := rfl

structure ScopeRow where
  method : Nat
  importScope : Nat
  /-- The first variable of the scope. -/
  variableList : Nat
  /-- The first constant of the scope. -/
  constantList : Nat
  startOffset : Nat
  length : Nat
  deriving DecidableEq, Repr, Inhabited

instance : TableRow ScopeRow where
  table := .localScope
  columns := [.row .methodDef, .row .importScope, .row .localVariable, .row .localConstant,
    .long, .long]
  cells row := [row.method, row.importScope, row.variableList, row.constantList,
    row.startOffset, row.length]
  ofCells
    | [method, importScope, variableList, constantList, startOffset, length] =>
        { method, importScope, variableList, constantList, startOffset, length }
    | _ => default
  length_cells _ := rfl
  ofCells_cells _ := rfl

structure VariableRow where
  attributes : Nat
  index : Nat
  name : Nat
  deriving DecidableEq, Repr, Inhabited

instance : TableRow VariableRow where
  table := .localVariable
  columns := [.short, .short, .heap .strings]
  cells row := [row.attributes, row.index, row.name]
  ofCells
    | [attributes, index, name] => { attributes, index, name }
    | _ => default
  length_cells _ := rfl
  ofCells_cells _ := rfl

structure ConstantRow where
  name : Nat
  signature : Nat
  deriving DecidableEq, Repr, Inhabited

instance : TableRow ConstantRow where
  table := .localConstant
  columns := [.heap .strings, .heap .blob]
  cells row := [row.name, row.signature]
  ofCells
    | [name, signature] => { name, signature }
    | _ => default
  length_cells _ := rfl
  ofCells_cells _ := rfl

namespace TableRow

variable {Row : Type} [TableRow Row]

def read (widths : IndexWidths) : Reader Row := do
  return ofCells (← readCells widths (columns Row))

def write (widths : IndexWidths) (row : Row) : List UInt8 :=
  writeCells widths (columns Row) (cells row)

end TableRow

end PortablePdb
