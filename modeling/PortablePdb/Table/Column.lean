import PortablePdb.Header.TableStream

/-!
# Columns of a table

A row is a sequence of cells, one for each column of its table.  A cell is a plain number of two or
four bytes, an index into a heap, or a row number of a table; the widths of the last two depend on
the file.  Reading and writing follow the same list of columns, so they agree on the layout by
construction.
-/

namespace PortablePdb

inductive Column where
  | short
  | long
  | heap (kind : HeapKind)
  | row (table : TableId)
  deriving DecidableEq, Repr

/-- The widths in bytes that a file gives to its indices. -/
structure IndexWidths where
  heap : HeapKind → Nat
  table : TableId → Nat

def TableStreamHeader.widths (header : TableStreamHeader) : IndexWidths where
  heap := heapIndexWidth header.heapSizes
  table := header.tableIndexWidth

def Column.width (widths : IndexWidths) : Column → Nat
  | short => 2
  | long => 4
  | heap kind => widths.heap kind
  | row table => widths.table table

def rowWidth (widths : IndexWidths) (columns : List Column) : Nat :=
  columns.foldr (fun column width => column.width widths + width) 0

def readCells (widths : IndexWidths) : List Column → Reader (List Nat)
  | [] => pure []
  | column :: columns => do
      let cell ← Reader.littleEndian (column.width widths)
      let cells ← readCells widths columns
      return cell :: cells

/-- Writes each cell in its column's width, which keeps the cell modulo the power of 256 that the
width allows. -/
def writeCells (widths : IndexWidths) : List Column → List Nat → List UInt8
  | column :: columns, cell :: cells =>
      Bytes.toLittleEndian (column.width widths) cell ++ writeCells widths columns cells
  | _, _ => []

end PortablePdb
