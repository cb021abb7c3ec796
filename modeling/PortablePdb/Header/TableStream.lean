import PortablePdb.Header.RowCounts
import PortablePdb.Text.Record

/-!
# The header of the `#~` stream

It tells which tables are present and sorted, how many rows each has, and how wide the indices into
the heaps are.  The width of an index into a table follows from the table's row count.
-/

namespace PortablePdb

/-- The heaps that a table's cells refer into. -/
inductive HeapKind where
  | strings
  | guid
  | blob
  deriving DecidableEq, Repr

/-- The bit of the header's heap sizes that makes indices into the heap wide. -/
def HeapKind.sizeBit : HeapKind → Nat
  | .strings => 0
  | .guid => 1
  | .blob => 2

/-- The width of an index into a heap, given the header's heap sizes. -/
def heapIndexWidth (heapSizes : Nat) (heap : HeapKind) : Nat :=
  if heapSizes.testBit heap.sizeBit then 4 else 2

structure TableStreamHeader where
  heapSizes : Nat
  /-- The set of tables that are present. -/
  valid : Nat
  sorted : Nat
  rows : RowCounts
  deriving DecidableEq, Repr

namespace TableStreamHeader

def majorVersion : Nat := 2

def minorVersion : Nat := 0

def read : Reader TableStreamHeader := do
  if (← Reader.u32) ≠ 0 then Reader.fail .invalidReserved
  let major ← Reader.u8
  let minor ← Reader.u8
  if (major, minor) ≠ (majorVersion, minorVersion) then
    Reader.fail (.invalidTableSchema major minor)
  let heapSizes ← Reader.u8
  let _ ← Reader.u8
  let valid ← Reader.u64
  let sorted ← Reader.u64
  let rows ← RowCounts.read valid
  return { heapSizes, valid, sorted, rows }

/-- A header with the given row counts, of which those of absent tables are dropped and the last
one of a table counts. -/
def ofRows (heapSizes valid sorted : Nat) (rows : List (TableId × Nat)) : TableStreamHeader where
  heapSizes := heapSizes
  valid := valid
  sorted := sorted
  rows := (rows.filter fun row => valid.testBit row.1.number).foldl
    (fun counts row => counts.set row.1.number row.2) RowCounts.empty

def isPresent (header : TableStreamHeader) (table : TableId) : Bool :=
  header.valid.testBit table.number

def isSorted (header : TableStreamHeader) (table : TableId) : Bool :=
  header.sorted.testBit table.number

def rowCount (header : TableStreamHeader) (table : TableId) : Nat :=
  header.rows.get table.number

/-- An index is wide if the table is present and has more rows than two bytes can number. -/
def tableIndexWidth (header : TableStreamHeader) (table : TableId) : Nat :=
  if header.isPresent table ∧ 0xFFFF < header.rowCount table then 4 else 2

/-- The present tables with their row counts, zero ones included. -/
def presentRows (header : TableStreamHeader) : List (Nat × Nat) :=
  ((List.range tableLimit).filter header.valid.testBit).map fun number =>
    (number, header.rows.get number)

def describe (header : TableStreamHeader) : String :=
  Text.record "CompressedTableHeader" [
    ("major_version", toString majorVersion),
    ("minor_version", toString minorVersion),
    ("heap_sizes", "HeapSizes(" ++ toString header.heapSizes ++ ")"),
    ("valid", Text.markedHexFilled 16 header.valid),
    ("sorted", Text.markedHexFilled 16 header.sorted),
    ("rows", Text.bracketed (header.presentRows.map fun row =>
      "(" ++ toString row.1 ++ ", " ++ toString row.2 ++ ")"))]

end TableStreamHeader

end PortablePdb
