import PortablePdb.Guid
import PortablePdb.Header.RowCounts
import PortablePdb.Text.Record

/-!
# The header of the `#Pdb` stream

It identifies the file, names the entry point, and repeats the row counts of the tables of the
module that the file describes.
-/

namespace PortablePdb

/-- The identity that ties a symbol file to its module. -/
structure PdbId where
  guid : Guid
  appendix : Nat
  deriving DecidableEq, Repr

def PdbId.toText (id : PdbId) : String :=
  if id.appendix = 0 then id.guid.toText else id.guid.toText ++ "-" ++ Text.hex id.appendix

structure PdbStreamHeader where
  /-- Twenty bytes. -/
  id : ByteArray
  entryPoint : Nat
  referencedTables : Nat
  referencedRows : RowCounts

namespace PdbStreamHeader

def read : Reader PdbStreamHeader := do
  let id ← Reader.bytes 20
  let entryPoint ← Reader.u32
  let referencedTables ← Reader.u64
  let referencedRows ← RowCounts.read referencedTables
  return { id, entryPoint, referencedTables, referencedRows }

def referencedRowCount (header : PdbStreamHeader) (table : TableId) : Nat :=
  header.referencedRows.get table.number

/-- A unique identifier followed by a little-endian number. -/
def pdbId (header : PdbStreamHeader) : PdbId where
  guid := Guid.ofBytes (header.id.data.toList.take 16)
  appendix := Bytes.ofLittleEndian (header.id.data.toList.drop 16)

def describe (header : PdbStreamHeader) : String :=
  Text.record "PdbStreamHeader" [
    ("id", Text.byteList header.id),
    ("entry_point", toString header.entryPoint),
    ("referenced_tables", Text.markedHexFilled 16 header.referencedTables)]

end PdbStreamHeader

end PortablePdb
