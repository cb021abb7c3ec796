import PortablePdb.Builder.Basic
import PortablePdb.Header.Root
import PortablePdb.Header.Stream

/-!
# The image of a built file

The streams of a builder are written behind the root header and the stream headers, each filled up
to a multiple of four bytes.  Tables without rows are left out of the sets of present tables.
-/

namespace PortablePdb.Builder

/-- The bytes and as many zeros as fill them up to a multiple of four. -/
def padded (bytes : List UInt8) : List UInt8 :=
  bytes ++ List.replicate (align4 bytes.length - bytes.length) 0

def tableSet (rows : RowCounts) : Nat :=
  rows.nonzero.foldl (fun set row => set ||| 1 <<< row.1) 0

def writeRowCounts (rows : RowCounts) : List UInt8 :=
  rows.nonzero.flatMap fun row => Bytes.toLittleEndian 4 row.2

def referencedRowCounts (builder : Builder) : RowCounts :=
  builder.referencedRows.foldl (fun rows row => rows.set row.1 row.2) RowCounts.empty

def pdbStream (builder : Builder) : List UInt8 :=
  let rows := builder.referencedRowCounts
  builder.pdbId.data.toList ++ Bytes.toLittleEndian 4 builder.entryPoint ++
    Bytes.toLittleEndian 8 (tableSet rows) ++ writeRowCounts rows

/-- The row counts of the tables that were filled. -/
def addedRowCounts (builder : Builder) : List (TableId × Nat) :=
  [(.document, builder.documents.size), (.methodDebugInformation, builder.methods.size),
    (.localScope, builder.scopes.size), (.localVariable, builder.localVariables.size),
    (.localConstant, builder.constants.size)]

def rowCounts (builder : Builder) : RowCounts :=
  let added := builder.addedRowCounts.foldl
    (fun rows row => rows.set row.1.number row.2) RowCounts.empty
  builder.extraRows.foldl (fun rows row => rows.set row.1 row.2) added

/-- The heaps that need wide indices. -/
def heapSizes (builder : Builder) : Nat :=
  (if 0xFFFF < builder.strings.size then 1 else 0) +
    (if 0xFFFF < builder.guids.size / 16 then 2 else 0) +
    (if 0xFFFF < builder.blobs.size then 4 else 0)

/-- Methods are always numbered in two bytes; the file holds no table of them to count. -/
def widths (builder : Builder) : IndexWidths where
  heap := heapIndexWidth builder.heapSizes
  table table :=
    if table ≠ .methodDef ∧ 0xFFFF < builder.rowCounts.get table.number then 4 else 2

def writeRows {Row : Type} [TableRow Row] (widths : IndexWidths) (rows : Array Row) :
    List UInt8 :=
  rows.toList.flatMap (TableRow.write widths)

def tableStream (builder : Builder) : List UInt8 :=
  let rows := builder.rowCounts
  let widths := builder.widths
  Bytes.toLittleEndian 4 0 ++ [2, 0, UInt8.ofNat builder.heapSizes, 1] ++
    Bytes.toLittleEndian 8 (tableSet rows) ++ Bytes.toLittleEndian 8 (tableSet rows) ++
    writeRowCounts rows ++
    writeRows widths builder.documents ++ writeRows widths builder.methods ++
    writeRows widths builder.scopes ++ writeRows widths builder.localVariables ++
    writeRows widths builder.constants

/-- The streams in file order, with their names. -/
def streams (builder : Builder) : List (String × List UInt8) :=
  (if builder.hasPdbStream then [("#Pdb", builder.pdbStream)] else []) ++
    [("#~", builder.tableStream), ("#Strings", builder.strings.data.toList), ("#US", [0]),
      ("#GUID", builder.guids.data.toList), ("#Blob", builder.blobs.data.toList)] ++
    builder.extraStreams.map fun stream => (stream.1, stream.2.data.toList)

def version : String := "PDB v1.0"

/-- A text with the NUL that ends it, filled up to a multiple of four bytes. -/
def paddedText (text : String) : List UInt8 :=
  padded (text.toUTF8.data.toList ++ [0])

def rootHeader (streamCount : Nat) : List UInt8 :=
  let text := paddedText version
  Bytes.toLittleEndian 4 RootHeader.signature ++
    Bytes.toLittleEndian 2 RootHeader.majorVersion ++
    Bytes.toLittleEndian 2 RootHeader.minorVersion ++
    Bytes.toLittleEndian 4 0 ++ Bytes.toLittleEndian 4 text.length ++ text ++
    Bytes.toLittleEndian 2 0 ++ Bytes.toLittleEndian 2 streamCount

/-- The headers of streams of which the first starts at `offset`. -/
def streamHeaders (offset : Nat) : List (String × List UInt8) → List UInt8
  | [] => []
  | (name, bytes) :: streams =>
      Bytes.toLittleEndian 4 offset ++ Bytes.toLittleEndian 4 bytes.length ++ paddedText name ++
        streamHeaders (offset + align4 bytes.length) streams

/-- The size of the stream headers, which does not depend on where the streams start. -/
def streamHeadersSize (streams : List (String × List UInt8)) : Nat :=
  streams.foldr (fun stream size => 8 + (paddedText stream.1).length + size) 0

def image (builder : Builder) : ByteArray :=
  let streams := builder.streams
  let root := rootHeader streams.length
  let start := root.length + streamHeadersSize streams
  (root ++ streamHeaders start streams ++
    streams.flatMap fun stream => padded stream.2).toByteArray

end PortablePdb.Builder
