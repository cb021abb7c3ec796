import PortablePdb.DocumentIndex
import PortablePdb.Header.PdbStream
import PortablePdb.Header.Root
import PortablePdb.Header.Stream

/-!
# Symbol files

A symbol file is a root header, the headers of its streams, and the streams.  Only streams of six
names may occur; of several with one name the last counts.  The table stream must be there, the
others may be missing.
-/

namespace PortablePdb

inductive StreamKind where
  | pdb
  | tables
  | strings
  | userStrings
  | blobs
  | guids
  deriving DecidableEq, Repr

namespace StreamKind

def all : List StreamKind :=
  [pdb, tables, strings, userStrings, blobs, guids]

def name : StreamKind → String
  | pdb => "#Pdb"
  | tables => "#~"
  | strings => "#Strings"
  | userStrings => "#US"
  | blobs => "#Blob"
  | guids => "#GUID"

def ofName? (name : String) : Option StreamKind :=
  all.find? fun kind => kind.name == name

end StreamKind

def readKnownStream (fileSize : Nat) : Reader StreamHeader := do
  let header ← StreamHeader.read
  if fileSize < header.stop then Reader.fail .invalidLength
  if (StreamKind.ofName? header.name).isNone then Reader.fail .unknownStream
  return header

/-- The bytes of the last stream of a kind. -/
def streamIn (data : ByteArray) (headers : List StreamHeader) (kind : StreamKind) :
    Option ByteArray :=
  (headers.reverse.find? fun header => header.name == kind.name).map fun header =>
    data.extract header.offset header.stop

structure SymbolFile where
  data : ByteArray
  rootHeader : RootHeader
  streamHeaders : List StreamHeader
  pdbHeader : Option PdbStreamHeader
  tableHeader : TableStreamHeader
  tables : Tables
  index : DocumentIndex

namespace SymbolFile

def readHeaders (fileSize : Nat) : Reader (RootHeader × List StreamHeader) := do
  let root ← RootHeader.read
  let streams ← (readKnownStream fileSize).replicate root.streamCount #[]
  return (root, streams.toList)

def readTableStream : Reader (TableStreamHeader × Tables) := do
  let header ← TableStreamHeader.read
  let tables ← Tables.read header
  return (header, tables)

def heapsIn (data : ByteArray) (headers : List StreamHeader) : Except ReadError Heaps :=
  let bytes (kind : StreamKind) := (streamIn data headers kind).getD ByteArray.empty
  Heaps.ofBytes (bytes .strings) (bytes .blobs) (bytes .guids)

def parse (data : ByteArray) : Except ReadError SymbolFile := do
  let (rootHeader, streamHeaders) ← (readHeaders data.size).run (Cursor.ofBytes data)
  let pdbHeader ← (streamIn data streamHeaders .pdb).mapM fun bytes =>
    PdbStreamHeader.read.run (Cursor.ofBytes bytes)
  let heaps ← heapsIn data streamHeaders
  let some tableStream := streamIn data streamHeaders .tables
    | throw ⟨.noMetadataStream, []⟩
  let (tableHeader, tables) ← readTableStream.run (Cursor.ofBytes tableStream)
  return {
    data
    rootHeader
    streamHeaders
    pdbHeader
    tableHeader
    tables
    index := .ofTables tables heaps }

/-- Parses the contents of a file, if they could be had. -/
def ofContents (contents : Except FileFailure ByteArray) : Except ReadError SymbolFile :=
  match contents with
  | .ok data => parse data
  | .error failure => .error ⟨.unreadableFile, [.file failure]⟩

def documents (file : SymbolFile) : List DocumentInfo :=
  file.index.documents

def findDocuments (file : SymbolFile) (path : String) : List DocumentInfo :=
  file.documents.filter fun document => document.matchesPath path

/-- The bytes of a stream that a request needs. -/
def requiredStream (file : SymbolFile) (kind : StreamKind) (fault : Fault) :
    Except ReadError ByteArray :=
  match streamIn file.data file.streamHeaders kind with
  | some bytes => .ok bytes
  | none => .error ⟨fault, []⟩

def heapString (file : SymbolFile) (offset : Nat) : Except ReadError String := do
  stringAt (← file.requiredStream .strings .noStringsStream) offset

def heapBlob (file : SymbolFile) (offset : Nat) : Except ReadError ByteArray := do
  blobAt (← file.requiredStream .blobs .noBlobStream) offset

def heapGuid (file : SymbolFile) (index : Nat) : Except ReadError Guid := do
  guidAt (← file.requiredStream .guids .noGuidStream) index

def pdbId (file : SymbolFile) : Option PdbId :=
  file.pdbHeader.map PdbStreamHeader.pdbId

/-- The token of the method that a program starts with. -/
def entryPoint (file : SymbolFile) : Option Nat :=
  (file.pdbHeader.map PdbStreamHeader.entryPoint).filter fun token => token ≠ 0

/-- A module with more methods than two bytes can number, although scopes name their methods in
two bytes. -/
def methodNumbersOverflow (file : SymbolFile) : Option Nat :=
  (file.pdbHeader.map fun header => header.referencedRowCount .methodDef).filter fun methods =>
    0xFFFF < methods ∧ file.tables.scopes.count ≠ 0

def log (file : SymbolFile) : List LogEntry :=
  (file.methodNumbersOverflow.toList.map fun methods =>
    { level := .warn
      message := "method indices of local scopes are read as 2 bytes and may be truncated"
      fields := [("methods", .number methods)] }) ++
  file.index.log

def hasStream (file : SymbolFile) (kind : StreamKind) : Bool :=
  (streamIn file.data file.streamHeaders kind).isSome

def describe (file : SymbolFile) : String :=
  let pdbHeader := match file.pdbHeader with
    | some header => "Some(" ++ header.describe ++ ")"
    | none => "None"
  Text.record "PdbFile" [
    ("root_header", file.rootHeader.describe),
    ("pdb_header", pdbHeader),
    ("table_header", file.tableHeader.describe),
    ("has_strings_stream", toString (file.hasStream .strings)),
    ("has_us_stream", toString (file.hasStream .userStrings)),
    ("has_blob_stream", toString (file.hasStream .blobs)),
    ("has_guid_stream", toString (file.hasStream .guids)),
    ("documents", toString file.documents.length),
    ("skipped_methods", toString file.index.skippedMethods),
    ("skipped_documents", toString file.index.skippedDocuments)]

end SymbolFile

end PortablePdb
