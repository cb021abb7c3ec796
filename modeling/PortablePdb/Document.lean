import PortablePdb.FilePath
import PortablePdb.Heaps
import PortablePdb.Language
import PortablePdb.Method
import PortablePdb.Table.Row

/-!
# Documents

A document's name is stored in parts: a blob that holds the separator and, for each part, the place
of another blob.  The separator stands between the parts; the zero separator stands for none.
-/

namespace PortablePdb

structure DocumentInfo where
  /-- The row number of the document. -/
  document : Nat
  filePath : String
  language : Language
  hashAlgorithm : HashAlgorithm
  hash : ByteArray
  methods : List MethodInfo

namespace DocumentInfo

def readNamePart (heaps : Heaps) (parts : Array String) : Reader (Array String) := do
  let offset ← Reader.compressedUnsigned.under .invalidDocumentName
  let part ← Reader.ofExcept (heaps.blob offset)
  let text ← Reader.ofExcept ((Text.decodeUtf8 part).mapError (.ofUtf8 .invalidDocumentName))
  return parts.push text

def joinParts (separator : Nat) (parts : List String) : String :=
  let separatorText := if separator = 0 then "" else (Char.ofNat separator).toString
  separatorText.intercalate parts

def readName (heaps : Heaps) : Reader String := do
  let separator ← Reader.u8.under .invalidDocumentName
  if 0x80 ≤ separator then Reader.fail .invalidDocumentName
  let parts ← Reader.untilEnd (readNamePart heaps) #[]
  return joinParts separator parts.toList

def name (heaps : Heaps) (offset : Nat) : Except ReadError String := do
  let blob ← heaps.blob offset
  (readName heaps).run (Cursor.ofBytes blob)

/-- The document of a row, without its methods. -/
def ofRow (heaps : Heaps) (id : Nat) (row : DocumentRow) : Except ReadError DocumentInfo := do
  let filePath ← name heaps row.name
  let language ← heaps.guid row.language
  let hashAlgorithm ← heaps.guid row.hashAlgorithm
  let hash ← heaps.blob row.hash
  return {
    document := id
    filePath
    language := .ofGuid language
    hashAlgorithm := .ofGuid hashAlgorithm
    hash
    methods := [] }

def fileName (info : DocumentInfo) : String :=
  FilePath.fileName info.filePath

def matchesPath (info : DocumentInfo) (path : String) : Bool :=
  FilePath.same info.filePath path

def methodsAtLine (info : DocumentInfo) (line : Nat) : List MethodInfo :=
  info.methods.filter fun method => method.containsLine line

end DocumentInfo

end PortablePdb
