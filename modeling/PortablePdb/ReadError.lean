import PortablePdb.TableId
import PortablePdb.Text.Hex
import PortablePdb.Text.Utf8

/-!
# Errors of reading a symbol file

A `Fault` says what is wrong; `ReadError` pairs the outermost fault with the causes below it, the
nearest one first.  The wording of all of them is fixed here and nowhere else.
-/

namespace PortablePdb

/-- What is wrong with a symbol file or with a request for one of its parts. -/
inductive Fault where
  | unreadableFile
  | invalidSignature
  | unsupportedVersion (major minor : Nat)
  | invalidReserved
  | invalidLength
  | invalidSeek
  | invalidVersionString
  | invalidStreamHeader
  | invalidStreamName
  | unknownStream
  | noMetadataStream
  | noStringsStream
  | noBlobStream
  | noGuidStream
  | invalidStringOffset
  | invalidStringData
  | invalidBlobOffset
  | invalidBlobData
  | invalidGuidIndex
  | invalidCompressedUnsigned
  | invalidCompressedSigned
  | invalidTableSchema (major minor : Nat)
  | unexpectedTable (number : Nat)
  | rowIndexOutOfBounds (table : TableId) (row : Nat)
  | invalidDocumentName
  | invalidSequencePoint
  | overlappingLocalRun (table : TableId) (scope : Nat)
  deriving DecidableEq, Repr

namespace Fault

def message : Fault → String
  | unreadableFile => "failed to read file"
  | invalidSignature => "invalid signature"
  | unsupportedVersion major minor =>
      "unsupported metadata version " ++ toString major ++ "." ++ toString minor
  | invalidReserved => "invalid reserved field"
  | invalidLength => "invalid length"
  | invalidSeek => "invalid seek"
  | invalidVersionString => "invalid version string"
  | invalidStreamHeader => "invalid stream header"
  | invalidStreamName => "invalid stream name"
  | unknownStream => "unknown stream"
  | noMetadataStream => "file does not contain a #~ stream"
  | noStringsStream => "file does not contain a #Strings stream"
  | noBlobStream => "file does not contain a #Blob stream"
  | noGuidStream => "file does not contain a #Guid stream"
  | invalidStringOffset => "invalid string offset"
  | invalidStringData => "invalid string data"
  | invalidBlobOffset => "invalid blob offset"
  | invalidBlobData => "invalid blob data"
  | invalidGuidIndex => "invalid guid index"
  | invalidCompressedUnsigned => "invalid compressed unsigned number"
  | invalidCompressedSigned => "invalid compressed signed number"
  | invalidTableSchema major minor =>
      "unsupported table schema " ++ toString major ++ "." ++ toString minor
  | unexpectedTable number => "unexpected rows in table " ++ Text.markedHexFilled 2 number
  | rowIndexOutOfBounds table row =>
      "row index " ++ toString row ++ " is out of bounds for table " ++ table.name
  | invalidDocumentName => "invalid document name"
  | invalidSequencePoint => "invalid sequence point"
  | overlappingLocalRun table scope =>
      "overlapping " ++ table.name ++ " run in local scope " ++ toString scope

end Fault

/-- Why the bytes of a file could not be had. -/
inductive FileFailure where
  | notFound
  | notADirectory
  | isADirectory
  | nameTooLong
  | other (text : String)
  deriving DecidableEq, Repr

/-- The operating system's wording.  A directory can be opened but has no contents to map. -/
def FileFailure.message : FileFailure → String
  | notFound => "No such file or directory (os error 2)"
  | notADirectory => "Not a directory (os error 20)"
  | isADirectory => "No such device (os error 19)"
  | nameTooLong => "File name too long (os error 36)"
  | other text => text

inductive Cause where
  | fault (fault : Fault)
  | utf8 (error : Text.Utf8Error)
  | file (failure : FileFailure)
  deriving DecidableEq, Repr

def Cause.message : Cause → String
  | .fault reason => reason.message
  | .utf8 error => error.message
  | .file failure => failure.message

structure ReadError where
  fault : Fault
  /-- What led to the fault, the nearest cause first. -/
  causes : List Cause := []
  deriving DecidableEq, Repr

namespace ReadError

def message (error : ReadError) : String :=
  error.fault.message

/-- The same failure seen as the cause of another fault. -/
def under (error : ReadError) (fault : Fault) : ReadError :=
  ⟨fault, .fault error.fault :: error.causes⟩

def ofUtf8 (fault : Fault) (error : Text.Utf8Error) : ReadError :=
  ⟨fault, [.utf8 error]⟩

/-- The messages of the error and of all its causes, outermost first. -/
def messages (error : ReadError) : List String :=
  error.message :: error.causes.map Cause.message

end ReadError

end PortablePdb
