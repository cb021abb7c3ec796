import PortablePdb.Bytes.Compressed
import PortablePdb.SequencePoint.Basic

/-!
# Encoding sequence points

The inverse of decoding, from points with absolute places to records of differences.  A method that
names no document has to start with one.  Places are 32-bit numbers, and so are the differences
between them, so points that are out of order are not encoded.
-/

namespace PortablePdb.SequencePoint

/-- A point as it is asked for, with absolute places. -/
inductive Mark where
  | visible (ilOffset startLine startColumn endLine endColumn : Nat)
  | hidden (ilOffset : Nat)
  | document (row : Nat)
  deriving DecidableEq, Repr

/-- A visible mark that covers whole lines. -/
def Mark.lines (ilOffset startLine endLine : Nat) : Mark :=
  .visible ilOffset startLine 1 endLine 2

inductive EncodeError where
  | number (error : Bytes.Compressed.EncodeError)
  | missingInitialDocument
  | differenceOutOfRange
  deriving DecidableEq, Repr

def EncodeError.message : EncodeError → String
  | number error => error.message
  | missingInitialDocument => "a multi-document blob must start with its initial document"
  | differenceOutOfRange => "attempt to subtract with overflow"

def unsigned (value : Nat) : Except EncodeError (List UInt8) :=
  (Bytes.Compressed.encodeUnsigned value).mapError .number

def signed (value : Int) : Except EncodeError (List UInt8) :=
  (Bytes.Compressed.encodeSigned value).mapError .number

/-- The distance from one place to another that is not before it. -/
def advance (first last : Nat) : Except EncodeError Nat :=
  if first ≤ last then .ok (last - first) else .error .differenceOutOfRange

/-- The distance from one place to another in either direction, each taken as a signed number. -/
def distance (first last : Nat) : Except EncodeError Int :=
  let difference := Int.bmod last 0x100000000 - Int.bmod first 0x100000000
  if -0x80000000 ≤ difference ∧ difference < 0x80000000 then .ok difference
  else .error .differenceOutOfRange

/-- What a mark's record is relative to. -/
structure Origin where
  ilOffset : Nat
  /-- The line and column of the last visible mark. -/
  start : Option (Nat × Nat)
  deriving DecidableEq, Repr

/-- The width of a span.  That of a span on one line is written without a sign. -/
def encodeWidth (lines : Nat) (columns : Int) : Except EncodeError (List UInt8) :=
  if lines = 0 then unsigned (columns % 0x100000000).toNat else signed columns

def encodeStart (origin : Origin) (line column : Nat) : Except EncodeError (List UInt8) :=
  match origin.start with
  | none => return (← unsigned line) ++ (← unsigned column)
  | some (lastLine, lastColumn) => do
      let lineField ← signed (← distance lastLine line)
      return lineField ++ (← signed (← distance lastColumn column))

/-- The record of a mark, and the origin for the next one. -/
def encodeMark (origin : Origin) : Mark → Except EncodeError (List UInt8 × Origin)
  | .document row => return (0 :: (← unsigned row), origin)
  | .hidden ilOffset =>
      return ((← unsigned (← advance origin.ilOffset ilOffset)) ++ [0, 0],
        { origin with ilOffset })
  | .visible ilOffset startLine startColumn endLine endColumn => do
      let offset ← unsigned (← advance origin.ilOffset ilOffset)
      let lines ← advance startLine endLine
      let columns ← distance startColumn endColumn
      let height ← unsigned lines
      let width ← encodeWidth lines columns
      let start ← encodeStart origin startLine startColumn
      return (offset ++ height ++ width ++ start,
        { ilOffset, start := some (startLine, startColumn) })

def encodeMarks (origin : Origin) : List Mark → Except EncodeError (List UInt8)
  | [] => .ok []
  | mark :: marks => do
      let (record, next) ← encodeMark origin mark
      return record ++ (← encodeMarks next marks)

/-- The blob of a method whose row names `document`. -/
def encode (document : Nat) (marks : List Mark) : Except EncodeError (List UInt8) := do
  let signature ← unsigned 0
  if document = 0 then
    match marks with
    | .document initial :: rest =>
        return signature ++ (← unsigned initial) ++ (← encodeMarks ⟨0, none⟩ rest)
    | _ => .error .missingInitialDocument
  else return signature ++ (← encodeMarks ⟨0, none⟩ marks)

end PortablePdb.SequencePoint
