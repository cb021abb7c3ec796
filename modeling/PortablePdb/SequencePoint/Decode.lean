import PortablePdb.Bytes.Cursor
import PortablePdb.SequencePoint.Basic

/-!
# Decoding sequence points

A method's points are stored as differences.  The blob starts with a number that only matters to
other readers and, if the method's row names no document, with the first document.  Each record
then gives the distance in code from the point before it, the height of its span, its width, and
the distance of its start from the start of the last visible point (or that start itself, if there
is none).  A span without height and width marks hidden code.  After the first point, a distance of
zero announces another document.
-/

namespace PortablePdb.SequencePoint

/-- What the records read so far leave behind for the next one. -/
structure Progress where
  ilOffset : Nat
  document : Nat
  lastVisible : Option SequencePoint
  /-- Whether a point other than a document change has been read. -/
  started : Bool
  points : Array SequencePoint

namespace Progress

def start (document : Nat) : Progress where
  ilOffset := 0
  document := document
  lastVisible := none
  started := false
  points := #[]

def changeDocument (progress : Progress) (document : Nat) : Progress :=
  { progress with
    document
    points := progress.points.push (documentChange progress.ilOffset document) }

/-- Adds a hidden or visible point. -/
def addPoint (progress : Progress) (point : SequencePoint) : Progress :=
  { progress with
    ilOffset := point.ilOffset
    lastVisible := if point.isVisible then some point else progress.lastVisible
    started := true
    points := progress.points.push point }

end Progress

/-- Where a span starts: relative to the start of the last visible point if there is one. -/
def readStart : (lastVisible : Option SequencePoint) → Reader (Int × Int)
  | some last => do
      let lines ← Reader.compressedSigned
      let columns ← Reader.compressedSigned
      return (last.startLine + lines, last.startColumn + columns)
  | none => do
      let line ← Reader.compressedUnsigned
      let column ← Reader.compressedUnsigned
      return (line, column)

def readPoint (ilOffset document : Nat) (lastVisible : Option SequencePoint) :
    Reader SequencePoint := do
  let lines ← Reader.compressedUnsigned
  let columns : Int ←
    if lines = 0 then do pure (← Reader.compressedUnsigned : Nat) else Reader.compressedSigned
  if lines = 0 ∧ columns = 0 then return hidden ilOffset document
  let (line, column) ← readStart lastVisible
  match visible? ilOffset line column (line + lines) (column + columns) document with
  | some point => return point
  | none => Reader.fail .invalidSequencePoint

def readRecord (progress : Progress) : Reader Progress := do
  let distance ← Reader.compressedUnsigned
  if progress.started ∧ distance = 0 then
    return progress.changeDocument (← Reader.compressedUnsigned)
  let ilOffset := progress.ilOffset + distance
  if offsetLimit ≤ ilOffset then Reader.fail .invalidSequencePoint
  return progress.addPoint (← readPoint ilOffset progress.document progress.lastVisible)

def readBlob (document : Nat) : Reader (List SequencePoint) := do
  let _ ← Reader.compressedUnsigned
  let start ←
    if document = 0 then do pure ((Progress.start 0).changeDocument (← Reader.compressedUnsigned))
    else pure (Progress.start document)
  let progress ← Reader.untilEnd readRecord start
  return progress.points.toList

/-- The points in a blob of a method whose row names `document`. -/
def decode (blob : ByteArray) (document : Nat) : Except ReadError (List SequencePoint) :=
  (readBlob document).run (Cursor.ofBytes blob)

end PortablePdb.SequencePoint
