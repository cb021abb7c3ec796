import PortablePdb.Bytes.Cursor

/-!
# Stream headers

A stream header gives the place of a stream in the file and its name, which ends with a NUL and is
filled up to a multiple of four bytes.
-/

namespace PortablePdb

/-- The smallest multiple of four that is at least `length`. -/
def align4 (length : Nat) : Nat :=
  (length + 3) / 4 * 4

theorem le_align4 (length : Nat) : length ≤ align4 length := by
  unfold align4
  omega

structure StreamHeader where
  offset : Nat
  size : Nat
  name : String
  deriving DecidableEq, Repr

namespace StreamHeader

/-- A name and its NUL take no more bytes than this. -/
def maxNameSize : Nat := 32

/-- The first byte after the stream. -/
def stop (header : StreamHeader) : Nat :=
  header.offset + header.size

/-- The length of the name that follows, without its NUL. -/
def nameLength : Reader Nat := fun cursor =>
  match (cursor.ahead maxNameSize).data.toList.findIdx? (· == 0) with
  | some length => .ok length cursor
  | none => .error ⟨.invalidStreamName, []⟩ cursor

def read : Reader StreamHeader := do
  let offset ← Reader.u32
  let size ← Reader.u32
  let length ← nameLength
  let bytes ← Reader.bytes length
  let name ← Reader.ofExcept <|
    (Text.decodeUtf8 bytes).mapError (.ofUtf8 .invalidStreamName)
  let _ ← (Reader.bytes (align4 (length + 1) - length)).under .invalidStreamHeader
  return { offset, size, name }

end StreamHeader

end PortablePdb
