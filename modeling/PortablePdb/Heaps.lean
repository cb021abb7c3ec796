import PortablePdb.Bytes.Cursor
import PortablePdb.Guid

/-!
# The heaps

Tables refer to strings, byte strings and identifiers by their place in a heap.  A string ends with
a NUL, a blob starts with its compressed length, and identifiers are numbered from one.  Index zero
always reads as the empty blob or the nil identifier, and also as the empty string where there are
no strings at all.
-/

namespace PortablePdb

def blobAt (heap : ByteArray) (offset : Nat) : Except ReadError ByteArray :=
  if offset = 0 then .ok ByteArray.empty
  else if heap.size ≤ offset then .error ⟨.invalidBlobOffset, []⟩
  else do
    let cursor ← (Cursor.ofBytes heap).window offset (heap.size - offset)
    let blob : Reader ByteArray := do Reader.bytes (← Reader.compressedUnsigned)
    (blob.under .invalidBlobData).run cursor

/-- The place of the first NUL among the `length` bytes from `offset` on. -/
def nulPosition (heap : ByteArray) (offset : Nat) : (length : Nat) → Option Nat
  | 0 => none
  | length + 1 =>
      if heap[offset]? = some 0 then some offset
      else nulPosition heap (offset + 1) length

def stringAt (heap : ByteArray) (offset : Nat) : Except ReadError String :=
  if offset = 0 ∧ heap.size = 0 then .ok ""
  else if heap.size ≤ offset then .error ⟨.invalidStringOffset, []⟩
  else
    match nulPosition heap offset (heap.size - offset) with
    | none => .error ⟨.invalidStringData, []⟩
    | some stop =>
        (Text.decodeUtf8 (heap.extract offset stop)).mapError (.ofUtf8 .invalidStringData)

def guidAt (heap : ByteArray) (index : Nat) : Except ReadError Guid :=
  if index = 0 then .ok Guid.nil
  else if 16 * index ≤ heap.size then
    .ok (Guid.ofBytes (heap.extract (16 * (index - 1)) (16 * index)).data.toList)
  else .error ⟨.invalidGuidIndex, []⟩

structure Heaps where
  strings : ByteArray
  blobs : ByteArray
  guids : ByteArray
  /-- An identifier heap holds whole identifiers. -/
  guids_whole : guids.size % 16 = 0

namespace Heaps

def ofBytes (strings blobs guids : ByteArray) : Except ReadError Heaps :=
  if h : guids.size % 16 = 0 then .ok ⟨strings, blobs, guids, h⟩
  else .error ⟨.invalidLength, []⟩

def string (heaps : Heaps) (offset : Nat) : Except ReadError String :=
  stringAt heaps.strings offset

def blob (heaps : Heaps) (offset : Nat) : Except ReadError ByteArray :=
  blobAt heaps.blobs offset

def guid (heaps : Heaps) (index : Nat) : Except ReadError Guid :=
  guidAt heaps.guids index

end Heaps

end PortablePdb
