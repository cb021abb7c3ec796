import PortablePdb.Bytes.Compressed
import PortablePdb.Bytes.LittleEndian
import PortablePdb.ReadError
import PortablePdb.Text.Record

/-!
# Cursors over a window of bytes

A `Cursor` is a position inside a window of a byte buffer.  The bounds that make every access safe
are part of the type, so no reader has to check them again and no caller can break them.

A `Reader` takes a cursor to a result and a new cursor.  It hands the cursor back also when it
fails; each primitive reader then hands back the cursor that it was given, and a reader that is
made of several stops where the failing one started.  Nothing a reader returns depends on a byte
outside the window.
-/

namespace PortablePdb

structure Cursor where
  buffer : ByteArray
  start : Nat
  position : Nat
  stop : Nat
  start_le_position : start ≤ position
  position_le_stop : position ≤ stop
  stop_le_size : stop ≤ buffer.size

namespace Cursor

/-- The whole buffer as the window, read from its first byte. -/
def ofBytes (buffer : ByteArray) : Cursor where
  buffer := buffer
  start := 0
  position := 0
  stop := buffer.size
  start_le_position := Nat.le_refl 0
  position_le_stop := Nat.zero_le _
  stop_le_size := Nat.le_refl _

/-- The position counted from the start of the window. -/
def offset (cursor : Cursor) : Nat :=
  cursor.position - cursor.start

def length (cursor : Cursor) : Nat :=
  cursor.stop - cursor.start

def remaining (cursor : Cursor) : Nat :=
  cursor.stop - cursor.position

def isEmpty (cursor : Cursor) : Bool :=
  cursor.length == 0

def atEnd (cursor : Cursor) : Bool :=
  cursor.position == cursor.stop

/-- The bytes of the window. -/
def bytes (cursor : Cursor) : ByteArray :=
  cursor.buffer.extract cursor.start cursor.stop

/-- At most `count` of the bytes that follow the position. -/
def ahead (cursor : Cursor) (count : Nat) : ByteArray :=
  cursor.buffer.extract cursor.position (min (cursor.position + count) cursor.stop)

theorem size_ahead (cursor : Cursor) (count : Nat) :
    (cursor.ahead count).size = min count cursor.remaining := by
  have := cursor.position_le_stop
  have := cursor.stop_le_size
  simp only [ahead, remaining, ByteArray.size_extract]
  omega

def advance (cursor : Cursor) (count : Nat) (h : count ≤ cursor.remaining) : Cursor where
  buffer := cursor.buffer
  start := cursor.start
  position := cursor.position + count
  stop := cursor.stop
  start_le_position := Nat.le_trans cursor.start_le_position (Nat.le_add_right _ _)
  position_le_stop := by
    have := cursor.position_le_stop
    simp only [remaining] at h
    omega
  stop_le_size := cursor.stop_le_size

/-- The window of `length` bytes that starts `offset` bytes into this one, wherever the position
is.  It must lie inside this window. -/
def window (cursor : Cursor) (offset length : Nat) : Except ReadError Cursor :=
  if h : cursor.start + offset + length ≤ cursor.stop then
    .ok {
      buffer := cursor.buffer
      start := cursor.start + offset
      position := cursor.start + offset
      stop := cursor.start + offset + length
      start_le_position := Nat.le_refl _
      position_le_stop := Nat.le_add_right _ _
      stop_le_size := Nat.le_trans h cursor.stop_le_size }
  else .error ⟨.invalidLength, []⟩

/-- Shortens the window to `length` bytes.  It never grows and never ends before the position. -/
def truncate (cursor : Cursor) (length : Nat) : Except ReadError Cursor :=
  if h : cursor.position ≤ cursor.start + length ∧ cursor.start + length ≤ cursor.stop then
    .ok { cursor with
      stop := cursor.start + length
      position_le_stop := h.1
      stop_le_size := Nat.le_trans h.2 cursor.stop_le_size }
  else .error ⟨.invalidLength, []⟩

/-- Moves to `offset` bytes after the start of the window, its end included. -/
def seek (cursor : Cursor) (offset : Nat) : Except ReadError Cursor :=
  if h : cursor.start + offset ≤ cursor.stop then
    .ok { cursor with
      position := cursor.start + offset
      start_le_position := Nat.le_add_right _ _
      position_le_stop := h }
  else .error ⟨.invalidSeek, []⟩

/-- Moves by a signed distance that stays inside the window. -/
def skip (cursor : Cursor) (distance : Int) : Except ReadError Cursor :=
  if h : (cursor.start : Int) ≤ cursor.position + distance ∧
      (cursor.position : Int) + distance ≤ cursor.stop then
    .ok { cursor with
      position := (cursor.position + distance).toNat
      start_le_position := by omega
      position_le_stop := by omega }
  else .error ⟨.invalidSeek, []⟩

def describe (cursor : Cursor) : String :=
  Text.record "ByteStream" [
    ("begin", toString cursor.start),
    ("position", toString cursor.position),
    ("end", toString cursor.stop)]

end Cursor

abbrev Reader (α : Type) := EStateM ReadError Cursor α

namespace Reader

variable {α : Type}

def fail (fault : Fault) : Reader α :=
  throw ⟨fault, []⟩

/-- Runs a reader over a whole byte string and forgets where it stopped. -/
def run (reader : Reader α) (cursor : Cursor) : Except ReadError α :=
  match EStateM.run reader cursor with
  | .ok result _ => .ok result
  | .error error _ => .error error

/-- Reports every failure of `reader` as the cause of `fault`. -/
def under (fault : Fault) (reader : Reader α) : Reader α := fun cursor =>
  match reader cursor with
  | .ok result next => .ok result next
  | .error error next => .error (error.under fault) next

def ofExcept (result : Except ReadError α) : Reader α := fun cursor =>
  match result with
  | .ok value => .ok value cursor
  | .error error => .error error cursor

def move (step : Cursor → Except ReadError Cursor) : Reader Unit := fun cursor =>
  match step cursor with
  | .ok next => .ok () next
  | .error error => .error error cursor

def atEnd : Reader Bool := fun cursor =>
  .ok cursor.atEnd cursor

/-- The next byte, which stays unread. -/
def peek : Reader UInt8 := fun cursor =>
  if h : cursor.position < cursor.stop then
    have hsize : cursor.position < cursor.buffer.size := Nat.lt_of_lt_of_le h cursor.stop_le_size
    .ok cursor.buffer[cursor.position] cursor
  else .error ⟨.invalidLength, []⟩ cursor

def bytes (count : Nat) : Reader ByteArray := fun cursor =>
  if h : count ≤ cursor.remaining then .ok (cursor.ahead count) (cursor.advance count h)
  else .error ⟨.invalidLength, []⟩ cursor

/-- All bytes up to the end of the window. -/
def rest : Reader ByteArray := fun cursor =>
  .ok (cursor.ahead cursor.remaining) (cursor.advance cursor.remaining (Nat.le_refl _))

def littleEndian (width : Nat) : Reader Nat := fun cursor =>
  if h : width ≤ cursor.remaining then
    .ok (Bytes.ofLittleEndian (cursor.ahead width).data.toList) (cursor.advance width h)
  else .error ⟨.invalidLength, []⟩ cursor

def u8 : Reader Nat :=
  littleEndian 1

def u16 : Reader Nat :=
  littleEndian 2

def u32 : Reader Nat :=
  littleEndian 4

def u64 : Reader Nat :=
  littleEndian 8

/-- A number whose width its own bytes tell, read by `decode` from at most four bytes. -/
def selfDelimited (decode : List UInt8 → Option (α × Nat)) (fault : Fault) : Reader α :=
  fun cursor =>
    match decode (cursor.ahead 4).data.toList with
    | some (value, width) =>
        if h : width ≤ cursor.remaining then .ok value (cursor.advance width h)
        else .error ⟨fault, []⟩ cursor
    | none => .error ⟨fault, []⟩ cursor

def compressedUnsigned : Reader Nat :=
  selfDelimited Bytes.Compressed.decodeUnsigned .invalidCompressedUnsigned

def compressedSigned : Reader Int :=
  selfDelimited Bytes.Compressed.decodeSigned .invalidCompressedSigned

/-- Repeats a step until the window is used up.  A step that reads nothing also ends the run. -/
def untilEnd (step : α → Reader α) (state : α) : Reader α := fun cursor =>
  if cursor.atEnd then .ok state cursor
  else
    match step state cursor with
    | .ok state next =>
        if next.remaining < cursor.remaining then untilEnd step state next else .ok state next
    | .error error next => .error error next
  termination_by cursor => cursor.remaining

/-- Runs a reader `count` times and appends the results to `found`. -/
def replicate (reader : Reader α) : (count : Nat) → (found : Array α) → Reader (Array α)
  | 0, found => pure found
  | count + 1, found => do
      let result ← reader
      replicate reader count (found.push result)

end Reader

end PortablePdb
