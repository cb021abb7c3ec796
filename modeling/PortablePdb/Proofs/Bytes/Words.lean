import PortablePdb.Proofs.Bytes.Operation

/-!
# Cursors in 64-bit arithmetic

The operations on cursors as a 64-bit machine carries them out.  A `WordCursor` is three numbers
beside a buffer, with nothing known of how they compare.  A sum that leaves the 64 bits, a
difference below zero and an access outside the buffer have no value.  Where an operation looks for
such a case it fails with an error; anywhere else the machine crashes, which is `none`.

`WordReader.Implements` says that the machine does not crash and does what a reader does.
-/

namespace PortablePdb

namespace Word

/-- How many words of 64 bits there are. -/
def limit : Nat := 0x10000000000000000

def add? (first second : Nat) : Option Nat :=
  if first + second < limit then some (first + second) else none

def sub? (first second : Nat) : Option Nat :=
  if second ≤ first then some (first - second) else none

def addSigned? (first : Nat) (second : Int) : Option Nat :=
  if 0 ≤ first + second ∧ first + second < limit then some (first + second).toNat else none

/-- The signed number of 32 bits. -/
def asSigned32 (bits : Nat) : Int :=
  if bits < 0x80000000 then bits else bits - 0x100000000

end Word

structure WordCursor where
  buffer : ByteArray
  start : Nat
  position : Nat
  stop : Nat

/-- A step of the machine. -/
def WordReader (α : Type) : Type :=
  WordCursor → Option (Except ReadError α × WordCursor)

namespace WordReader

variable {α β : Type}

instance : Monad WordReader where
  pure value := fun cursor => some (.ok value, cursor)
  bind first second := fun cursor =>
    match first cursor with
    | some (.ok value, next) => second value next
    | some (.error error, next) => some (.error error, next)
    | none => none

def look : WordReader WordCursor := fun cursor =>
  some (.ok cursor, cursor)

def become (next : WordCursor) : WordReader Unit := fun _ =>
  some (.ok (), next)

def fail (fault : Fault) : WordReader α := fun cursor =>
  some (.error ⟨fault, []⟩, cursor)

/-- Crashes without a value, where `checked` fails. -/
def certain (value? : Option α) : WordReader α := fun cursor =>
  value?.map fun value => (.ok value, cursor)

def checked (fault : Fault) (value? : Option α) : WordReader α :=
  match value? with
  | some value => pure value
  | none => fail fault

/-- Reports `fault` in place of whatever failed. -/
def relabel (fault : Fault) (reader : WordReader α) : WordReader α := fun cursor =>
  match reader cursor with
  | some (.ok value, next) => some (.ok value, next)
  | some (.error _, next) => some (.error ⟨fault, []⟩, next)
  | none => none

def slice? (buffer : ByteArray) (start stop : Nat) : Option ByteArray :=
  if start ≤ stop ∧ stop ≤ buffer.size then some (buffer.extract start stop) else none

/-! ## Moves -/

def truncate (length : Nat) : WordReader Unit := do
  let cursor ← look
  let stop ← checked .invalidLength (Word.add? cursor.start length)
  if cursor.stop < stop ∨ stop < cursor.position then fail .invalidLength
  else become { cursor with stop }

def seek (offset : Nat) : WordReader Unit := do
  let cursor ← look
  let position ← checked .invalidSeek (Word.add? cursor.start offset)
  if cursor.stop < position then fail .invalidSeek else become { cursor with position }

def skip (distance : Int) : WordReader Unit := do
  let cursor ← look
  let position ← checked .invalidSeek (Word.addSigned? cursor.position distance)
  if position < cursor.start ∨ cursor.stop < position then fail .invalidSeek
  else become { cursor with position }

def advance (count : Nat) : WordReader Unit := do
  let cursor ← look
  let position ← certain (Word.add? cursor.position count)
  become { cursor with position }

/-! ## Bytes -/

def peek : WordReader UInt8 := do
  let cursor ← look
  if cursor.position < cursor.stop then certain cursor.buffer[cursor.position]?
  else fail .invalidLength

def bytes (count : Nat) : WordReader ByteArray := do
  let cursor ← look
  let remaining ← certain (Word.sub? cursor.stop cursor.position)
  if remaining < count then fail .invalidLength
  else
    let stop ← certain (Word.add? cursor.position count)
    let found ← certain (slice? cursor.buffer cursor.position stop)
    advance count
    return found

def rest : WordReader ByteArray := do
  let cursor ← look
  let found ← certain (slice? cursor.buffer cursor.position cursor.stop)
  become { cursor with position := cursor.stop }
  return found

/-- As many bytes as an array of the given width takes. -/
def array (width : Nat) : WordReader ByteArray := do
  let found ← bytes width
  certain (if found.size = width then some found else none)

/-! ## Numbers -/

def u8 : WordReader Nat := do
  let byte ← peek
  advance 1
  return byte.toNat

def littleEndian (width : Nat) : WordReader Nat := do
  return Bytes.ofLittleEndian (← array width).data.toList

/-- The number that the bytes spell, the most significant one first. -/
def bigEndian (found : ByteArray) : Nat :=
  Bytes.ofLittleEndian found.data.toList.reverse

def compressedBits (fault : Fault) : WordReader (Nat × Nat) := do
  let first ← relabel fault peek
  if first &&& 0x80 = 0 then
    advance 1
    return (first.toNat, 1)
  else if first &&& 0x40 = 0 then
    let found ← relabel fault (array 2)
    return (bigEndian found &&& 0x3FFF, 2)
  else if first &&& 0x20 = 0 then
    let found ← relabel fault (array 4)
    return (bigEndian found &&& 0x1FFFFFFF, 4)
  else fail fault

def compressedUnsigned : WordReader Nat := do
  return (← compressedBits .invalidCompressedUnsigned).1

/-- The bits above those that a width holds. -/
def signMask (width : Nat) : Nat :=
  if width = 1 then 0xFFFFFFC0 else if width = 2 then 0xFFFFE000 else 0xF0000000

def compressedSigned : WordReader Int := do
  let (bits, width) ← compressedBits .invalidCompressedSigned
  let value := bits >>> 1
  return Word.asSigned32 (if bits &&& 1 = 0 then value else value ||| signMask width)

def sizeFlag : HeapKind → UInt8
  | .strings => 0x01
  | .guid => 0x02
  | .blob => 0x04

def heapIndex (heapSizes : UInt8) (heap : HeapKind) : WordReader Nat :=
  if heapSizes &&& sizeFlag heap = 0 then littleEndian 2 else littleEndian 4

def tableIndex (header : TableStreamHeader) (table : TableId) : WordReader Nat :=
  if header.tableIndexWidth table = 4 then littleEndian 4 else littleEndian 2

end WordReader

namespace WordCursor

def window (offset length : Nat) (cursor : WordCursor) : Except ReadError WordCursor :=
  match Word.add? cursor.start offset with
  | none => .error ⟨.invalidLength, []⟩
  | some start =>
      match Word.add? start length with
      | none => .error ⟨.invalidLength, []⟩
      | some stop =>
          if cursor.stop < stop then .error ⟨.invalidLength, []⟩
          else .ok { buffer := cursor.buffer, start, position := start, stop }

def view (cursor : WordCursor) : Option View := do
  let offset ← Word.sub? cursor.position cursor.start
  let length ← Word.sub? cursor.stop cursor.start
  let remaining ← Word.sub? cursor.stop cursor.position
  return ⟨offset, length, remaining, !decide (cursor.position < cursor.stop), length == 0⟩

end WordCursor

def Operation.words : Operation → WordReader Answer
  | truncate length => (fun _ => .done) <$> WordReader.truncate length.toNat
  | seek offset => (fun _ => .done) <$> WordReader.seek offset.toNat
  | skip distance => (fun _ => .done) <$> WordReader.skip distance.toInt
  | peek => .byte <$> WordReader.peek
  | u8 => .number <$> WordReader.u8
  | u16 => .number <$> WordReader.littleEndian 2
  | u32 => .number <$> WordReader.littleEndian 4
  | u64 => .number <$> WordReader.littleEndian 8
  | bytes count => (fun found => .bytes found.data.toList) <$> WordReader.bytes count.toNat
  | rest => (fun found => .bytes found.data.toList) <$> WordReader.rest
  | compressedUnsigned => .number <$> WordReader.compressedUnsigned
  | compressedSigned => .integer <$> WordReader.compressedSigned
  | heapIndex heapSizes heap => .number <$> WordReader.heapIndex heapSizes heap
  | tableIndex header table => .number <$> WordReader.tableIndex header table

def WordCursor.implementation : Implementation WordCursor where
  window := WordCursor.window
  perform operation := operation.words
  view := WordCursor.view

end PortablePdb
