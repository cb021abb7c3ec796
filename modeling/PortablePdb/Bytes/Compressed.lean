import PortablePdb.Text.Hex

/-!
# Compressed integers

An unsigned number below `2 ^ 29` takes one, two or four bytes.  The leading bits of the first
byte tell the width: `0` for one byte, `10` for two, `110` for four; the remaining bits hold the
number, most significant byte first.  A signed number in `[-2 ^ 28, 2 ^ 28)` is reduced modulo the
power of two that its width leaves room for, rotated left by one bit so that the sign becomes the
lowest bit, and written as an unsigned number of that width.

Writing takes the shortest width that holds the value.  Reading accepts any width.
-/

namespace PortablePdb.Bytes.Compressed

inductive EncodeError where
  | unsignedOutOfRange (value : Nat)
  | signedOutOfRange (value : Int)
  deriving DecidableEq, Repr

def EncodeError.message : EncodeError → String
  | unsignedOutOfRange value =>
      Text.markedHex value ++ " cannot be encoded as a compressed integer"
  | signedOutOfRange value =>
      toString value ++ " cannot be encoded as a compressed signed integer"

/-- One byte that holds `bits < 128`. -/
def oneByte (bits : Nat) : List UInt8 :=
  [UInt8.ofNat bits]

/-- Two bytes that hold `bits < 2 ^ 14`. -/
def twoBytes (bits : Nat) : List UInt8 :=
  [UInt8.ofNat (0x80 + bits / 256), UInt8.ofNat (bits % 256)]

/-- Four bytes that hold `bits < 2 ^ 29`. -/
def fourBytes (bits : Nat) : List UInt8 :=
  [UInt8.ofNat (0xC0 + bits / 0x1000000), UInt8.ofNat (bits / 0x10000 % 256),
    UInt8.ofNat (bits / 256 % 256), UInt8.ofNat (bits % 256)]

def encodeUnsigned (value : Nat) : Except EncodeError (List UInt8) :=
  if value < 0x80 then .ok (oneByte value)
  else if value < 0x4000 then .ok (twoBytes value)
  else if value < 0x20000000 then .ok (fourBytes value)
  else .error (.unsignedOutOfRange value)

/-- The rotated bits of a signed number in `[-half, half)`: twice its residue modulo `2 * half`,
with the sign bit moved to the end. -/
def rotate (half : Nat) (value : Int) : Nat :=
  if value < 0 then 2 * (value + half).toNat + 1 else 2 * value.toNat

/-- The signed number in `[-half, half)` whose rotated bits these are. -/
def unrotate (half bits : Nat) : Int :=
  if bits % 2 = 1 then (bits / 2 : Nat) - (half : Int) else (bits / 2 : Nat)

def encodeSigned (value : Int) : Except EncodeError (List UInt8) :=
  if -0x40 ≤ value ∧ value < 0x40 then .ok (oneByte (rotate 0x40 value))
  else if -0x2000 ≤ value ∧ value < 0x2000 then .ok (twoBytes (rotate 0x2000 value))
  else if -0x10000000 ≤ value ∧ value < 0x10000000 then
    .ok (fourBytes (rotate 0x10000000 value))
  else .error (.signedOutOfRange value)

/-- Reads the bits at the front of `bytes` and tells how many bytes hold them. -/
def decodeBits : List UInt8 → Option (Nat × Nat)
  | [] => none
  | b0 :: rest =>
      if b0.toNat < 0x80 then some (b0.toNat, 1)
      else if b0.toNat < 0xC0 then
        match rest with
        | b1 :: _ => some ((b0.toNat - 0x80) * 256 + b1.toNat, 2)
        | [] => none
      else if b0.toNat < 0xE0 then
        match rest with
        | b1 :: b2 :: b3 :: _ =>
            some ((b0.toNat - 0xC0) * 0x1000000 + b1.toNat * 0x10000 + b2.toNat * 256 + b3.toNat, 4)
        | _ => none
      else none

/-- Half the count of values that a width can hold when they are signed. -/
def signedHalf (width : Nat) : Nat :=
  if width = 1 then 0x40 else if width = 2 then 0x2000 else 0x10000000

/-- The value at the front of `bytes` and its width. -/
def decodeUnsigned (bytes : List UInt8) : Option (Nat × Nat) :=
  decodeBits bytes

def decodeSigned (bytes : List UInt8) : Option (Int × Nat) :=
  (decodeBits bytes).map fun (bits, width) => (unrotate (signedHalf width) bits, width)

end PortablePdb.Bytes.Compressed
