import PortablePdb.Bytes.Cursor
import PortablePdb.Text.Quoted
import PortablePdb.Text.Record

/-!
# The root header

Every file starts with a signature, a version that must be 1.1, a reserved zero, a version text
that is filled up with NUL characters, and the count of the stream headers that follow.
-/

namespace PortablePdb

structure RootHeader where
  version : String
  flags : Nat
  streamCount : Nat
  deriving DecidableEq, Repr

namespace RootHeader

/-- The bytes `BSJB`. -/
def signature : Nat := 0x424A5342

def majorVersion : Nat := 1

def minorVersion : Nat := 1

/-- The bytes before the first NUL, or all of them. -/
def untilNul (bytes : ByteArray) : ByteArray :=
  bytes.extract 0 ((bytes.data.toList.findIdx? (· == 0)).getD bytes.size)

def read : Reader RootHeader := do
  if (← Reader.u32) ≠ signature then Reader.fail .invalidSignature
  let major ← Reader.u16
  let minor ← Reader.u16
  if (major, minor) ≠ (majorVersion, minorVersion) then
    Reader.fail (.unsupportedVersion major minor)
  if (← Reader.u32) ≠ 0 then Reader.fail .invalidReserved
  let length ← Reader.u32
  let text ← Reader.bytes length
  let version ← Reader.ofExcept <|
    (Text.decodeUtf8 (untilNul text)).mapError (.ofUtf8 .invalidVersionString)
  let flags ← Reader.u16
  let streamCount ← Reader.u16
  return { version, flags, streamCount }

def startsFile (bytes : ByteArray) : Bool :=
  match Reader.run Reader.u32 (Cursor.ofBytes bytes) with
  | .ok found => found == signature
  | .error _ => false

def describe (header : RootHeader) : String :=
  Text.record "RootHeader" [
    ("signature", toString signature),
    ("major_version", toString majorVersion),
    ("minor_version", toString minorVersion),
    ("version", Text.quoted header.version),
    ("flags", toString header.flags),
    ("stream_count", toString header.streamCount)]

end RootHeader

end PortablePdb
