import PortablePdb.Bytes.LittleEndian
import PortablePdb.Text.Hex

/-!
# Globally unique identifiers

A `Guid` is kept as its 128-bit number.  In a file its first three fields (32, 16 and 16 bits) are
little-endian and the last eight bytes follow in reading order.  As text, the 32 hexadecimal digits
are grouped by hyphens.
-/

namespace PortablePdb

structure Guid where
  value : Nat
  deriving DecidableEq, Repr

namespace Guid

def nil : Guid := ⟨0⟩

/-- The order in which a file holds the sixteen bytes; the order is its own inverse. -/
def mixed : List UInt8 → List UInt8
  | [b0, b1, b2, b3, b4, b5, b6, b7, b8, b9, b10, b11, b12, b13, b14, b15] =>
      [b3, b2, b1, b0, b5, b4, b7, b6, b8, b9, b10, b11, b12, b13, b14, b15]
  | bytes => bytes

def ofBytes (bytes : List UInt8) : Guid :=
  ⟨Bytes.ofLittleEndian (mixed bytes).reverse⟩

def toBytes (guid : Guid) : List UInt8 :=
  mixed (Bytes.toLittleEndian 16 guid.value).reverse

def toText (guid : Guid) : String :=
  let digits := (Text.hexFilled 32 guid.value).toList
  let group (start length : Nat) : String := String.ofList ((digits.drop start).take length)
  "-".intercalate [group 0 8, group 8 4, group 12 4, group 16 4, group 20 12]

end Guid

end PortablePdb
