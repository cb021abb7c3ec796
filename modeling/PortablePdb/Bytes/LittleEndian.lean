/-!
# Little-endian numbers

A number of a fixed width is a list of bytes with the least significant one first.  Writing keeps
the number modulo the power of 256 that the width allows, its `limit`, so writing and reading back
is reduction by that power.
-/

namespace PortablePdb.Bytes

def ofLittleEndian : List UInt8 → Nat
  | [] => 0
  | byte :: rest => byte.toNat + 256 * ofLittleEndian rest

def toLittleEndian : (width : Nat) → Nat → List UInt8
  | 0, _ => []
  | width + 1, n => UInt8.ofNat (n % 256) :: toLittleEndian width (n / 256)

/-- The count of numbers that `width` bytes can hold. -/
def limit : (width : Nat) → Nat
  | 0 => 1
  | width + 1 => 256 * limit width

@[simp] theorem length_toLittleEndian (width n : Nat) :
    (toLittleEndian width n).length = width := by
  induction width generalizing n with
  | zero => rfl
  | succ width ih => simp [toLittleEndian, ih]

theorem ofLittleEndian_lt (bytes : List UInt8) :
    ofLittleEndian bytes < limit bytes.length := by
  induction bytes with
  | nil => simp [ofLittleEndian, limit]
  | cons byte rest ih =>
      have hbyte := byte.toNat_lt
      simp only [ofLittleEndian, List.length_cons, limit]
      omega

theorem ofLittleEndian_toLittleEndian (width n : Nat) :
    ofLittleEndian (toLittleEndian width n) = n % limit width := by
  induction width generalizing n with
  | zero => simp [toLittleEndian, ofLittleEndian, limit, Nat.mod_one]
  | succ width ih =>
      have hbyte : (UInt8.ofNat (n % 256)).toNat = n % 256 := by simp
      simp only [toLittleEndian, ofLittleEndian, limit, ih, hbyte, Nat.mod_mul]

end PortablePdb.Bytes
