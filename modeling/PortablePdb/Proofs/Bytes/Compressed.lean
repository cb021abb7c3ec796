import PortablePdb.Bytes.Compressed

/-!
# Compressed integers read back

What is written in the shortest width is read back from the front of any longer byte string: the
first byte alone tells where the number ends.  Signed numbers pass through the rotation of their
bits, which is undone on the range of each width.
-/

namespace PortablePdb.Bytes.Compressed

theorem unrotate_rotate {half : Nat} {value : Int} (hlow : -(half : Int) ≤ value) :
    unrotate half (rotate half value) = value := by
  unfold rotate
  split
  · simp only [unrotate]
    split <;> omega
  · simp only [unrotate]
    split <;> omega

theorem rotate_lt {half : Nat} {value : Int} (hlow : -(half : Int) ≤ value)
    (hhigh : value < half) :
    rotate half value < 2 * half := by
  unfold rotate
  split <;> omega

/-! ## Reading the bits of each width -/

theorem decodeBits_oneByte {bits : Nat} (hbits : bits < 0x80) (rest : List UInt8) :
    decodeBits (oneByte bits ++ rest) = some (bits, 1) := by
  have hfirst : (UInt8.ofNat bits).toNat = bits := by
    simp only [UInt8.toNat_ofNat']
    omega
  simp [decodeBits, oneByte, hfirst, hbits]

theorem decodeBits_twoBytes {bits : Nat} (hbits : bits < 0x4000) (rest : List UInt8) :
    decodeBits (twoBytes bits ++ rest) = some (bits, 2) := by
  have hfirst : (UInt8.ofNat (0x80 + bits / 256)).toNat = 0x80 + bits / 256 := by
    simp only [UInt8.toNat_ofNat']
    omega
  have hone : ¬0x80 + bits / 256 < 0x80 := by omega
  have htwo : 0x80 + bits / 256 < 0xC0 := by omega
  simp only [decodeBits, twoBytes, List.cons_append, List.nil_append, hfirst, hone, htwo,
    if_false, if_true, UInt8.toNat_ofNat', Option.some.injEq, Prod.mk.injEq, and_true]
  omega

theorem decodeBits_fourBytes {bits : Nat} (hbits : bits < 0x20000000) (rest : List UInt8) :
    decodeBits (fourBytes bits ++ rest) = some (bits, 4) := by
  have hfirst : (UInt8.ofNat (0xC0 + bits / 0x1000000)).toNat = 0xC0 + bits / 0x1000000 := by
    simp only [UInt8.toNat_ofNat']
    omega
  have hone : ¬0xC0 + bits / 0x1000000 < 0x80 := by omega
  have htwo : ¬0xC0 + bits / 0x1000000 < 0xC0 := by omega
  have hfour : 0xC0 + bits / 0x1000000 < 0xE0 := by omega
  simp only [decodeBits, fourBytes, List.cons_append, List.nil_append, hfirst, hone, htwo, hfour,
    if_false, if_true, UInt8.toNat_ofNat', Option.some.injEq, Prod.mk.injEq, and_true]
  omega

/-! ## Reading what was written -/

theorem exists_encodeUnsigned {value : Nat} (hvalue : value < 0x20000000) :
    ∃ bytes, encodeUnsigned value = .ok bytes ∧ bytes ≠ [] ∧ bytes.length ≤ 4 ∧
      ∀ rest, decodeUnsigned (bytes ++ rest) = some (value, bytes.length) := by
  unfold encodeUnsigned
  split
  case isTrue hone =>
      exact ⟨_, rfl, by simp [oneByte], by simp [oneByte], decodeBits_oneByte hone⟩
  case isFalse =>
      split
      case isTrue htwo =>
          exact ⟨_, rfl, by simp [twoBytes], by simp [twoBytes], decodeBits_twoBytes htwo⟩
      case isFalse =>
          exact ⟨_, rfl, by simp [fourBytes], by simp [fourBytes], decodeBits_fourBytes hvalue⟩

theorem decodeSigned_of_decodeBits {bytes : List UInt8} {value : Int} {width : Nat}
    (hlow : -(signedHalf width : Int) ≤ value)
    (hbits : decodeBits bytes = some (rotate (signedHalf width) value, width)) :
    decodeSigned bytes = some (value, width) := by
  rw [decodeSigned, hbits]
  simp [unrotate_rotate hlow]

theorem exists_encodeSigned {value : Int} (hlow : -0x10000000 ≤ value)
    (hhigh : value < 0x10000000) :
    ∃ bytes, encodeSigned value = .ok bytes ∧ bytes ≠ [] ∧ bytes.length ≤ 4 ∧
      ∀ rest, decodeSigned (bytes ++ rest) = some (value, bytes.length) := by
  unfold encodeSigned
  split
  case isTrue hone =>
      have hbits : rotate 0x40 value < 2 * 0x40 := rotate_lt hone.1 hone.2
      refine ⟨_, rfl, by simp [oneByte], by simp [oneByte], fun rest => ?_⟩
      exact decodeSigned_of_decodeBits hone.1 (decodeBits_oneByte hbits rest)
  case isFalse =>
      split
      case isTrue htwo =>
          have hbits : rotate 0x2000 value < 2 * 0x2000 := rotate_lt htwo.1 htwo.2
          refine ⟨_, rfl, by simp [twoBytes], by simp [twoBytes], fun rest => ?_⟩
          exact decodeSigned_of_decodeBits htwo.1 (decodeBits_twoBytes hbits rest)
      case isFalse =>
          rw [if_pos ⟨hlow, hhigh⟩]
          have hbits : rotate 0x10000000 value < 2 * 0x10000000 := rotate_lt hlow hhigh
          refine ⟨_, rfl, by simp [fourBytes], by simp [fourBytes], fun rest => ?_⟩
          exact decodeSigned_of_decodeBits hlow (decodeBits_fourBytes hbits rest)

/-! ## The range of what is read -/

theorem bits_lt_of_decodeBits {bytes : List UInt8} {bits width : Nat}
    (hbits : decodeBits bytes = some (bits, width)) : bits < 2 * signedHalf width := by
  have hbyte : ∀ byte : UInt8, byte.toNat < 256 := fun byte => byte.toNat_lt
  unfold decodeBits at hbits
  split at hbits
  case h_1 => cases hbits
  case h_2 b0 rest =>
      split at hbits
      case isTrue hone =>
          cases hbits
          exact hone
      case isFalse =>
          split at hbits
          case isTrue htwo =>
              split at hbits
              case h_1 b1 _ =>
                  cases hbits
                  have h1 := hbyte b1
                  change _ < 2 * 0x2000
                  omega
              case h_2 => cases hbits
          case isFalse =>
              split at hbits
              case isTrue hfour =>
                  split at hbits
                  case h_1 b1 b2 b3 _ =>
                      cases hbits
                      have h1 := hbyte b1
                      have h2 := hbyte b2
                      have h3 := hbyte b3
                      change _ < 2 * 0x10000000
                      omega
                  case h_2 => cases hbits
              case isFalse => cases hbits

theorem signedHalf_le (width : Nat) : signedHalf width ≤ 0x10000000 := by
  unfold signedHalf
  split
  · decide
  · split <;> decide

theorem lt_of_decodeUnsigned {bytes : List UInt8} {value width : Nat}
    (hvalue : decodeUnsigned bytes = some (value, width)) : value < 0x20000000 := by
  have hlt := bits_lt_of_decodeBits hvalue
  have hhalf := signedHalf_le width
  omega

theorem le_unrotate (half bits : Nat) : -(half : Int) ≤ unrotate half bits := by
  unfold unrotate
  split <;> omega

theorem unrotate_lt {half bits : Nat} (hbits : bits < 2 * half) : unrotate half bits < half := by
  unfold unrotate
  split <;> omega

theorem range_of_decodeSigned {bytes : List UInt8} {value : Int} {width : Nat}
    (hvalue : decodeSigned bytes = some (value, width)) :
    -0x10000000 ≤ value ∧ value < 0x10000000 := by
  obtain ⟨⟨bits, found⟩, hbits, hpair⟩ := Option.map_eq_some_iff.1 hvalue
  cases hpair
  have hlow := le_unrotate (signedHalf width) bits
  have hhigh := unrotate_lt (bits_lt_of_decodeBits hbits)
  have hhalf := signedHalf_le width
  omega

end PortablePdb.Bytes.Compressed
