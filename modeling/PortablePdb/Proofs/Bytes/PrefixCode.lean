import PortablePdb.Proofs.Bytes.Success

/-!
# Compressed integers as a prefix code

Written one after the other, compressed integers are read back one after the other, and the reader
stops where they end.  A reader also accepts fields that are longer than needed.  What it takes is
nevertheless determined by the value and the width: it is the field of that width, and the written
field is the one of the smallest width that holds the value.
-/

namespace PortablePdb.Bytes.Compressed

open Reader

/-! ## Fields of a width -/

def IsWidth (width : Nat) : Prop :=
  width = 1 ∨ width = 2 ∨ width = 4

/-- The field of a width that holds these bits. -/
def fieldOf (width bits : Nat) : List UInt8 :=
  if width = 1 then oneByte bits else if width = 2 then twoBytes bits else fourBytes bits

theorem length_fieldOf {width : Nat} (hwidth : IsWidth width) (bits : Nat) :
    (fieldOf width bits).length = width := by
  rcases hwidth with rfl | rfl | rfl <;> rfl

theorem eq_oneByte (b0 : UInt8) : [b0] = oneByte b0.toNat := by
  rw [oneByte, UInt8.ofNat_toNat]

theorem eq_twoBytes {b0 b1 : UInt8} {bits : Nat} (hlow : 0x80 ≤ b0.toNat)
    (hbits : bits = (b0.toNat - 0x80) * 256 + b1.toNat) : [b0, b1] = twoBytes bits := by
  have hb1 := b1.toNat_lt
  have hfirst : 0x80 + bits / 256 = b0.toNat := by omega
  have hsecond : bits % 256 = b1.toNat := by omega
  rw [twoBytes, hfirst, hsecond, UInt8.ofNat_toNat, UInt8.ofNat_toNat]

theorem eq_fourBytes {b0 b1 b2 b3 : UInt8} {bits : Nat} (hlow : 0xC0 ≤ b0.toNat)
    (hbits : bits = (b0.toNat - 0xC0) * 0x1000000 + b1.toNat * 0x10000 + b2.toNat * 256 +
      b3.toNat) : [b0, b1, b2, b3] = fourBytes bits := by
  have hb1 := b1.toNat_lt
  have hb2 := b2.toNat_lt
  have hb3 := b3.toNat_lt
  have hfirst : 0xC0 + bits / 0x1000000 = b0.toNat := by omega
  have hsecond : bits / 0x10000 % 256 = b1.toNat := by omega
  have hthird : bits / 256 % 256 = b2.toNat := by omega
  have hfourth : bits % 256 = b3.toNat := by omega
  rw [fourBytes, hfirst, hsecond, hthird, hfourth]
  simp only [UInt8.ofNat_toNat]

/-- Whatever bytes are accepted start with the field of the width that was found. -/
theorem field_of_decodeBits {bytes : List UInt8} {bits width : Nat}
    (hbits : decodeBits bytes = some (bits, width)) :
    IsWidth width ∧ ∃ rest, bytes = fieldOf width bits ++ rest := by
  unfold decodeBits at hbits
  split at hbits
  case h_1 => cases hbits
  case h_2 b0 rest =>
      split at hbits
      case isTrue =>
          cases hbits
          exact ⟨.inl rfl, rest, congrArg (· ++ rest) (eq_oneByte b0)⟩
      case isFalse hone =>
          split at hbits
          case isTrue =>
              split at hbits
              case h_1 b1 rest =>
                  cases hbits
                  exact ⟨.inr (.inl rfl), rest,
                    congrArg (· ++ rest) (eq_twoBytes (Nat.le_of_not_lt hone) rfl)⟩
              case h_2 => cases hbits
          case isFalse htwo =>
              split at hbits
              case isTrue =>
                  split at hbits
                  case h_1 b1 b2 b3 rest =>
                      cases hbits
                      exact ⟨.inr (.inr rfl), rest,
                        congrArg (· ++ rest) (eq_fourBytes (Nat.le_of_not_lt htwo) rfl)⟩
                  case h_2 => cases hbits
              case isFalse => cases hbits

theorem take_of_decodeBits {bytes : List UInt8} {bits width : Nat}
    (hbits : decodeBits (bytes.take 4) = some (bits, width)) :
    IsWidth width ∧ bytes.take width = fieldOf width bits := by
  obtain ⟨hwidth, rest, hrest⟩ := field_of_decodeBits hbits
  have hle : width ≤ 4 := by rcases hwidth with rfl | rfl | rfl <;> decide
  have hlength := length_fieldOf hwidth bits
  refine ⟨hwidth, ?_⟩
  calc
    bytes.take width = (bytes.take 4).take width := by rw [List.take_take, Nat.min_eq_left hle]
    _ = fieldOf width bits := by rw [hrest, List.take_left' hlength]

theorem rotate_unrotate {half bits : Nat} (hbits : bits < 2 * half) :
    rotate half (unrotate half bits) = bits := by
  unfold unrotate
  split
  · rw [rotate, if_pos (by omega)]
    omega
  · rw [rotate, if_neg (by omega)]
    omega

/-! ## Numbers of both kinds -/

/-- How a number is to be read. -/
inductive Kind where
  | unsigned
  | signed
  deriving DecidableEq, Repr

inductive Number where
  | unsigned (value : Nat)
  | signed (value : Int)
  deriving DecidableEq, Repr

namespace Number

def kind : Number → Kind
  | unsigned _ => .unsigned
  | signed _ => .signed

def InRange : Number → Prop
  | unsigned value => value < 0x20000000
  | signed value => -0x10000000 ≤ value ∧ value < 0x10000000

instance : (value : Number) → Decidable value.InRange
  | unsigned _ => inferInstanceAs (Decidable (_ < _))
  | signed _ => inferInstanceAs (Decidable (_ ∧ _))

def encode : Number → Except EncodeError (List UInt8)
  | unsigned value => encodeUnsigned value
  | signed value => encodeSigned value

def read : Kind → Reader Number
  | .unsigned => unsigned <$> compressedUnsigned
  | .signed => signed <$> compressedSigned

/-- A field of this width can hold the number. -/
def FitsIn (width : Nat) : Number → Prop
  | unsigned value => value < 2 * signedHalf width
  | signed value => -(signedHalf width : Int) ≤ value ∧ value < signedHalf width

/-- The bits of the number in a field of this width. -/
def bits (width : Nat) : Number → Nat
  | unsigned value => value
  | signed value => rotate (signedHalf width) value

def field (width : Nat) (value : Number) : List UInt8 :=
  fieldOf width (value.bits width)

variable {value : Number} {width : Nat}

/-- Four bytes hold whatever fewer bytes hold. -/
theorem FitsIn.inRange (hfits : value.FitsIn width) : value.InRange := by
  have hhalf := signedHalf_le width
  cases value with
  | unsigned value =>
      exact Nat.lt_of_lt_of_le hfits (Nat.mul_le_mul_left 2 hhalf)
  | signed value =>
      obtain ⟨hlow, hhigh⟩ := hfits
      constructor <;> omega

/-! ## The smallest width -/

theorem encode_of_fitsIn_one (hone : value.FitsIn 1) : value.encode = .ok (value.field 1) := by
  cases value with
  | unsigned value => exact if_pos hone
  | signed value => exact if_pos hone

theorem encode_of_fitsIn_two (hone : ¬value.FitsIn 1) (htwo : value.FitsIn 2) :
    value.encode = .ok (value.field 2) := by
  cases value with
  | unsigned value => exact (if_neg hone).trans (if_pos htwo)
  | signed value => exact (if_neg hone).trans (if_pos htwo)

theorem encode_of_fitsIn_four (hone : ¬value.FitsIn 1) (htwo : ¬value.FitsIn 2)
    (hfour : value.FitsIn 4) : value.encode = .ok (value.field 4) := by
  cases value with
  | unsigned value => exact (if_neg hone).trans ((if_neg htwo).trans (if_pos hfour))
  | signed value => exact (if_neg hone).trans ((if_neg htwo).trans (if_pos hfour))

theorem exists_encode_eq_field (hwidth : IsWidth width) (hfits : value.FitsIn width) :
    ∃ smallest, IsWidth smallest ∧ smallest ≤ width ∧
      value.encode = .ok (value.field smallest) := by
  by_cases hone : value.FitsIn 1
  · exact ⟨1, .inl rfl, by rcases hwidth with rfl | rfl | rfl <;> decide, encode_of_fitsIn_one hone⟩
  by_cases htwo : value.FitsIn 2
  · refine ⟨2, .inr (.inl rfl), ?_, encode_of_fitsIn_two hone htwo⟩
    rcases hwidth with rfl | rfl | rfl
    · exact absurd hfits hone
    · exact Nat.le_refl 2
    · decide
  · rcases hwidth with rfl | rfl | rfl
    · exact absurd hfits hone
    · exact absurd hfits htwo
    · exact ⟨4, .inr (.inr rfl), Nat.le_refl 4, encode_of_fitsIn_four hone htwo hfits⟩

/-! ## Reading -/

theorem exists_reads_read (hvalue : value.InRange) :
    ∃ written, value.encode = .ok written ∧ Reads (read value.kind) written value := by
  cases value with
  | unsigned value =>
      obtain ⟨written, hencode, -, hreads⟩ := exists_reads_compressedUnsigned hvalue
      exact ⟨written, hencode, hreads.bind_pure unsigned⟩
  | signed value =>
      obtain ⟨written, hencode, hreads⟩ := exists_reads_compressedSigned hvalue.1 hvalue.2
      exact ⟨written, hencode, hreads.bind_pure signed⟩

theorem exists_reads_mapM {values : List Number} (hvalues : ∀ value ∈ values, value.InRange) :
    ∃ fields, values.mapM encode = .ok fields ∧
      Reads (values.mapM fun value => read value.kind) fields.flatten values := by
  induction values with
  | nil => exact ⟨[], rfl, reads_pure []⟩
  | cons value values ih =>
      obtain ⟨written, hencode, hreads⟩ := exists_reads_read (hvalues value List.mem_cons_self)
      obtain ⟨fields, hfields, hreadsAll⟩ := ih fun other hother =>
        hvalues other (List.mem_cons_of_mem value hother)
      refine ⟨written :: fields, by rw [List.mapM_cons, hencode, hfields]; rfl, ?_⟩
      rw [List.mapM_cons]
      exact hreads.bind (hreadsAll.bind_pure _)

/-- A reader takes nothing but the field of the value in some width. -/
theorem exists_field_of_read {kind : Kind} {cursor next : Cursor}
    (hread : read kind cursor = .ok value next) :
    value.kind = kind ∧ ∃ width, IsWidth width ∧ value.FitsIn width ∧
      cursor.unread = value.field width ++ next.unread := by
  cases kind with
  | unsigned =>
      obtain ⟨number, middle, hnumber, hpure⟩ := bind_eq_ok hread
      obtain ⟨rfl, rfl⟩ := pure_eq_ok hpure
      obtain ⟨width, hdecode, hunread⟩ := selfDelimited_eq_ok hnumber
      obtain ⟨hwidth, htake⟩ := take_of_decodeBits hdecode
      rw [htake] at hunread
      exact ⟨rfl, width, hwidth, bits_lt_of_decodeBits hdecode, hunread⟩
  | signed =>
      obtain ⟨number, middle, hnumber, hpure⟩ := bind_eq_ok hread
      obtain ⟨rfl, rfl⟩ := pure_eq_ok hpure
      obtain ⟨width, hdecode, hunread⟩ := selfDelimited_eq_ok hnumber
      obtain ⟨⟨found, foundWidth⟩, hbits, hpair⟩ := Option.map_eq_some_iff.1 hdecode
      cases hpair
      obtain ⟨hwidth, htake⟩ := take_of_decodeBits hbits
      have hlt := bits_lt_of_decodeBits hbits
      refine ⟨rfl, width, hwidth, ⟨le_unrotate _ found, unrotate_lt hlt⟩, ?_⟩
      rw [htake] at hunread
      rw [field, bits, rotate_unrotate hlt]
      exact hunread

/-- Numbers of both kinds that are written one after the other are read back in order, and the
reader stops where they end.  Conversely, whatever is read is in range, the bytes that it took are
not shorter than those that would be written for it, and differ from these only if they are
longer. -/
theorem canonical_prefix_code :
    (∀ values : List Number, (∀ value ∈ values, value.InRange) →
      ∃ fields, values.mapM encode = .ok fields ∧
        Reads (values.mapM fun value => read value.kind) fields.flatten values) ∧
    ∀ (kind : Kind) (cursor next : Cursor) (value : Number),
      read kind cursor = .ok value next →
        value.kind = kind ∧ value.InRange ∧ ∃ consumed written,
          cursor.unread = consumed ++ next.unread ∧ value.encode = .ok written ∧
            written.length ≤ consumed.length ∧
            (written.length = consumed.length → written = consumed) := by
  refine ⟨fun values hvalues => exists_reads_mapM hvalues, fun kind cursor next value hread => ?_⟩
  obtain ⟨hkind, width, hwidth, hfits, hunread⟩ := exists_field_of_read hread
  obtain ⟨smallest, hsmallest, hle, hencode⟩ := exists_encode_eq_field hwidth hfits
  have hconsumed : (value.field width).length = width := length_fieldOf hwidth _
  have hwritten : (value.field smallest).length = smallest := length_fieldOf hsmallest _
  refine ⟨hkind, hfits.inRange, value.field width, value.field smallest, hunread, hencode, ?_, ?_⟩
  · rwa [hwritten, hconsumed]
  · intro hlength
    rw [hwritten, hconsumed] at hlength
    rw [hlength]

/-- Numbers at the edges of the widths. -/
def edges : List Number :=
  [.unsigned 0x7F, .signed (-0x41), .unsigned 0x4000, .signed 0x1FFF, .signed (-0x10000000)]

/-- The edges are read back, and five is also read from a field of two bytes, although one is
written for it. -/
theorem canonical_prefix_code_edges :
    (∃ fields, edges.mapM encode = .ok fields ∧
      Reads (edges.mapM fun value => read value.kind) fields.flatten edges) ∧
    ∃ next, read .unsigned (Cursor.ofBytes [0x80, 0x05, 0xFF].toByteArray) =
        .ok (.unsigned 5) next ∧
      ∃ consumed written, [0x80, 0x05, 0xFF] = consumed ++ next.unread ∧
        (unsigned 5).encode = .ok written ∧ written.length ≤ consumed.length := by
  obtain ⟨next, hread⟩ : ∃ next, read .unsigned
      (Cursor.ofBytes [0x80, 0x05, 0xFF].toByteArray) = .ok (.unsigned 5) next := ⟨_, rfl⟩
  obtain ⟨-, -, consumed, written, hunread, hencode, hlength, -⟩ :=
    canonical_prefix_code.2 _ _ _ _ hread
  rw [Cursor.unread_ofBytes, List.data_toByteArray] at hunread
  exact ⟨canonical_prefix_code.1 edges (by decide), next, hread, consumed, written, hunread,
    hencode, hlength⟩

end Number

end PortablePdb.Bytes.Compressed
