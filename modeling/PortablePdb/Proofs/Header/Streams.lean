import PortablePdb.Builder.Image
import PortablePdb.Proofs.Heaps
import PortablePdb.SymbolFile

/-!
# The headers of a file read back

A text with the NULs that fill it up is read up to its first NUL.  The place of each stream follows
from the sizes of the streams before it.
-/

namespace PortablePdb

open Reader

theorem findIdx?_zero {text rest : List UInt8} (htext : 0 ∉ text) :
    (text ++ 0 :: rest).findIdx? (· == 0) = some text.length := by
  induction text with
  | nil =>
      rw [List.nil_append, List.findIdx?_cons]
      rfl
  | cons byte text ih =>
      have hbyte : (byte == 0) = false := by
        rw [beq_eq_false_iff_ne]
        rintro rfl
        exact htext List.mem_cons_self
      rw [List.cons_append, List.findIdx?_cons, hbyte,
        ih fun hmem => htext (List.mem_cons_of_mem byte hmem)]
      rfl

/-- The NULs that follow a text with so many bytes. -/
def padding (length : Nat) : List UInt8 :=
  List.replicate (align4 (length + 1) - length) 0

theorem exists_padding_eq (length : Nat) : ∃ rest, padding length = 0 :: rest := by
  have hmore := le_align4 (length + 1)
  have hsize : align4 (length + 1) - length = (align4 (length + 1) - length - 1) + 1 := by omega
  exact ⟨_, by rw [padding, hsize, List.replicate_succ]⟩

theorem paddedText_eq (text : String) :
    Builder.paddedText text =
      text.toUTF8.data.toList ++ padding text.toUTF8.data.toList.length := by
  have hmore := le_align4 (text.toUTF8.data.toList.length + 1)
  have hsize : align4 (text.toUTF8.data.toList.length + 1) - text.toUTF8.data.toList.length =
      (align4 (text.toUTF8.data.toList.length + 1) -
        (text.toUTF8.data.toList.length + 1)) + 1 := by omega
  rw [Builder.paddedText, Builder.padded, padding, hsize, List.replicate_succ, List.length_append,
    List.append_assoc]
  rfl

theorem length_paddedText (text : String) :
    (Builder.paddedText text).length = align4 (text.toUTF8.data.toList.length + 1) := by
  have hmore := le_align4 (text.toUTF8.data.toList.length + 1)
  rw [paddedText_eq, padding, List.length_append, List.length_replicate]
  omega

/-! ## The root header -/

theorem untilNul_paddedText {text : String} (htext : Char.ofNat 0 ∉ text.toList) :
    RootHeader.untilNul (Builder.paddedText text).toByteArray = text.toUTF8 := by
  obtain ⟨rest, hrest⟩ := exists_padding_eq text.toUTF8.data.toList.length
  have hbytes : (Builder.paddedText text).toByteArray.data.toList =
      [] ++ (text.toUTF8.data.toList ++ 0 :: rest) := by
    rw [paddedText_eq, hrest]
    simp
  have hextract := extract_of_toList_eq hbytes
  rw [toByteArray_toList] at hextract
  rw [List.nil_append] at hbytes
  rw [RootHeader.untilNul, hbytes, findIdx?_zero (zero_notMem_toUTF8 htext)]
  simpa using hextract

theorem version_noNul : Char.ofNat 0 ∉ Builder.version.toList := by
  decide

theorem RootHeader.reads_read {streamCount : Nat} (hcount : streamCount < Bytes.limit 2) :
    Reads RootHeader.read (Builder.rootHeader streamCount)
      { version := Builder.version, flags := 0, streamCount } := by
  have hlength : (Builder.paddedText Builder.version).length < Bytes.limit 4 := by
    rw [length_paddedText]
    decide
  have hversion :
      (Text.decodeUtf8 (untilNul (Builder.paddedText Builder.version).toByteArray)).mapError
        (ReadError.ofUtf8 .invalidVersionString) = .ok Builder.version := by
    rw [untilNul_paddedText version_noNul, Text.decodeUtf8_toUTF8]
    rfl
  unfold RootHeader.read Builder.rootHeader
  simp only [List.append_assoc]
  refine (reads_littleEndian (by decide)).bind ?_
  rw [if_neg (by simp)]
  refine (reads_littleEndian (by decide)).bind ?_
  refine (reads_littleEndian (by decide)).bind ?_
  rw [if_neg (by simp)]
  refine (reads_littleEndian (by decide)).bind ?_
  rw [if_neg (by simp)]
  refine (reads_littleEndian hlength).bind ?_
  refine (reads_bytes (Builder.paddedText Builder.version)).bind ?_
  refine (reads_ofExcept hversion).nil_bind ?_
  refine (reads_littleEndian (by decide)).bind ?_
  exact (reads_littleEndian hcount).bind_pure _

/-! ## Stream headers -/

def StreamHeader.write (header : StreamHeader) : List UInt8 :=
  Bytes.toLittleEndian 4 header.offset ++ Bytes.toLittleEndian 4 header.size ++
    Builder.paddedText header.name

/-- The header of a stream that lies in a file of the given size and has a known name. -/
structure StreamHeader.Fits (fileSize : Nat) (header : StreamHeader) : Prop where
  stop_le : header.stop ≤ fileSize
  fileSize_lt : fileSize < Bytes.limit 4
  kind : ∃ kind : StreamKind, header.name = kind.name

theorem StreamKind.ofName?_name (kind : StreamKind) : ofName? kind.name = some kind := by
  cases kind <;> decide

theorem StreamKind.name_noNul (kind : StreamKind) : Char.ofNat 0 ∉ kind.name.toList := by
  cases kind <;> decide

theorem StreamKind.length_name_lt (kind : StreamKind) :
    kind.name.toUTF8.data.toList.length < StreamHeader.maxNameSize := by
  cases kind <;> decide

namespace StreamHeader

/-- The length of a name is found without taking the name from the window. -/
theorem nameLength_eq {cursor : Cursor} {text : String} {rest : List UInt8}
    (htext : Char.ofNat 0 ∉ text.toList)
    (hsize : text.toUTF8.data.toList.length < maxNameSize)
    (hcursor : cursor.unread = Builder.paddedText text ++ rest) :
    nameLength cursor = .ok text.toUTF8.data.toList.length cursor := by
  obtain ⟨zeros, hzeros⟩ := exists_padding_eq text.toUTF8.data.toList.length
  obtain ⟨more, hmore⟩ : ∃ more, maxNameSize - text.toUTF8.data.toList.length = more + 1 :=
    Nat.exists_eq_add_one.2 (by omega)
  have hahead : (cursor.ahead maxNameSize).data.toList =
      text.toUTF8.data.toList ++ 0 :: (zeros ++ rest).take more := by
    rw [Cursor.ahead_eq_take_unread, hcursor, paddedText_eq, hzeros, List.append_assoc,
      List.take_append, List.take_of_length_le (Nat.le_of_lt hsize), hmore, List.cons_append,
      List.take_succ_cons]
  simp only [nameLength, hahead, findIdx?_zero (zero_notMem_toUTF8 htext)]

theorem reads_read {header : StreamHeader} {fileSize : Nat} (hfits : header.Fits fileSize) :
    Reads read header.write header := by
  obtain ⟨kind, hkind⟩ := hfits.kind
  have hstop := hfits.stop_le
  have hlimit := hfits.fileSize_lt
  have htext : Char.ofNat 0 ∉ header.name.toList := by
    rw [hkind]
    exact kind.name_noNul
  have hsize : header.name.toUTF8.data.toList.length < maxNameSize := by
    rw [hkind]
    exact kind.length_name_lt
  have hname : (Text.decodeUtf8 header.name.toUTF8.data.toList.toByteArray).mapError
      (ReadError.ofUtf8 .invalidStreamName) = .ok header.name := by
    rw [toByteArray_toList, Text.decodeUtf8_toUTF8]
    rfl
  unfold read write
  rw [List.append_assoc]
  simp only [stop] at hstop
  refine (reads_littleEndian (by omega)).bind ?_
  refine (reads_littleEndian (by omega)).bind ?_
  have hrest : Reads (do
      let bytes ← Reader.bytes header.name.toUTF8.data.toList.length
      let name ← Reader.ofExcept <|
        (Text.decodeUtf8 bytes).mapError (ReadError.ofUtf8 .invalidStreamName)
      let _ ← (Reader.bytes (align4 (header.name.toUTF8.data.toList.length + 1) -
        header.name.toUTF8.data.toList.length)).under .invalidStreamHeader
      return { offset := header.offset, size := header.size, name })
      (Builder.paddedText header.name) header := by
    rw [paddedText_eq]
    refine (reads_bytes header.name.toUTF8.data.toList).bind ?_
    refine (reads_ofExcept hname).nil_bind ?_
    have hpadding := (reads_bytes (padding header.name.toUTF8.data.toList.length)).under
      .invalidStreamHeader
    rw [padding, List.length_replicate] at hpadding
    exact hpadding.bind_pure _
  intro cursor rest hcursor
  obtain ⟨next, hnext, hleft⟩ := hrest cursor rest hcursor
  exact ⟨next, by rw [bind_of_ok (nameLength_eq htext hsize hcursor)]; exact hnext, hleft⟩

end StreamHeader

theorem reads_readKnownStream {header : StreamHeader} {fileSize : Nat}
    (hfits : header.Fits fileSize) :
    Reads (readKnownStream fileSize) header.write header := by
  obtain ⟨kind, hkind⟩ := hfits.kind
  have hknown : ¬(StreamKind.ofName? header.name).isNone = true := by
    rw [hkind, StreamKind.ofName?_name]
    simp
  unfold readKnownStream
  refine (StreamHeader.reads_read hfits).bind_nil ?_
  rw [if_neg (Nat.not_lt.2 hfits.stop_le), if_neg hknown]
  exact reads_pure header

end PortablePdb
