import PortablePdb.Heaps
import PortablePdb.Proofs.Bytes.Reading

/-!
# Entries of a heap read back

Where a heap holds the bytes of an entry, looking it up gives the entry.  The bytes before and
behind the entry do not matter, so an entry that was added once stays readable however the heap
grows.
-/

namespace PortablePdb

/-! ## Blobs -/

theorem blobAt_zero (heap : ByteArray) : blobAt heap 0 = .ok ByteArray.empty := by
  rfl

theorem blobAt_of_toList_eq {heap blob : ByteArray} {front field rest : List UInt8}
    (hfront : front ≠ []) (hfield : Bytes.Compressed.encodeUnsigned blob.size = .ok field)
    (hsize : blob.size < 0x20000000)
    (hheap : heap.data.toList = front ++ (field ++ (blob.data.toList ++ rest))) :
    blobAt heap front.length = .ok blob := by
  obtain ⟨other, hother, hnonempty, hreadsField⟩ := Reader.exists_reads_compressedUnsigned hsize
  obtain rfl : other = field := Except.ok.inj (hother.symm.trans hfield)
  have hreadsBlob := Reader.reads_bytes blob.data.toList
  rw [toByteArray_toList] at hreadsBlob
  have hreads := (hreadsField.bind hreadsBlob).under .invalidBlobData
  have hlength : heap.size =
      front.length + (other.length + (blob.data.toList.length + rest.length)) := by
    have hlengths := congrArg List.length hheap
    simpa only [List.length_append, Array.length_toList, ByteArray.size_data] using hlengths
  have hpos := List.length_pos_iff.2 hnonempty
  have hzero : front.length ≠ 0 := by simpa using hfront
  have hinside : ¬heap.size ≤ front.length := by omega
  obtain ⟨cursor, hcursor, hunread⟩ :=
    @Cursor.exists_window (Cursor.ofBytes heap) front.length (heap.size - front.length)
      (by simp only [Cursor.ofBytes]; omega)
  have hleft : cursor.unread = (other ++ blob.data.toList) ++ rest := by
    rw [hunread]
    simp only [Cursor.ofBytes, Nat.zero_add, hheap, List.drop_left, List.append_assoc]
    apply List.take_of_length_le
    simp only [List.length_append]
    omega
  rw [blobAt, if_neg hzero, if_neg hinside, hcursor]
  exact Reader.run_of_reads hreads hleft

/-! ## Strings -/

theorem getElem?_of_drop_eq {heap : ByteArray} {byte : UInt8} {rest : List UInt8} {offset : Nat}
    (hheap : heap.data.toList.drop offset = byte :: rest) : heap[offset]? = some byte := by
  have hget : heap.data.toList[offset]? = some byte := by
    have hdrop : (heap.data.toList.drop offset)[0]? = heap.data.toList[offset + 0]? :=
      List.getElem?_drop
    rw [hheap] at hdrop
    exact hdrop.symm
  rw [← hget]
  simp [getElem?_def, ByteArray.getElem_eq_getElem_data]

theorem nulPosition_of_drop_eq {heap : ByteArray} {text rest : List UInt8} {offset length : Nat}
    (htext : 0 ∉ text) (hlength : text.length < length)
    (hheap : heap.data.toList.drop offset = text ++ 0 :: rest) :
    nulPosition heap offset length = some (offset + text.length) := by
  obtain ⟨length, rfl⟩ := Nat.exists_eq_succ_of_ne_zero (Nat.ne_zero_of_lt hlength)
  induction text generalizing offset length with
  | nil => simp [nulPosition, getElem?_of_drop_eq hheap]
  | cons byte text ih =>
      have hget := getElem?_of_drop_eq hheap
      have hbyte : byte ≠ 0 := by
        rintro rfl
        exact htext List.mem_cons_self
      have hrest : heap.data.toList.drop (offset + 1) = text ++ 0 :: rest := by
        rw [← List.drop_drop, hheap]
        rfl
      simp only [List.length_cons] at hlength
      obtain ⟨length, rfl⟩ := Nat.exists_eq_succ_of_ne_zero (by omega : length ≠ 0)
      have hnul := ih (fun hmem => htext (List.mem_cons_of_mem byte hmem)) hrest length (by omega)
      rw [nulPosition, hget, if_neg (by simpa using hbyte), hnul, List.length_cons]
      congr 1
      omega

theorem zero_ne_ofNat {n : Nat} (hn : n % 256 ≠ 0) : (0 : UInt8) ≠ UInt8.ofNat n := by
  intro hzero
  apply hn
  rw [← UInt8.toNat_ofNat', ← hzero]
  rfl

theorem zero_notMem_utf8EncodeChar {c : Char} (hc : c ≠ Char.ofNat 0) :
    0 ∉ String.utf8EncodeChar c := by
  have hval : c.val.toNat ≠ 0 := by
    intro hzero
    exact hc (Char.ext (UInt32.toNat_inj.1 hzero))
  simp only [String.utf8EncodeChar]
  split
  · simpa using zero_ne_ofNat (by omega : c.val.toNat % 256 ≠ 0)
  · split
    · simp only [List.mem_cons, List.not_mem_nil, or_false, not_or]
      exact ⟨zero_ne_ofNat (by omega), zero_ne_ofNat (by omega)⟩
    · split
      · simp only [List.mem_cons, List.not_mem_nil, or_false, not_or]
        exact ⟨zero_ne_ofNat (by omega), zero_ne_ofNat (by omega), zero_ne_ofNat (by omega)⟩
      · simp only [List.mem_cons, List.not_mem_nil, or_false, not_or]
        exact ⟨zero_ne_ofNat (by omega), zero_ne_ofNat (by omega), zero_ne_ofNat (by omega),
          zero_ne_ofNat (by omega)⟩

theorem zero_notMem_toUTF8 {text : String} (htext : Char.ofNat 0 ∉ text.toList) :
    0 ∉ text.toUTF8.data.toList := by
  have hbytes : text.toUTF8.data.toList = text.toList.flatMap String.utf8EncodeChar := by
    rw [String.toUTF8_eq_toByteArray, ← String.utf8Encode_toList]
    simp [List.utf8Encode]
  rw [hbytes, List.mem_flatMap]
  rintro ⟨c, hc, hzero⟩
  refine zero_notMem_utf8EncodeChar ?_ hzero
  rintro rfl
  exact htext hc

theorem stringAt_of_toList_eq {heap : ByteArray} {front rest : List UInt8} {text : String}
    (htext : Char.ofNat 0 ∉ text.toList)
    (hheap : heap.data.toList = front ++ (text.toUTF8.data.toList ++ 0 :: rest)) :
    stringAt heap front.length = .ok text := by
  have hlength : heap.size =
      front.length + (text.toUTF8.data.toList.length + (rest.length + 1)) := by
    have hlengths := congrArg List.length hheap
    simpa only [List.length_append, List.length_cons, Array.length_toList, ByteArray.size_data]
      using hlengths
  have hdrop : heap.data.toList.drop front.length = text.toUTF8.data.toList ++ 0 :: rest := by
    rw [hheap, List.drop_left]
  have hnul := nulPosition_of_drop_eq (zero_notMem_toUTF8 htext)
    (by omega : text.toUTF8.data.toList.length < heap.size - front.length) hdrop
  have hextract := extract_of_toList_eq hheap
  rw [toByteArray_toList] at hextract
  rw [stringAt, if_neg (by omega), if_neg (by omega), hnul]
  simp only [hextract, Text.decodeUtf8_toUTF8]
  rfl

/-! ## Identifiers -/

theorem mixed_mixed (bytes : List UInt8) : Guid.mixed (Guid.mixed bytes) = bytes := by
  fun_cases Guid.mixed bytes with
  | case1 => rfl
  | case2 bytes hlength => rw [Guid.mixed.eq_2 bytes hlength]

theorem ofBytes_toBytes {guid : Guid} (hguid : guid.value < Bytes.limit 16) :
    Guid.ofBytes guid.toBytes = guid := by
  rw [Guid.ofBytes, Guid.toBytes, mixed_mixed, List.reverse_reverse,
    Bytes.ofLittleEndian_toLittleEndian, Nat.mod_eq_of_lt hguid]

theorem length_toBytes (guid : Guid) : guid.toBytes.length = 16 := by
  have hlength : (Bytes.toLittleEndian 16 guid.value).reverse.length = 16 := by simp
  unfold Guid.toBytes Guid.mixed
  split <;> simp_all

theorem guidAt_of_toList_eq {heap : ByteArray} {front rest : List UInt8} {guid : Guid}
    {index : Nat} (hguid : guid.value < Bytes.limit 16)
    (hfront : front.length = 16 * index)
    (hheap : heap.data.toList = front ++ (guid.toBytes ++ rest)) :
    guidAt heap (index + 1) = .ok guid := by
  have hlength : heap.size = front.length + (16 + rest.length) := by
    have hlengths := congrArg List.length hheap
    simpa only [List.length_append, Array.length_toList, ByteArray.size_data, length_toBytes]
      using hlengths
  have hextract := extract_of_toList_eq hheap
  rw [length_toBytes, hfront] at hextract
  rw [guidAt, if_neg (by omega), if_pos (by omega), Nat.add_sub_cancel, Nat.mul_add, hextract,
    ← ofBytes_toBytes hguid]
  simp [ofBytes_toBytes hguid]

end PortablePdb
