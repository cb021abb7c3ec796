import PortablePdb.Builder.Basic
import PortablePdb.Document
import PortablePdb.Proofs.Heaps

/-!
# Growing heaps

An addition only appends to the heaps of a builder.  What it adds can be looked up at the place it
answers with in all heaps that start with those of the builder afterwards, so nothing has to be
proved again when more is added.
-/

namespace PortablePdb

/-- The contents of the heaps so far. -/
structure HeapBytes where
  strings : ByteArray
  blobs : ByteArray
  guids : ByteArray

def Builder.heapBytes (builder : Builder) : HeapBytes where
  strings := builder.strings
  blobs := builder.blobs
  guids := builder.guids

namespace HeapBytes

variable {bytes next : HeapBytes}

/-- The heaps start with these bytes. -/
structure Within (bytes : HeapBytes) (heaps : Heaps) : Prop where
  strings : bytes.strings.data.toList <+: heaps.strings.data.toList
  blobs : bytes.blobs.data.toList <+: heaps.blobs.data.toList
  guids : bytes.guids.data.toList <+: heaps.guids.data.toList

/-- Later contents start with the earlier ones. -/
structure GrowsTo (bytes next : HeapBytes) : Prop where
  strings : bytes.strings.data.toList <+: next.strings.data.toList
  blobs : bytes.blobs.data.toList <+: next.blobs.data.toList
  guids : bytes.guids.data.toList <+: next.guids.data.toList

/-- Additions find offset zero taken, and the identifiers whole. -/
structure Sound (bytes : HeapBytes) : Prop where
  strings_pos : 0 < bytes.strings.size
  blobs_pos : 0 < bytes.blobs.size
  guids_whole : bytes.guids.size % 16 = 0

theorem GrowsTo.refl (bytes : HeapBytes) : bytes.GrowsTo bytes :=
  ⟨List.prefix_rfl, List.prefix_rfl, List.prefix_rfl⟩

theorem GrowsTo.trans {last : HeapBytes} (hfirst : bytes.GrowsTo next)
    (hsecond : next.GrowsTo last) : bytes.GrowsTo last :=
  ⟨hfirst.strings.trans hsecond.strings, hfirst.blobs.trans hsecond.blobs,
    hfirst.guids.trans hsecond.guids⟩

theorem GrowsTo.within {heaps : Heaps} (hgrows : bytes.GrowsTo next)
    (hwithin : next.Within heaps) : bytes.Within heaps :=
  ⟨hgrows.strings.trans hwithin.strings, hgrows.blobs.trans hwithin.blobs,
    hgrows.guids.trans hwithin.guids⟩

theorem GrowsTo.strings_size_le (hgrows : bytes.GrowsTo next) :
    bytes.strings.size ≤ next.strings.size := by
  simpa using hgrows.strings.length_le

theorem GrowsTo.blobs_size_le (hgrows : bytes.GrowsTo next) :
    bytes.blobs.size ≤ next.blobs.size := by
  simpa using hgrows.blobs.length_le

theorem GrowsTo.guids_size_le (hgrows : bytes.GrowsTo next) :
    bytes.guids.size ≤ next.guids.size := by
  simpa using hgrows.guids.length_le

theorem Sound.grow (hsound : bytes.Sound) (hgrows : bytes.GrowsTo next)
    (hwhole : next.guids.size % 16 = 0) : next.Sound where
  strings_pos := Nat.lt_of_lt_of_le hsound.strings_pos hgrows.strings_size_le
  blobs_pos := Nat.lt_of_lt_of_le hsound.blobs_pos hgrows.blobs_size_le
  guids_whole := hwhole

end HeapBytes

/-! ## Appending to one heap -/

namespace Builder

variable {builder : Builder}

def appendStrings (builder : Builder) (added : ByteArray) : Builder :=
  { builder with strings := builder.strings ++ added }

def appendBlobs (builder : Builder) (added : ByteArray) : Builder :=
  { builder with blobs := builder.blobs ++ added }

def appendGuids (builder : Builder) (added : ByteArray) : Builder :=
  { builder with guids := builder.guids ++ added }

theorem appendBlobs_empty (builder : Builder) : builder.appendBlobs ByteArray.empty = builder := by
  rw [appendBlobs, ByteArray.append_empty]

theorem appendBlobs_appendBlobs (builder : Builder) (added more : ByteArray) :
    (builder.appendBlobs added).appendBlobs more = builder.appendBlobs (added ++ more) := by
  simp only [appendBlobs, ByteArray.append_assoc]

theorem growsTo_appendStrings (builder : Builder) (added : ByteArray) :
    builder.heapBytes.GrowsTo (builder.appendStrings added).heapBytes where
  strings := by simp [appendStrings, heapBytes]
  blobs := List.prefix_rfl
  guids := List.prefix_rfl

theorem growsTo_appendBlobs (builder : Builder) (added : ByteArray) :
    builder.heapBytes.GrowsTo (builder.appendBlobs added).heapBytes where
  strings := List.prefix_rfl
  blobs := by simp [appendBlobs, heapBytes]
  guids := List.prefix_rfl

theorem growsTo_appendGuids (builder : Builder) (added : ByteArray) :
    builder.heapBytes.GrowsTo (builder.appendGuids added).heapBytes where
  strings := List.prefix_rfl
  blobs := List.prefix_rfl
  guids := by simp [appendGuids, heapBytes]

theorem sound_appendBlobs (hsound : builder.heapBytes.Sound) (added : ByteArray) :
    (builder.appendBlobs added).heapBytes.Sound :=
  hsound.grow (growsTo_appendBlobs builder added) hsound.guids_whole

theorem sound_appendStrings (hsound : builder.heapBytes.Sound) (added : ByteArray) :
    (builder.appendStrings added).heapBytes.Sound :=
  hsound.grow (growsTo_appendStrings builder added) hsound.guids_whole

theorem sound_appendGuids (hsound : builder.heapBytes.Sound) {added : ByteArray}
    (hadded : added.size = 16) : (builder.appendGuids added).heapBytes.Sound := by
  refine hsound.grow (growsTo_appendGuids builder added) ?_
  have hwhole : builder.guids.size % 16 = 0 := hsound.guids_whole
  simp only [appendGuids, heapBytes, ByteArray.size_append, hadded]
  omega

end Builder

namespace Building

variable {α β : Type}

theorem bind_eq_ok {first : Building α} {second : α → Building β} {builder : Builder}
    {result : β × Builder} (hresult : (first >>= second) builder = .ok result) :
    ∃ value middle, first builder = .ok (value, middle) ∧ second value middle = .ok result := by
  change (first builder >>= fun found => second found.1 found.2) = .ok result at hresult
  cases hfirst : first builder with
  | error error =>
      rw [hfirst] at hresult
      cases hresult
  | ok found =>
      rw [hfirst] at hresult
      exact ⟨found.1, found.2, rfl, hresult⟩

theorem liftM_eq_ok {result : Except SequencePoint.EncodeError α} {builder next : Builder}
    {value : α} (hresult : (liftM result : Building α) builder = .ok (value, next)) :
    result = .ok value ∧ next = builder := by
  cases result with
  | error error => cases hresult
  | ok found =>
      cases hresult
      exact ⟨rfl, rfl⟩

theorem unsigned_eq_ok {value : Nat} {field : List UInt8}
    (hfield : SequencePoint.unsigned value = .ok field) :
    Bytes.Compressed.encodeUnsigned value = .ok field ∧ value < 0x20000000 := by
  unfold SequencePoint.unsigned at hfield
  cases hencode : Bytes.Compressed.encodeUnsigned value with
  | error error =>
      rw [hencode] at hfield
      cases hfield
  | ok found =>
      rw [hencode] at hfield
      cases hfield
      refine ⟨rfl, Nat.lt_of_not_le fun hlarge => ?_⟩
      have hone : ¬value < 0x80 := by omega
      have htwo : ¬value < 0x4000 := by omega
      rw [Bytes.Compressed.encodeUnsigned, if_neg hone, if_neg htwo,
        if_neg (Nat.not_lt.2 hlarge)] at hencode
      cases hencode

/-! ## Blobs -/

/-- What the addition of a blob does, and what can be read at the answered offset from then on. -/
theorem addBlob_spec {blob : ByteArray} {builder next : Builder} {offset : Nat}
    (hadd : addBlob blob builder = .ok (offset, next)) :
    ∃ added, next = builder.appendBlobs added ∧
      offset = builder.blobs.size ∧ 0 < added.size ∧
      (builder.heapBytes.Sound → ∀ heaps, next.heapBytes.Within heaps →
        heaps.blob offset = .ok blob) := by
  obtain ⟨field, middle, hlift, hmodify⟩ := bind_eq_ok hadd
  obtain ⟨hunsigned, rfl⟩ := liftM_eq_ok hlift
  obtain ⟨hfield, hsize⟩ := unsigned_eq_ok hunsigned
  obtain ⟨other, hother, hnonempty, -⟩ := Bytes.Compressed.exists_encodeUnsigned hsize
  obtain rfl : other = field := Except.ok.inj (hother.symm.trans hfield)
  cases hmodify
  refine ⟨other.toByteArray ++ blob, by rw [Builder.appendBlobs, ByteArray.append_assoc], rfl,
    ?_, ?_⟩
  · rw [ByteArray.size_append, List.size_toByteArray]
    have hpos := List.length_pos_iff.2 hnonempty
    omega
  · intro hsound heaps hwithin
    obtain ⟨rest, hrest⟩ := hwithin.blobs
    have hlength : middle.blobs.data.toList.length = middle.blobs.size := by simp
    have hfront : middle.blobs.data.toList ≠ [] := by
      have hpos : 0 < middle.blobs.size := hsound.blobs_pos
      rw [← hlength] at hpos
      exact List.ne_nil_of_length_pos hpos
    have hheap : heaps.blobs.data.toList =
        middle.blobs.data.toList ++ (other ++ (blob.data.toList ++ rest)) := by
      rw [← hrest]
      simp [Builder.heapBytes]
    rw [Heaps.blob, ← hlength]
    exact blobAt_of_toList_eq hfront hfield hsize hheap

/-! ## Strings and identifiers -/

theorem addString_spec {text : String} {builder next : Builder} {offset : Nat}
    (hadd : addString text builder = .ok (offset, next)) :
    ∃ added, next = builder.appendStrings added ∧
      offset = builder.strings.size ∧ 0 < added.size ∧
      (Char.ofNat 0 ∉ text.toList → ∀ heaps, next.heapBytes.Within heaps →
        heaps.string offset = .ok text) := by
  cases hadd
  refine ⟨text.toUTF8 ++ [0].toByteArray, by rw [Builder.appendStrings, ByteArray.append_assoc],
    rfl, by simp, ?_⟩
  intro htext heaps hwithin
  obtain ⟨rest, hrest⟩ := hwithin.strings
  have hlength : builder.strings.data.toList.length = builder.strings.size := by simp
  have hheap : heaps.strings.data.toList =
      builder.strings.data.toList ++ (text.toUTF8.data.toList ++ 0 :: rest) := by
    rw [← hrest]
    simp [Builder.heapBytes]
  rw [Heaps.string, ← hlength]
  exact stringAt_of_toList_eq htext hheap

theorem addGuid_spec {guid : Guid} {builder next : Builder} {index : Nat}
    (hadd : addGuid guid builder = .ok (index, next)) :
    ∃ added, next = builder.appendGuids added ∧ added.size = 16 ∧
      index = next.guids.size / 16 ∧
      (builder.heapBytes.Sound → guid.value < Bytes.limit 16 →
        ∀ heaps, next.heapBytes.Within heaps → heaps.guid index = .ok guid) := by
  cases hadd
  have hadded : guid.toBytes.toByteArray.size = 16 := by simp [length_toBytes]
  refine ⟨guid.toBytes.toByteArray, rfl, hadded, rfl, ?_⟩
  intro hsound hguid heaps hwithin
  have hwhole : builder.guids.size % 16 = 0 := hsound.guids_whole
  obtain ⟨rest, hrest⟩ := hwithin.guids
  have hfront : builder.guids.data.toList.length = 16 * (builder.guids.size / 16) := by
    simp only [Array.length_toList, ByteArray.size_data]
    omega
  have hindex : (builder.guids ++ guid.toBytes.toByteArray).size / 16 =
      builder.guids.size / 16 + 1 := by
    rw [ByteArray.size_append, hadded]
    omega
  have hheap : heaps.guids.data.toList =
      builder.guids.data.toList ++ (guid.toBytes ++ rest) := by
    rw [← hrest]
    simp [Builder.heapBytes]
  rw [Heaps.guid, hindex]
  exact guidAt_of_toList_eq hguid hfront hheap

end Building

/-! ## Document names -/

namespace Building

open Reader

theorem addNamePart_spec {part : List Char} {builder next : Builder} {field : List UInt8}
    (hadd : addNamePart part builder = .ok (field, next)) :
    ∃ added, next = builder.appendBlobs added ∧ field ≠ [] ∧
      (builder.heapBytes.Sound → ∀ heaps, next.heapBytes.Within heaps → ∀ found,
        Reads (DocumentInfo.readNamePart heaps found) field
          (found.push (String.ofList part))) := by
  have hsteps : ∃ offset middle,
      (if part.isEmpty then pure 0 else addBlob (String.ofList part).toUTF8 : Building Nat)
        builder = .ok (offset, middle) ∧
      (liftM (SequencePoint.unsigned offset) : Building (List UInt8)) middle =
        .ok (field, next) := by
    cases part with
    | nil => exact bind_eq_ok hadd
    | cons c rest => exact bind_eq_ok hadd
  obtain ⟨offset, middle, hoffset, hlift⟩ := hsteps
  obtain ⟨hunsigned, rfl⟩ := liftM_eq_ok hlift
  obtain ⟨hencode, hsmall⟩ := unsigned_eq_ok hunsigned
  obtain ⟨other, hother, hnonempty, hreads⟩ := exists_reads_compressedUnsigned hsmall
  obtain rfl : other = field := Except.ok.inj (hother.symm.trans hencode)
  have hblob : ∃ added, next = builder.appendBlobs added ∧
      (builder.heapBytes.Sound → ∀ heaps, next.heapBytes.Within heaps →
        heaps.blob offset = .ok (String.ofList part).toUTF8) := by
    cases part with
    | nil =>
        cases hoffset
        refine ⟨ByteArray.empty, (Builder.appendBlobs_empty _).symm, ?_⟩
        intro _ heaps _
        exact blobAt_zero heaps.blobs
    | cons c rest =>
        obtain ⟨added, hnext, -, -, hread⟩ := addBlob_spec hoffset
        exact ⟨added, hnext, hread⟩
  obtain ⟨added, hnext, hread⟩ := hblob
  refine ⟨added, hnext, hnonempty, ?_⟩
  intro hsound heaps hwithin found
  unfold DocumentInfo.readNamePart
  refine (hreads.under _).bind_nil ?_
  refine (reads_ofExcept (hread hsound heaps hwithin)).bind_nil ?_
  refine (reads_ofExcept (by rw [Text.decodeUtf8_toUTF8]; rfl)).bind_nil ?_
  exact reads_pure _

theorem mapM_addNamePart_spec {parts : List (List Char)} {builder next : Builder}
    {fields : List (List UInt8)} (hadd : parts.mapM addNamePart builder = .ok (fields, next)) :
    ∃ added, next = builder.appendBlobs added ∧
      (builder.heapBytes.Sound → ∀ heaps, next.heapBytes.Within heaps → ∀ found,
        ReadsAll (untilEnd (DocumentInfo.readNamePart heaps) found) fields.flatten
          (found ++ (parts.map String.ofList).toArray)) := by
  induction parts generalizing builder fields with
  | nil =>
      cases hadd
      refine ⟨ByteArray.empty, (Builder.appendBlobs_empty _).symm, ?_⟩
      intro _ heaps _ found
      simpa using readsAll_untilEnd_nil (DocumentInfo.readNamePart heaps) found
  | cons part parts ih =>
      rw [List.mapM_cons] at hadd
      obtain ⟨field, middle, hfield, hrest⟩ := bind_eq_ok hadd
      obtain ⟨rest, last, hparts, hlast⟩ := bind_eq_ok hrest
      cases hlast
      obtain ⟨added, rfl, hnonempty, hreadsPart⟩ := addNamePart_spec hfield
      obtain ⟨more, rfl, hreadsRest⟩ := ih hparts
      refine ⟨added ++ more, builder.appendBlobs_appendBlobs added more, ?_⟩
      intro hsound heaps hwithin found
      have hmiddle := (Builder.growsTo_appendBlobs _ more).within hwithin
      have hpart := hreadsPart hsound heaps hmiddle found
      have hparts := hreadsRest (Builder.sound_appendBlobs hsound added) heaps hwithin
        (found.push (String.ofList part))
      have hpush : found ++ ((part :: parts).map String.ofList).toArray =
          found.push (String.ofList part) ++ (parts.map String.ofList).toArray := by
        simp
      rw [hpush]
      exact readsAll_untilEnd_cons hnonempty hpart hparts

theorem joinParts_splitOn {separator : Char} (hseparator : separator.toNat ≠ 0)
    (path : String) :
    DocumentInfo.joinParts separator.toNat
      ((path.toList.splitOn separator).map String.ofList) = path := by
  rw [DocumentInfo.joinParts, if_neg hseparator, Char.ofNat_toNat]
  apply String.toList_inj.1
  rw [String.toList_intercalate, List.map_map]
  have hparts : (path.toList.splitOn separator).map (String.toList ∘ String.ofList) =
      path.toList.splitOn separator := by
    simp [Function.comp_def]
  have hseparator : separator.toString.toList = [separator] := by simp [Char.toString]
  rw [hparts, hseparator]
  exact List.intercalate_splitOn separator

theorem readsAll_readName {heaps : Heaps} {separator : Char} {fields : List UInt8}
    {parts : List String} (hseparator : separator.toNat < 0x80)
    (hparts : ReadsAll (untilEnd (DocumentInfo.readNamePart heaps) #[]) fields parts.toArray) :
    ReadsAll (DocumentInfo.readName heaps) (UInt8.ofNat separator.toNat :: fields)
      (DocumentInfo.joinParts separator.toNat parts) := by
  unfold DocumentInfo.readName
  refine Reads.bind_readsAll ((reads_byte (by omega)).under _) ?_
  rw [if_neg (Nat.not_le.2 hseparator)]
  exact hparts.bind_pure fun found => DocumentInfo.joinParts separator.toNat found.toList

/-- A name is read back as the path it was split from. -/
theorem addDocumentName_spec {path : String} {builder next : Builder} {offset : Nat}
    (hadd : addDocumentName path builder = .ok (offset, next)) :
    ∃ added, next = builder.appendBlobs added ∧ offset < next.blobs.size ∧
      (builder.heapBytes.Sound → ∀ heaps, next.heapBytes.Within heaps →
        DocumentInfo.name heaps offset = .ok path) := by
  obtain ⟨separator, hone, hseparator, hsteps⟩ : ∃ separator : Char, separator.toNat ≠ 0 ∧
      separator.toNat < 0x80 ∧
      (do
        let parts ← (path.toList.splitOn separator).mapM addNamePart
        addBlob (UInt8.ofNat separator.toNat :: parts.flatten).toByteArray) builder =
          .ok (offset, next) := by
    refine ⟨if '\\' ∈ path.toList then '\\' else '/', ?_, ?_, hadd⟩
    · split <;> decide
    · split <;> decide
  obtain ⟨fields, middle, hfields, hblob⟩ := bind_eq_ok hsteps
  obtain ⟨added, rfl, hreadsParts⟩ := mapM_addNamePart_spec hfields
  obtain ⟨more, rfl, rfl, hmore, hreadBlob⟩ := addBlob_spec hblob
  refine ⟨added ++ more, builder.appendBlobs_appendBlobs added more, ?_, ?_⟩
  · simp only [Builder.appendBlobs, ByteArray.size_append]
    omega
  · intro hsound heaps hwithin
    have hmiddle := (Builder.growsTo_appendBlobs _ more).within hwithin
    have hparts := hreadsParts hsound heaps hmiddle #[]
    have hblob := hreadBlob (Builder.sound_appendBlobs hsound added) heaps hwithin
    rw [Array.empty_append] at hparts
    have hname := run_of_readsAll (readsAll_readName hseparator hparts)
    rw [joinParts_splitOn hone] at hname
    rw [DocumentInfo.name, hblob]
    exact hname

end Building

end PortablePdb
