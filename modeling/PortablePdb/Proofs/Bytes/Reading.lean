import PortablePdb.Bytes.Cursor
import PortablePdb.Proofs.Bytes.Compressed

/-!
# What a reader takes from the front of its window

A reader *reads* a byte string as a value if it answers with the value and stops behind the byte
string whenever the unread part of its window starts with it, whatever follows.  Readers that are
made of others read the concatenation of what their parts read, so a codec is proved right one
field at a time.  A reader that runs up to the end of its window needs the unread part to be
exactly the byte string.
-/

namespace PortablePdb

/-! ## Byte arrays as lists -/

theorem eq_of_toList_eq {first second : ByteArray}
    (htoList : first.data.toList = second.data.toList) : first = second :=
  ByteArray.ext (Array.toList_inj.1 htoList)

theorem toByteArray_toList (bytes : ByteArray) : bytes.data.toList.toByteArray = bytes := by
  apply eq_of_toList_eq
  simp

theorem extract_of_toList_eq {heap : ByteArray} {front field rest : List UInt8}
    (hheap : heap.data.toList = front ++ (field ++ rest)) :
    heap.extract front.length (front.length + field.length) = field.toByteArray := by
  apply eq_of_toList_eq
  rw [ByteArray.data_extract, Array.toList_extract, List.extract_eq_take_drop, hheap,
    List.drop_left, Nat.add_sub_cancel_left, List.take_left]
  simp

/-! ## Windows -/

namespace Cursor

/-- The bytes from the position to the end of the window. -/
def unread (cursor : Cursor) : List UInt8 :=
  (cursor.ahead cursor.remaining).data.toList

theorem length_unread (cursor : Cursor) : cursor.unread.length = cursor.remaining := by
  have hsize := cursor.size_ahead cursor.remaining
  rw [Nat.min_self] at hsize
  exact hsize

theorem ahead_eq_take_unread (cursor : Cursor) (count : Nat) :
    (cursor.ahead count).data.toList = cursor.unread.take count := by
  have hstop := cursor.position_le_stop
  have hend : cursor.position + (cursor.stop - cursor.position) = cursor.stop := by omega
  simp only [unread, ahead, remaining, ByteArray.data_extract, Array.toList_extract, hend,
    Nat.min_self, List.extract_eq_take_drop, List.take_take]
  congr 1
  omega

theorem unread_advance (cursor : Cursor) {count : Nat} (hcount : count ≤ cursor.remaining) :
    (cursor.advance count hcount).unread = cursor.unread.drop count := by
  have hstop := cursor.position_le_stop
  simp only [remaining] at hcount
  simp only [unread, ahead, remaining, advance, ByteArray.data_extract, Array.toList_extract,
    List.extract_eq_take_drop, List.drop_take, List.drop_drop]
  congr 1
  omega

@[simp] theorem unread_ofBytes (buffer : ByteArray) :
    (ofBytes buffer).unread = buffer.data.toList := by
  simp [unread, ahead, remaining, ofBytes]

theorem exists_window {cursor : Cursor} {offset length : Nat}
    (hinside : cursor.start + offset + length ≤ cursor.stop) :
    ∃ next, cursor.window offset length = .ok next ∧
      next.unread = (cursor.buffer.data.toList.drop (cursor.start + offset)).take length := by
  refine ⟨_, dif_pos hinside, ?_⟩
  simp [unread, ahead, remaining]

theorem atEnd_iff (cursor : Cursor) : cursor.atEnd = true ↔ cursor.unread = [] := by
  have hstop := cursor.position_le_stop
  rw [List.eq_nil_iff_length_eq_zero, length_unread]
  simp only [atEnd, remaining, beq_iff_eq]
  omega

end Cursor

namespace Reader

variable {α β : Type}

/-- The reader takes exactly these bytes from the front of its window and answers with the
value. -/
def Reads (reader : Reader α) (bytes : List UInt8) (value : α) : Prop :=
  ∀ (cursor : Cursor) (rest : List UInt8), cursor.unread = bytes ++ rest →
    ∃ next, reader cursor = .ok value next ∧ next.unread = rest

/-- The reader answers with the value when these bytes are all that is left. -/
def ReadsAll (reader : Reader α) (bytes : List UInt8) (value : α) : Prop :=
  ∀ cursor : Cursor, cursor.unread = bytes →
    ∃ next, reader cursor = .ok value next ∧ next.unread = []

theorem Reads.readsAll {reader : Reader α} {bytes : List UInt8} {value : α}
    (hreads : Reads reader bytes value) : ReadsAll reader bytes value := by
  intro cursor hcursor
  exact hreads cursor [] (by simpa using hcursor)

theorem run_of_reads {reader : Reader α} {bytes rest : List UInt8} {value : α} {cursor : Cursor}
    (hreads : Reads reader bytes value) (hcursor : cursor.unread = bytes ++ rest) :
    reader.run cursor = .ok value := by
  obtain ⟨next, hnext, -⟩ := hreads cursor rest hcursor
  simp only [run, EStateM.run, hnext]

theorem run_of_readsAll {reader : Reader α} {bytes : List UInt8} {value : α}
    (hreads : ReadsAll reader bytes value) :
    reader.run (Cursor.ofBytes bytes.toByteArray) = .ok value := by
  obtain ⟨next, hnext, -⟩ := hreads (Cursor.ofBytes bytes.toByteArray) (by simp)
  simp only [run, EStateM.run, hnext]

/-! ## Sequencing -/

theorem bind_of_ok {first : Reader α} {cursor middle : Cursor} {value : α}
    (hfirst : first cursor = .ok value middle) (second : α → Reader β) :
    (first >>= second) cursor = second value middle := by
  change EStateM.bind first second cursor = _
  simp only [EStateM.bind, hfirst]

theorem reads_pure (value : α) : Reads (pure value) [] value := by
  intro cursor rest hcursor
  exact ⟨cursor, rfl, hcursor⟩

theorem Reads.bind {first : Reader α} {second : α → Reader β} {front back : List UInt8}
    {value : α} {result : β} (hfirst : Reads first front value)
    (hsecond : Reads (second value) back result) :
    Reads (first >>= second) (front ++ back) result := by
  intro cursor rest hcursor
  rw [List.append_assoc] at hcursor
  obtain ⟨middle, hmiddle, hleft⟩ := hfirst cursor (back ++ rest) hcursor
  obtain ⟨next, hnext, hrest⟩ := hsecond middle rest hleft
  exact ⟨next, by rw [bind_of_ok hmiddle, hnext], hrest⟩

theorem Reads.bind_readsAll {first : Reader α} {second : α → Reader β}
    {front back : List UInt8} {value : α} {result : β} (hfirst : Reads first front value)
    (hsecond : ReadsAll (second value) back result) :
    ReadsAll (first >>= second) (front ++ back) result := by
  intro cursor hcursor
  obtain ⟨middle, hmiddle, hleft⟩ := hfirst cursor back hcursor
  obtain ⟨next, hnext, hrest⟩ := hsecond middle hleft
  exact ⟨next, by rw [bind_of_ok hmiddle, hnext], hrest⟩

theorem Reads.nil_bind {first : Reader α} {second : α → Reader β} {bytes : List UInt8}
    {value : α} {result : β} (hfirst : Reads first [] value)
    (hsecond : Reads (second value) bytes result) :
    Reads (first >>= second) bytes result :=
  hfirst.bind hsecond

theorem Reads.bind_nil {first : Reader α} {second : α → Reader β} {bytes : List UInt8}
    {value : α} {result : β} (hfirst : Reads first bytes value)
    (hsecond : Reads (second value) [] result) :
    Reads (first >>= second) bytes result := by
  have hbind := hfirst.bind hsecond
  rwa [List.append_nil] at hbind

theorem Reads.bind_pure {reader : Reader α} {bytes : List UInt8} {value : α}
    (hreads : Reads reader bytes value) (result : α → β) :
    Reads (reader >>= fun found => pure (result found)) bytes (result value) :=
  hreads.bind_nil (reads_pure (result value))

theorem ReadsAll.bind_pure {reader : Reader α} {bytes : List UInt8} {value : α}
    (hreads : ReadsAll reader bytes value) (result : α → β) :
    ReadsAll (reader >>= fun found => pure (result found)) bytes (result value) := by
  intro cursor hcursor
  obtain ⟨next, hnext, hrest⟩ := hreads cursor hcursor
  exact ⟨next, by rw [bind_of_ok hnext]; rfl, hrest⟩

theorem Reads.under {reader : Reader α} {bytes : List UInt8} {value : α}
    (hreads : Reads reader bytes value) (fault : Fault) :
    Reads (reader.under fault) bytes value := by
  intro cursor rest hcursor
  obtain ⟨next, hnext, hrest⟩ := hreads cursor rest hcursor
  exact ⟨next, by simp only [Reader.under, hnext], hrest⟩

theorem reads_ofExcept {result : Except ReadError α} {value : α} (hresult : result = .ok value) :
    Reads (ofExcept result) [] value := by
  intro cursor rest hcursor
  exact ⟨cursor, by simp only [ofExcept, hresult], hcursor⟩

/-! ## Single fields -/

theorem reads_bytes (field : List UInt8) :
    Reads (bytes field.length) field field.toByteArray := by
  intro cursor rest hcursor
  have hlength : field.length ≤ cursor.remaining := by
    rw [← cursor.length_unread, hcursor, List.length_append]
    omega
  refine ⟨cursor.advance field.length hlength, ?_, ?_⟩
  · have hahead : cursor.ahead field.length = field.toByteArray := by
      apply eq_of_toList_eq
      rw [Cursor.ahead_eq_take_unread, hcursor]
      simp
    simp only [bytes, hlength, dif_pos, hahead]
  · rw [Cursor.unread_advance, hcursor, List.drop_left]

/-- Of a number that is too large for its width the lower bytes are read back. -/
theorem reads_littleEndian_mod (width value : Nat) :
    Reads (littleEndian width) (Bytes.toLittleEndian width value)
      (value % Bytes.limit width) := by
  intro cursor rest hcursor
  have hlength : width ≤ cursor.remaining := by
    rw [← cursor.length_unread, hcursor, List.length_append, Bytes.length_toLittleEndian]
    omega
  have htake : cursor.unread.take width = Bytes.toLittleEndian width value := by
    rw [hcursor]
    exact List.take_left' (Bytes.length_toLittleEndian width value)
  refine ⟨cursor.advance width hlength, ?_, ?_⟩
  · simp only [littleEndian, hlength, dif_pos, Cursor.ahead_eq_take_unread, htake,
      Bytes.ofLittleEndian_toLittleEndian]
  · rw [Cursor.unread_advance, hcursor]
    exact List.drop_left' (Bytes.length_toLittleEndian width value)

theorem reads_littleEndian {width value : Nat} (hvalue : value < Bytes.limit width) :
    Reads (littleEndian width) (Bytes.toLittleEndian width value) value := by
  have hreads := reads_littleEndian_mod width value
  rwa [Nat.mod_eq_of_lt hvalue] at hreads

theorem reads_byte {value : Nat} (hvalue : value < 256) :
    Reads u8 [UInt8.ofNat value] value := by
  have hreads : Reads (littleEndian 1) (Bytes.toLittleEndian 1 value) value :=
    reads_littleEndian (by simpa only [Bytes.limit] using hvalue)
  simp only [Bytes.toLittleEndian, Nat.mod_eq_of_lt hvalue] at hreads
  exact hreads

theorem reads_selfDelimited {decode : List UInt8 → Option (α × Nat)} {fault : Fault}
    {field : List UInt8} {value : α} (hfield : field.length ≤ 4)
    (hdecode : ∀ rest, decode (field ++ rest) = some (value, field.length)) :
    Reads (selfDelimited decode fault) field value := by
  intro cursor rest hcursor
  have hlength : field.length ≤ cursor.remaining := by
    rw [← cursor.length_unread, hcursor, List.length_append]
    omega
  have htake : cursor.unread.take 4 = field ++ rest.take (4 - field.length) := by
    rw [hcursor, List.take_append, List.take_of_length_le hfield]
  refine ⟨cursor.advance field.length hlength, ?_, ?_⟩
  · simp only [selfDelimited, Cursor.ahead_eq_take_unread, htake, hdecode, hlength, dif_pos]
  · rw [Cursor.unread_advance, hcursor, List.drop_left]

theorem exists_reads_compressedUnsigned {value : Nat} (hvalue : value < 0x20000000) :
    ∃ field, Bytes.Compressed.encodeUnsigned value = .ok field ∧ field ≠ [] ∧
      Reads compressedUnsigned field value := by
  obtain ⟨field, hencode, hnonempty, hlength, hdecode⟩ :=
    Bytes.Compressed.exists_encodeUnsigned hvalue
  exact ⟨field, hencode, hnonempty, reads_selfDelimited hlength hdecode⟩

theorem exists_reads_compressedSigned {value : Int} (hlow : -0x10000000 ≤ value)
    (hhigh : value < 0x10000000) :
    ∃ field, Bytes.Compressed.encodeSigned value = .ok field ∧
      Reads compressedSigned field value := by
  obtain ⟨field, hencode, -, hlength, hdecode⟩ :=
    Bytes.Compressed.exists_encodeSigned hlow hhigh
  exact ⟨field, hencode, reads_selfDelimited hlength hdecode⟩

/-! ## Repetition -/

theorem readsAll_untilEnd_nil (step : α → Reader α) (state : α) :
    ReadsAll (untilEnd step state) [] state := by
  intro cursor hcursor
  refine ⟨cursor, ?_, hcursor⟩
  rw [untilEnd, if_pos (cursor.atEnd_iff.2 hcursor)]

theorem readsAll_untilEnd_cons {step : α → Reader α} {state next result : α}
    {record rest : List UInt8} (hrecord : record ≠ []) (hstep : Reads (step state) record next)
    (hrest : ReadsAll (untilEnd step next) rest result) :
    ReadsAll (untilEnd step state) (record ++ rest) result := by
  intro cursor hcursor
  obtain ⟨after, hafter, hleft⟩ := hstep cursor rest hcursor
  obtain ⟨last, hlast, hend⟩ := hrest after hleft
  refine ⟨last, ?_, hend⟩
  have hpending : ¬cursor.atEnd = true := by
    rw [cursor.atEnd_iff, hcursor]
    simp [hrecord]
  have hprogress : after.remaining < cursor.remaining := by
    have hpos := List.length_pos_iff.2 hrecord
    rw [← after.length_unread, ← cursor.length_unread, hleft, hcursor, List.length_append]
    omega
  rw [untilEnd, if_neg hpending]
  simp only [hafter, if_pos hprogress, hlast]

theorem reads_replicate_map {reader : Reader α} {write : β → List UInt8} {answer : β → α}
    {values : List β} (hvalues : ∀ value ∈ values, Reads reader (write value) (answer value))
    (found : Array α) :
    Reads (replicate reader values.length found) (values.flatMap write)
      (found ++ (values.map answer).toArray) := by
  induction values generalizing found with
  | nil => simpa [replicate] using reads_pure found
  | cons value values ih =>
      have hhead := hvalues value List.mem_cons_self
      have htail := ih (fun other hother => hvalues other (List.mem_cons_of_mem value hother))
      have hpush : found ++ ((value :: values).map answer).toArray =
          found.push (answer value) ++ (values.map answer).toArray := by
        simp
      rw [hpush]
      exact hhead.bind (htail (found.push (answer value)))

theorem reads_replicate {reader : Reader α} {write : α → List UInt8} {values : List α}
    (hvalues : ∀ value ∈ values, Reads reader (write value) value) (found : Array α) :
    Reads (replicate reader values.length found) (values.flatMap write)
      (found ++ values.toArray) := by
  have hreads := reads_replicate_map hvalues found
  rwa [List.map_id'] at hreads

end Reader

end PortablePdb
