import PortablePdb.Proofs.Heaps
import PortablePdb.Proofs.Machine.Programs

/-!
# Heaps in the machine

The machine slices a heap behind the place that it is asked for, and reads from the slice.  That is
what reading from the heap itself does, because a reader only sees its window.  The place of an
identifier is sixteen times its number, which leaves 64 bits room for every number of 32.
-/

namespace PortablePdb

namespace Reader

variable {α β : Type}

theorem run_eq_outcome (reader : Reader α) (cursor : Cursor) :
    reader.run cursor = (reader.outcome cursor).1 := by
  rw [run, outcome, EStateM.run]
  cases reader cursor <;> rfl

theorem run_under (reader : Reader α) (fault : Fault) (cursor : Cursor) :
    (reader.under fault).run cursor =
      (reader.run cursor).mapError fun error => error.under fault := by
  rw [run, run, EStateM.run, EStateM.run, under]
  cases reader cursor <;> rfl

theorem under_bind (first : Reader α) (second : α → Reader β) (fault : Fault) :
    (first >>= second).under fault =
      first.under fault >>= fun value => (second value).under fault := by
  funext cursor
  simp only [under, bind, EStateM.bind]
  cases first cursor <;> rfl

/-- Readers that see only their windows read alike one after the other. -/
theorem Confined.run_bind {first : Reader α} {second : α → Reader β} (hfirst : first.Confined)
    (hsecond : ∀ value, (second value).Confined) {cursor other : Cursor}
    (hsame : cursor.SameWindow other) :
    (first >>= second).run cursor = (first >>= second).run other := by
  obtain ⟨hvalue, hnext⟩ := hfirst.alike cursor other hsame
  rw [run_eq_outcome, run_eq_outcome, outcome_bind, outcome_bind]
  cases hread : first cursor with
  | ok value next =>
      cases hread' : first other with
      | ok value' next' =>
          rw [outcome_of_ok hread, outcome_of_ok hread'] at hvalue hnext
          cases hvalue
          exact ((hsecond value).alike next next' hnext).1
      | error error next' =>
          rw [outcome_of_ok hread, outcome_of_error hread'] at hvalue
          cases hvalue
  | error error next =>
      cases hread' : first other with
      | ok value' next' =>
          rw [outcome_of_error hread, outcome_of_ok hread'] at hvalue
          cases hvalue
      | error error' next' =>
          rw [outcome_of_error hread, outcome_of_error hread'] at hvalue
          cases hvalue
          rfl

end Reader

theorem slice?_of_le {buffer : ByteArray} {start stop : Nat} (hstart : start ≤ stop)
    (hstop : stop ≤ buffer.size) :
    WordReader.slice? buffer start stop = some (buffer.extract start stop) :=
  if_pos ⟨hstart, hstop⟩

/-! ## Blobs -/

/-- The bytes behind their length. -/
def WordReader.blob : WordReader ByteArray := do
  let length ← compressedUnsigned.under .invalidBlobData
  (bytes length).under .invalidBlobData

namespace Guarded

open WordReader

def blobAt (heap : ByteArray) (offset : Nat) : Guarded ByteArray :=
  if offset = 0 then pure ByteArray.empty
  else if heap.size ≤ offset then throw ⟨.invalidBlobOffset, []⟩
  else do
    let rest ← certain (slice? heap offset heap.size)
    run blob rest

def blobReader : Reader ByteArray := do
  Reader.bytes (← Reader.compressedUnsigned)

theorem follows_blob : Follows blob (blobReader.under .invalidBlobData) := by
  rw [blobReader, Reader.under_bind]
  exact (follows_compressedUnsigned.under _).bind fun length _ => (follows_bytes length).under _

theorem sameWindow_slice {heap : ByteArray} {offset : Nat} {cursor : Cursor}
    (hcursor : (Cursor.ofBytes heap).window offset (heap.size - offset) = .ok cursor) :
    cursor.SameWindow (Cursor.ofBytes (heap.extract offset heap.size)) := by
  unfold Cursor.window at hcursor
  split at hcursor
  case isTrue hinside =>
      cases hcursor
      simp only [Cursor.ofBytes, Nat.zero_add] at hinside
      have hend : offset + (heap.size - offset) = heap.size := by omega
      constructor
      · simp only [Cursor.bytes, Cursor.ofBytes, Nat.zero_add, hend, ByteArray.extract_zero_size]
      · simp only [Cursor.offset, Cursor.ofBytes, Nat.sub_self]
  case isFalse => cases hcursor

theorem gives_blobAt {heap : ByteArray} (hsize : heap.size < Word.limit) (offset : Nat) :
    Gives (blobAt heap offset) (PortablePdb.blobAt heap offset) := by
  rw [blobAt, PortablePdb.blobAt]
  by_cases hzero : offset = 0
  · rw [if_pos hzero, if_pos hzero]
    rfl
  by_cases hbehind : heap.size ≤ offset
  · rw [if_neg hzero, if_neg hzero, if_pos hbehind, if_pos hbehind]
    rfl
  rw [if_neg hzero, if_neg hzero, if_neg hbehind, if_neg hbehind,
    slice?_of_le (Nat.le_of_not_le hbehind) (Nat.le_refl _), bind_certain]
  -- The model reads from a window of the heap, which shows what the slice shows.
  obtain ⟨cursor, hcursor, -⟩ :=
    @Cursor.exists_window (Cursor.ofBytes heap) offset (heap.size - offset)
      (by simp only [Cursor.ofBytes]; omega)
  have hrest : (heap.extract offset heap.size).size < Word.limit := by
    rw [ByteArray.size_extract]
    omega
  have hrun : blobReader.run cursor =
      blobReader.run (Cursor.ofBytes (heap.extract offset heap.size)) :=
    (Reader.selfDelimited_takes _ _).confined.run_bind
      (fun length => (Reader.bytes_takes length).confined) (sameWindow_slice hcursor)
  have hgives := follows_blob.run hrest
  rw [Reader.run_under, ← hrun, ← Reader.run_under] at hgives
  rw [hcursor]
  exact hgives

/-! ## Strings -/

def stringAt (heap : ByteArray) (offset : Nat) : Guarded String :=
  if offset = 0 ∧ heap.size = 0 then pure ""
  else do
    let found := (slice? heap offset heap.size).filter fun bytes => bytes.size ≠ 0
    let rest ← checked .invalidStringOffset found
    let length ← checked .invalidStringData (rest.data.toList.findIdx? (· == 0))
    let text ← certain (slice? rest 0 length)
    ofExcept ((Text.decodeUtf8 text).mapError (.ofUtf8 .invalidStringData))

theorem nulPosition_eq_findIdx? (heap : ByteArray) (offset length : Nat) :
    nulPosition heap offset length =
      (((heap.data.toList.drop offset).take length).findIdx? (· == 0)).map (offset + ·) := by
  -- Induction on how many bytes may be looked at.  Behind the heap there are none, and no zero.
  induction length generalizing offset with
  | zero => rfl
  | succ length ih =>
      cases hdrop : heap.data.toList.drop offset with
      | nil =>
          have hnone : heap[offset]? = none := by
            have hlength := List.drop_eq_nil_iff.1 hdrop
            rw [Array.length_toList, ByteArray.size_data] at hlength
            exact getElem?_neg heap offset (Nat.not_lt.2 hlength)
          have hnext : heap.data.toList.drop (offset + 1) = [] := by
            rw [← List.drop_drop, hdrop]
            rfl
          rw [nulPosition, hnone, if_neg (by simp), ih, hnext]
          simp
      | cons byte rest =>
          have hnext : heap.data.toList.drop (offset + 1) = rest := by
            rw [← List.drop_drop, hdrop]
            rfl
          rw [nulPosition, getElem?_of_drop_eq hdrop, List.take_succ_cons, List.findIdx?_cons]
          by_cases hbyte : byte = 0
          · simp [hbyte]
          · rw [if_neg (by simpa using hbyte), ih, hnext, if_neg (by simpa using hbyte),
              Option.map_map]
            refine Option.map_congr fun place _ => ?_
            rw [Function.comp_apply]
            omega

theorem gives_stringAt (heap : ByteArray) (offset : Nat) :
    Gives (stringAt heap offset) (PortablePdb.stringAt heap offset) := by
  rw [stringAt, PortablePdb.stringAt]
  by_cases hempty : offset = 0 ∧ heap.size = 0
  · rw [if_pos hempty, if_pos hempty]
    rfl
  rw [if_neg hempty, if_neg hempty]
  by_cases hbehind : heap.size ≤ offset
  · -- At the end of the heap the slice is in range and empty, behind it there is no slice.
    have hnone : ((slice? heap offset heap.size).filter fun bytes => bytes.size ≠ 0) = none := by
      rw [Option.filter_eq_none_iff]
      intro bytes hbytes
      unfold slice? at hbytes
      split at hbytes
      · cases hbytes
        simp only [ByteArray.size_extract]
        simp
        omega
      · cases hbytes
    simp only [hnone, if_pos hbehind]
    rfl
  · have hle : offset ≤ heap.size := Nat.le_of_not_le hbehind
    have hsizeRest : (heap.extract offset heap.size).size = heap.size - offset := by
      rw [ByteArray.size_extract, Nat.min_self]
    have hfound : ((slice? heap offset heap.size).filter fun bytes => bytes.size ≠ 0) =
        some (heap.extract offset heap.size) := by
      rw [slice?_of_le hle (Nat.le_refl _)]
      exact Option.filter_some_pos (decide_eq_true (by omega))
    have htoList : (heap.extract offset heap.size).data.toList =
        (heap.data.toList.drop offset).take (heap.size - offset) := by
      rw [ByteArray.data_extract, Array.toList_extract, List.extract_eq_take_drop]
    rw [if_neg hbehind, nulPosition_eq_findIdx?, ← htoList]
    dsimp only
    rw [hfound, bind_checked]
    cases hplace : (heap.extract offset heap.size).data.toList.findIdx? (· == 0) with
    | none => exact gives_throw _
    | some length =>
        have hlength : length < (heap.extract offset heap.size).size := by
          obtain ⟨hlength, -⟩ := List.findIdx?_eq_some_iff_getElem.1 hplace
          rwa [Array.length_toList, ByteArray.size_data] at hlength
        have htext : slice? (heap.extract offset heap.size) 0 length =
            some (heap.extract offset (offset + length)) := by
          rw [slice?_of_le (Nat.zero_le _) (Nat.le_of_lt hlength), ByteArray.extract_extract,
            Nat.add_zero, Nat.min_eq_left (by omega)]
        rw [bind_checked, htext, bind_certain]
        exact gives_ofExcept _

/-! ## Identifiers -/

def guidAt (heap : ByteArray) (index : Nat) : Guarded Guid :=
  match Word.sub? index 1 with
  | none => pure Guid.nil
  | some place => do
      let start ← certain (Word.mul? place 16)
      let stop ← certain (Word.add? start 16)
      let bytes ← checked .invalidGuidIndex (slice? heap start stop)
      checked .invalidGuidIndex
        (if bytes.size = 16 then some (Guid.ofBytes bytes.data.toList) else none)

theorem gives_guidAt {index : Nat} (hindex : index < 0x100000000) (heap : ByteArray) :
    Gives (guidAt heap index) (PortablePdb.guidAt heap index) := by
  cases index with
  | zero => rfl
  | succ place =>
      have hsub : Word.sub? (place + 1) 1 = some place := Word.sub?_of_le (Nat.le_add_left 1 place)
      have hmul : Word.mul? place 16 = some (place * 16) :=
        if_pos (by simp only [Word.limit]; omega)
      have hadd : Word.add? (place * 16) 16 = some (place * 16 + 16) :=
        Word.add?_of_lt (by simp only [Word.limit]; omega)
      have hstart : 16 * (place + 1 - 1) = place * 16 := by omega
      have hstop : 16 * (place + 1) = place * 16 + 16 := by omega
      rw [guidAt, hsub, PortablePdb.guidAt, if_neg (Nat.succ_ne_zero place), hstart, hstop]
      dsimp only
      rw [hmul, bind_certain, hadd, bind_certain]
      by_cases hinside : place * 16 + 16 ≤ heap.size
      · have hsize : (heap.extract (place * 16) (place * 16 + 16)).size = 16 := by
          rw [ByteArray.size_extract]
          omega
        rw [if_pos hinside, slice?_of_le (Nat.le_add_right _ _) hinside]
        change Gives (checked _ (if _ then _ else _)) _
        rw [if_pos hsize]
        rfl
      · rw [if_neg hinside, slice?, if_neg (fun hboth => hinside hboth.2)]
        rfl

end Guarded

end PortablePdb
