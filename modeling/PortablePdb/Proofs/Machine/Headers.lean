import PortablePdb.Proofs.Machine.Programs
import PortablePdb.Proofs.SymbolFile.Declared

/-!
# Headers in the machine

The name of a stream is looked for in a cursor of its own over at most 32 of the bytes that are
left.  What follows it is skipped by a count that a sum, a mask and a difference give.  Where a
stream lies is kept as a start and an end, which are below the 64 bits because both parts have 32,
and in the file because that is checked before they are kept.
-/

namespace PortablePdb

namespace WordReader

/-! ## The root header -/

def rootHeader : WordReader RootHeader := do
  if (← littleEndian 4) ≠ RootHeader.signature then fail .invalidSignature
  let major ← littleEndian 2
  let minor ← littleEndian 2
  if (major, minor) ≠ (RootHeader.majorVersion, RootHeader.minorVersion) then
    fail (.unsupportedVersion major minor)
  if (← littleEndian 4) ≠ 0 then fail .invalidReserved
  let length ← littleEndian 4
  let text ← bytes length
  let version ← ofExcept <|
    (Text.decodeUtf8 (RootHeader.untilNul text)).mapError (.ofUtf8 .invalidVersionString)
  let flags ← littleEndian 2
  let streamCount ← littleEndian 2
  return { version, flags, streamCount }

theorem follows_rootHeader : Follows rootHeader RootHeader.read := by
  refine (follows_littleEndian 4).bind fun signature _ => follows_failIf _ _ fun _ => ?_
  refine (follows_littleEndian 2).bind fun major _ => ?_
  refine (follows_littleEndian 2).bind fun minor _ => follows_failIf _ _ fun _ => ?_
  refine (follows_littleEndian 4).bind fun reserved _ => follows_failIf _ _ fun _ => ?_
  refine (follows_littleEndian 4).bind fun length _ => (follows_bytes length).bind fun text _ => ?_
  refine (follows_ofExcept _).bind fun version _ => (follows_littleEndian 2).bind fun flags _ => ?_
  exact (follows_littleEndian 2).bind fun streamCount _ => follows_pure _

/-! ## Stream headers -/

/-- Clears the two low bits after adding three. -/
def align4? (length : Nat) : Option Nat :=
  (Word.add? length 3).map fun sum => sum &&& 0xFFFFFFFFFFFFFFFC

theorem and_mask_eq {sum : Nat} (hsum : sum < Word.limit) :
    sum &&& 0xFFFFFFFFFFFFFFFC = sum / 4 * 4 := by
  have hmask : 0xFFFFFFFFFFFFFFFC = (2 ^ 62 - 1) <<< 2 := by decide
  have hround : sum / 4 * 4 = (sum >>> 2) <<< 2 := by
    rw [Nat.shiftLeft_eq, Nat.shiftRight_eq_div_pow]
  rw [hmask, hround]
  refine Nat.eq_of_testBit_eq fun bit => ?_
  rw [Nat.testBit_and, Nat.testBit_shiftLeft, Nat.testBit_shiftLeft, Nat.testBit_shiftRight,
    Nat.testBit_two_pow_sub_one]
  by_cases hlow : 2 ≤ bit
  · have hbit : 2 + (bit - 2) = bit := by omega
    by_cases hhigh : bit < 64
    · simp [hlow, hbit, show bit - 2 < 62 by omega]
    · have hzero : sum.testBit bit = false :=
        Nat.testBit_lt_two_pow (Nat.lt_of_lt_of_le hsum
          (show 2 ^ 64 ≤ 2 ^ bit from
            Nat.pow_le_pow_right (by decide) (Nat.le_of_not_lt hhigh)))
      simp [hbit, hzero]
  · simp [hlow]

theorem align4?_eq {length : Nat} (hlength : length + 3 < Word.limit) :
    align4? length = some (align4 length) := by
  rw [align4?, Word.add?_of_lt hlength, Option.map_some, and_mask_eq hlength, align4]

def nameLength : WordReader Nat := do
  let cursor ← look
  let remaining ← certain (Word.sub? cursor.stop cursor.position)
  let offset ← certain (Word.sub? cursor.position cursor.start)
  let window ← ofExcept (cursor.window offset (min remaining StreamHeader.maxNameSize))
  let text ← lift ((rest window).map Prod.fst)
  checked .invalidStreamName (text.data.toList.findIdx? (· == 0))

/-- The machine's window over the next bytes shows them. -/
theorem exists_window_ahead (cursor : Cursor) (count : Nat) :
    ∃ opened, cursor.window cursor.offset (min cursor.remaining count) = .ok opened ∧
      opened.buffer = cursor.buffer ∧ opened.ahead opened.remaining = cursor.ahead count := by
  have hstart := cursor.start_le_position
  have hposition := cursor.position_le_stop
  have hoffset : cursor.start + cursor.offset = cursor.position := by
    rw [Cursor.offset]
    omega
  have hinside : cursor.start + cursor.offset + min cursor.remaining count ≤ cursor.stop := by
    rw [hoffset, Cursor.remaining]
    omega
  refine ⟨_, dif_pos hinside, rfl, ?_⟩
  simp only [Cursor.ahead, Cursor.remaining, hoffset]
  congr 1
  omega

theorem follows_nameLength : Follows nameLength StreamHeader.nameLength where
  implements cursor hsize := by
    have hremaining : Word.sub? cursor.words.stop cursor.words.position = some cursor.remaining :=
      Word.sub?_of_le cursor.position_le_stop
    have hoffset : Word.sub? cursor.words.position cursor.words.start = some cursor.offset :=
      Word.sub?_of_le cursor.start_le_position
    obtain ⟨opened, hopened, hbuffer, hahead⟩ :=
      exists_window_ahead cursor StreamHeader.maxNameSize
    have hwindow : ofExcept (cursor.words.window cursor.offset
        (min cursor.remaining StreamHeader.maxNameSize)) cursor.words =
        some (.ok opened.words, cursor.words) := by
      rw [Cursor.window_words hsize, hopened]
      rfl
    have htext : lift ((rest opened.words).map Prod.fst) cursor.words =
        some (.ok (cursor.ahead StreamHeader.maxNameSize), cursor.words) := by
      rw [implements_rest opened (hbuffer ▸ hsize), ← hahead]
      rfl
    simp only [nameLength, bind_apply, look_apply, hremaining, hoffset, certain_some_apply,
      hwindow, htext]
    rw [Reader.outcome, StreamHeader.nameLength]
    cases (cursor.ahead StreamHeader.maxNameSize).data.toList.findIdx? (· == 0) <;> rfl
  behind cursor := by
    rw [Reader.outcome, StreamHeader.nameLength]
    cases (cursor.ahead StreamHeader.maxNameSize).data.toList.findIdx? (· == 0) <;>
      exact ⟨rfl, Nat.le_refl _⟩

def streamHeader : WordReader StreamHeader := do
  let offset ← littleEndian 4
  let size ← littleEndian 4
  let length ← nameLength
  let text ← bytes length
  let name ← ofExcept <| (Text.decodeUtf8 text).mapError (.ofUtf8 .invalidStreamName)
  let behind ← certain (Word.add? length 1)
  let padded ← certain (align4? behind)
  let count ← certain (Word.sub? padded length)
  let _ ← (bytes count).under .invalidStreamHeader
  return { offset, size, name }

theorem length_lt_of_nameLength {length : Nat} (hlength : StreamHeader.nameLength.Yields length) :
    length < StreamHeader.maxNameSize := by
  obtain ⟨cursor, next, hread⟩ := hlength
  obtain ⟨hplace, -⟩ :=
    List.findIdx?_eq_some_iff_getElem.1 (StreamHeader.nameLength_eq_ok_iff.1 hread).1
  exact Nat.lt_of_lt_of_le hplace (List.length_take_le _ _)

theorem follows_streamHeader : Follows streamHeader StreamHeader.read := by
  refine (follows_littleEndian 4).bind fun offset _ => ?_
  refine (follows_littleEndian 4).bind fun size _ => ?_
  refine follows_nameLength.bind fun length hlength => (follows_bytes length).bind fun text _ => ?_
  refine (follows_ofExcept _).bind fun name _ => ?_
  have hshort : length < 32 := length_lt_of_nameLength hlength
  have hbehind : Word.add? length 1 = some (length + 1) :=
    Word.add?_of_lt (by simp only [Word.limit]; omega)
  have hpadded : align4? (length + 1) = some (align4 (length + 1)) :=
    align4?_eq (by simp only [Word.limit]; omega)
  have hcount : Word.sub? (align4 (length + 1)) length = some (align4 (length + 1) - length) :=
    Word.sub?_of_le (Nat.le_of_succ_le (le_align4 (length + 1)))
  rw [hbehind]
  refine follows_certain_bind ?_
  rw [hpadded]
  refine follows_certain_bind ?_
  rw [hcount]
  exact follows_certain_bind (((follows_bytes _).under _).bind fun _ _ => follows_pure _)

end WordReader

/-! ## Known streams -/

/-- The headers so far, and where the last stream of each kind starts and ends. -/
structure StreamTable where
  headers : List StreamHeader
  ranges : StreamKind → Option (Nat × Nat)

namespace StreamTable

/-- Where the last stream of a kind starts and ends. -/
def rangeIn (headers : List StreamHeader) (kind : StreamKind) : Option (Nat × Nat) :=
  (headers.reverse.find? fun header => header.name == kind.name).map fun header =>
    (header.offset, header.stop)

def ofHeaders (headers : List StreamHeader) : StreamTable :=
  ⟨headers, rangeIn headers⟩

def add (fileSize : Nat) (table : StreamTable) (header : StreamHeader) : Guarded StreamTable := do
  let stop ← Guarded.checked .invalidStreamHeader (Word.add? header.offset header.size)
  if fileSize < stop then throw ⟨.invalidLength, []⟩
  let kind ← Guarded.checked .unknownStream (StreamKind.ofName? header.name)
  return {
    headers := table.headers ++ [header]
    ranges := fun other => if kind = other then some (header.offset, stop) else table.ranges other }

theorem name_eq_iff {kind other : StreamKind} : kind.name = other.name ↔ kind = other := by
  cases kind <;> cases other <;> decide

theorem name_of_ofName? {name : String} {kind : StreamKind}
    (hkind : StreamKind.ofName? name = some kind) : name = kind.name := by
  unfold StreamKind.ofName? at hkind
  have hsame := List.find?_some hkind
  exact (beq_iff_eq.1 hsame).symm

theorem rangeIn_append {headers : List StreamHeader} {header : StreamHeader} {kind : StreamKind}
    (hkind : StreamKind.ofName? header.name = some kind) :
    rangeIn (headers ++ [header]) = fun other =>
      if kind = other then some (header.offset, header.stop) else rangeIn headers other := by
  funext other
  -- The last header of a kind is the one that counts, and this is the last of all.
  rw [rangeIn, List.reverse_append, List.reverse_singleton, List.singleton_append,
    List.find?_cons, name_of_ofName? hkind]
  by_cases hsame : kind = other
  · rw [if_pos hsame, beq_iff_eq.2 (congrArg StreamKind.name hsame)]
    rfl
  · rw [if_neg hsame, beq_eq_false_iff_ne.2 (mt name_eq_iff.1 hsame)]
    rfl

/-- What the model checks of a header that has been read. -/
def known (fileSize : Nat) (header : StreamHeader) : Except ReadError StreamHeader :=
  if fileSize < header.stop then .error ⟨.invalidLength, []⟩
  else if (StreamKind.ofName? header.name).isNone then .error ⟨.unknownStream, []⟩
  else .ok header

theorem readKnownStream_eq (fileSize : Nat) :
    readKnownStream fileSize =
      StreamHeader.read >>= fun header => Reader.ofExcept (known fileSize header) := by
  unfold readKnownStream
  congr 1
  funext header
  unfold known
  by_cases hstop : fileSize < header.stop
  · rw [if_pos hstop, if_pos hstop]
    rfl
  by_cases hkind : (StreamKind.ofName? header.name).isNone
  · rw [if_neg hstop, if_neg hstop, if_pos hkind, if_pos hkind]
    rfl
  · rw [if_neg hstop, if_neg hstop, if_neg hkind, if_neg hkind]
    rfl

theorem gives_add {header : StreamHeader} (hstop : header.stop < Word.limit) (fileSize : Nat)
    (headers : List StreamHeader) :
    ((ofHeaders headers).add fileSize header).Gives
      ((known fileSize header).map fun header => ofHeaders (headers ++ [header])) := by
  rw [add, Word.add?_of_lt hstop, Guarded.bind_checked, known]
  by_cases hfits : fileSize < header.stop
  · rw [if_pos hfits]
    change (if fileSize < header.stop then _ else _) = _
    rw [if_pos hfits]
    rfl
  · rw [if_neg hfits]
    change (if fileSize < header.stop then _ else _) = _
    rw [if_neg hfits]
    cases hkind : StreamKind.ofName? header.name with
    | none => rfl
    | some kind =>
        rw [ofHeaders, Guarded.bind_checked, Option.isNone_some, if_neg Bool.false_ne_true,
          ← StreamHeader.stop]
        change _ = ExceptT.mk (some (Except.ok (ofHeaders (headers ++ [header]))))
        rw [ofHeaders, rangeIn_append hkind]
        rfl

end StreamTable

theorem lt_of_littleEndian {width value : Nat} (hvalue : (Reader.littleEndian width).Yields value) :
    value < Bytes.limit width := by
  obtain ⟨cursor, next, hread⟩ := hvalue
  unfold Reader.littleEndian at hread
  split at hread
  case isTrue hwidth =>
      cases hread
      have hlt := Bytes.ofLittleEndian_lt (cursor.ahead width).data.toList
      rwa [Array.length_toList, ByteArray.size_data, cursor.size_ahead, Nat.min_eq_left hwidth]
        at hlt
  case isFalse => cases hread

theorem stop_lt_of_read {header : StreamHeader} (hheader : StreamHeader.read.Yields header) :
    header.stop < Word.limit := by
  obtain ⟨cursor, next, hread⟩ := hheader
  rw [StreamHeader.read_eq] at hread
  obtain ⟨offset, afterOffset, hoffset, hread⟩ := Reader.bind_eq_ok hread
  obtain ⟨size, afterSize, hsize, hread⟩ := Reader.bind_eq_ok hread
  obtain ⟨length, afterLength, -, hread⟩ := Reader.bind_eq_ok hread
  obtain ⟨name, afterName, -, hread⟩ := Reader.bind_eq_ok hread
  obtain ⟨rfl, -⟩ := Reader.pure_eq_ok hread
  have hoffsetLt : offset < 0x100000000 := lt_of_littleEndian ⟨_, _, hoffset⟩
  have hsizeLt : size < 0x100000000 := lt_of_littleEndian ⟨_, _, hsize⟩
  simp only [StreamHeader.stop, Word.limit]
  omega

namespace WordReader

def knownStream (fileSize : Nat) (table : StreamTable) : WordReader StreamTable := do
  let header ← streamHeader
  lift (table.add fileSize header)

theorem follows_knownStream (fileSize : Nat) (headers : List StreamHeader) :
    Follows (knownStream fileSize (.ofHeaders headers))
      ((fun header => StreamTable.ofHeaders (headers ++ [header])) <$>
        readKnownStream fileSize) := by
  rw [StreamTable.readKnownStream_eq, map_bind]
  refine follows_streamHeader.bind fun header hheader => ?_
  have hadd := follows_lift (StreamTable.gives_add (stop_lt_of_read hheader) fileSize headers)
  cases hknown : StreamTable.known fileSize header <;> rw [hknown] at hadd <;> exact hadd

def fileHeaders (fileSize : Nat) : WordReader (RootHeader × StreamTable) := do
  let root ← rootHeader
  let streams ← repeated (knownStream fileSize) root.streamCount (.ofHeaders [])
  return (root, streams)

theorem follows_fileHeaders (fileSize : Nat) :
    Follows (fileHeaders fileSize)
      ((fun (root, headers) => (root, StreamTable.ofHeaders headers)) <$>
        SymbolFile.readHeaders fileSize) := by
  rw [SymbolFile.readHeaders, map_bind]
  refine follows_rootHeader.bind fun root _ => ?_
  have hstep (found : Array StreamHeader) :
      Follows (knownStream fileSize (.ofHeaders found.toList))
        ((fun header => StreamTable.ofHeaders (found.push header).toList) <$>
          readKnownStream fileSize) := by
    simpa only [Array.toList_push] using follows_knownStream fileSize found.toList
  rw [map_bind]
  exact (Follows.repeated hstep root.streamCount #[]).bind_map fun streams _ => follows_pure _

/-! ## Row counts -/

def shiftRight? (number count : Nat) : Option Nat :=
  if count < 64 then some (number >>> count) else none

def rowCountsFrom (present : Nat) : (first tables : Nat) → (found : Array Nat) →
    WordReader (Array Nat)
  | _, 0, found => pure found
  | first, tables + 1, found => do
      let flags ← certain (shiftRight? present first)
      let count ← if flags &&& 1 ≠ 0 then littleEndian 4 else pure 0
      rowCountsFrom present (first + 1) tables (found.push count)

theorem shiftRight_and_one (present first : Nat) :
    present >>> first &&& 1 ≠ 0 ↔ present.testBit first = true := by
  rw [Nat.testBit, Nat.and_comm, bne_iff_ne]

theorem follows_rowCountsFrom {present first tables : Nat} (htables : first + tables ≤ 64)
    (found : Array Nat) :
    Follows (rowCountsFrom present first tables found)
      (RowCounts.readFrom present first tables found) := by
  induction tables generalizing first found with
  | zero => exact follows_pure found
  | succ tables ih =>
      -- A table is left, so its number is one that the bits of the set can be shifted by.
      have hflags : shiftRight? present first = some (present >>> first) := if_pos (by omega)
      rw [rowCountsFrom, hflags, RowCounts.readFrom]
      have hrest : first + 1 + tables ≤ 64 := by omega
      refine follows_certain_bind ?_
      by_cases hpresent : present.testBit first = true
      · rw [if_pos hpresent]
        change Follows (if present >>> first &&& 1 ≠ 0 then _ else _) _
        rw [if_pos ((shiftRight_and_one present first).2 hpresent)]
        exact (follows_littleEndian 4).bind fun count _ => ih hrest (found.push count)
      · rw [if_neg hpresent]
        change Follows (if present >>> first &&& 1 ≠ 0 then _ else _) _
        rw [if_neg (mt (shiftRight_and_one present first).1 hpresent)]
        exact ih hrest (found.push 0)

def rowCounts (present : Nat) : WordReader RowCounts := do
  return ⟨← rowCountsFrom present 0 tableLimit #[]⟩

theorem follows_rowCounts (present : Nat) : Follows (rowCounts present) (RowCounts.read present) :=
  (follows_rowCountsFrom (Nat.le_refl 64) #[]).bind fun _ _ => follows_pure _

/-! ## The headers of two streams -/

def pdbStreamHeader : WordReader PdbStreamHeader := do
  let id ← array 20
  let entryPoint ← littleEndian 4
  let referencedTables ← littleEndian 8
  let referencedRows ← rowCounts referencedTables
  return { id, entryPoint, referencedTables, referencedRows }

theorem follows_pdbStreamHeader : Follows pdbStreamHeader PdbStreamHeader.read := by
  refine (follows_array 20).bind fun id _ => (follows_littleEndian 4).bind fun entryPoint _ => ?_
  refine (follows_littleEndian 8).bind fun tables _ => ?_
  refine (follows_rowCounts tables).bind fun rows _ => ?_
  exact follows_pure _

def tableStreamHeader : WordReader TableStreamHeader := do
  if (← littleEndian 4) ≠ 0 then fail .invalidReserved
  let major ← u8
  let minor ← u8
  if (major, minor) ≠ (TableStreamHeader.majorVersion, TableStreamHeader.minorVersion) then
    fail (.invalidTableSchema major minor)
  let heapSizes ← u8
  let _ ← u8
  let valid ← littleEndian 8
  let sorted ← littleEndian 8
  let rows ← rowCounts valid
  return { heapSizes, valid, sorted, rows }

theorem follows_tableStreamHeader : Follows tableStreamHeader TableStreamHeader.read := by
  refine (follows_littleEndian 4).bind fun reserved _ => follows_failIf _ _ fun _ => ?_
  refine follows_u8.bind fun major _ => follows_u8.bind fun minor _ => ?_
  refine follows_failIf _ _ fun _ => ?_
  refine follows_u8.bind fun heapSizes _ => follows_u8.bind fun _ _ => ?_
  refine (follows_littleEndian 8).bind fun valid _ => ?_
  refine (follows_littleEndian 8).bind fun sorted _ => ?_
  exact (follows_rowCounts valid).bind fun rows _ => follows_pure _

end WordReader

theorem RowCounts.getElem?_counts {rows : RowCounts} (hrows : rows.counts.size = tableLimit)
    (table : TableId) : rows.counts[table.number]? = some (rows.get table.number) := by
  have hinside : table.number < rows.counts.size := by
    rw [hrows]
    exact table.number_lt
  simp only [RowCounts.get, Array.getD_eq_getD_getElem?, Array.getElem?_eq_getElem hinside,
    Option.getD_some]

/-! ## What the numbers of a header are below -/

/-- Each number of the header fits into the bytes that it was read from. -/
structure TableStreamHeader.Narrow (header : TableStreamHeader) : Prop where
  heapSizes : header.heapSizes < 256
  size_eq : header.rows.counts.size = tableLimit
  count_lt : ∀ count ∈ header.rows.counts, count < 0x100000000

theorem forall_mem_readFrom {present first tables : Nat} {found counts : Array Nat}
    (hcounts : (RowCounts.readFrom present first tables found).Yields counts)
    (hfound : ∀ count ∈ found, count < 0x100000000) :
    counts.size = found.size + tables ∧ ∀ count ∈ counts, count < 0x100000000 := by
  induction tables generalizing first found with
  | zero =>
      obtain ⟨cursor, next, hread⟩ := hcounts
      obtain ⟨rfl, -⟩ := Reader.pure_eq_ok hread
      exact ⟨rfl, hfound⟩
  | succ tables ih =>
      obtain ⟨cursor, next, hread⟩ := hcounts
      rw [RowCounts.readFrom] at hread
      obtain ⟨count, middle, hlt, hread⟩ : ∃ count middle, count < 0x100000000 ∧
          RowCounts.readFrom present (first + 1) tables (found.push count) middle =
            .ok counts next := by
        split at hread
        · obtain ⟨count, middle, hcount, hread⟩ := Reader.bind_eq_ok hread
          exact ⟨count, middle, lt_of_littleEndian ⟨_, _, hcount⟩, hread⟩
        · exact ⟨0, cursor, by decide, hread⟩
      have hpush : ∀ other ∈ found.push count, other < 0x100000000 := by
        intro other hother
        rcases Array.mem_push.1 hother with hother | rfl
        · exact hfound other hother
        · exact hlt
      obtain ⟨hsize, hall⟩ := ih ⟨_, _, hread⟩ hpush
      refine ⟨?_, hall⟩
      rw [hsize, Array.size_push]
      omega

theorem narrow_of_read {header : TableStreamHeader}
    (hheader : TableStreamHeader.read.Yields header) :
    header.Narrow := by
  obtain ⟨cursor, next, hread⟩ := hheader
  unfold TableStreamHeader.read at hread
  obtain ⟨reserved, _, -, hread⟩ := Reader.bind_eq_ok hread
  split at hread
  · cases hread
  obtain ⟨major, _, -, hread⟩ := Reader.bind_eq_ok hread
  obtain ⟨minor, _, -, hread⟩ := Reader.bind_eq_ok hread
  split at hread
  · cases hread
  obtain ⟨heapSizes, _, hheapSizes, hread⟩ := Reader.bind_eq_ok hread
  obtain ⟨_, _, -, hread⟩ := Reader.bind_eq_ok hread
  obtain ⟨valid, _, -, hread⟩ := Reader.bind_eq_ok hread
  obtain ⟨sorted, _, -, hread⟩ := Reader.bind_eq_ok hread
  obtain ⟨rows, _, hrows, hread⟩ := Reader.bind_eq_ok hread
  obtain ⟨rfl, -⟩ := Reader.pure_eq_ok hread
  obtain ⟨counts, _, hcounts, hrows⟩ := Reader.bind_eq_ok hrows
  obtain ⟨rfl, -⟩ := Reader.pure_eq_ok hrows
  obtain ⟨hsize, hall⟩ := forall_mem_readFrom ⟨_, _, hcounts⟩ (by simp)
  exact ⟨lt_of_littleEndian ⟨_, _, hheapSizes⟩, hsize.trans (Nat.zero_add _), hall⟩

end PortablePdb
