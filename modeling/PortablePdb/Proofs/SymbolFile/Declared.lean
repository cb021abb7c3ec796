import PortablePdb.Proofs.Bytes.Local
import PortablePdb.Proofs.SymbolFile.Parsed

/-!
# The bytes that a file declares

Main statement: `SymbolFile.parse_declared`.  The headers of a file and the streams that they name
take up its declared bytes.  Nothing that follows them is looked at, and a file that is cut short of
them does not parse.

The readers of the headers are local, so the headers of a file are read alike from every buffer that
goes on with the same bytes.  Only the check of a stream's end knows how long the buffer is.
-/

namespace PortablePdb

open Reader

/-- A search among the first few items finds what it found when the items up to there stay. -/
theorem findIdx?_of_take_eq {α : Type} {p : α → Bool} {front other : List α} {count place : Nat}
    (hfound : (front.take count).findIdx? p = some place)
    (hsame : other.take (place + 1) = front.take (place + 1)) :
    (other.take count).findIdx? p = some place := by
  obtain ⟨hplace, -⟩ := List.findIdx?_eq_some_iff_getElem.1 hfound
  rw [List.length_take] at hplace
  have hsplit (items : List α) :
      items.take count = items.take (place + 1) ++ (items.take count).drop (place + 1) := by
    have happend := List.take_append_drop (place + 1) (items.take count)
    rwa [List.take_take, Nat.min_eq_left (by omega), eq_comm] at happend
  rw [hsplit, List.findIdx?_append, Option.or_eq_some_iff] at hfound ⊢
  rw [hsame]
  rcases hfound with hfound | ⟨-, hlater⟩
  · exact .inl hfound
  · obtain ⟨index, -, hindex⟩ := Option.map_eq_some_iff.1 hlater
    rw [List.length_take] at hindex
    omega

/-! ## Headers -/

theorem RootHeader.local_read : Local RootHeader.read := by
  unfold RootHeader.read
  refine (local_littleEndian 4).bind fun signature => ?_
  split
  · exact local_fail_bind _ _
  refine (local_littleEndian 2).bind fun major => (local_littleEndian 2).bind fun minor => ?_
  split
  · exact local_fail_bind _ _
  refine (local_littleEndian 4).bind fun reserved => ?_
  split
  · exact local_fail_bind _ _
  refine (local_littleEndian 4).bind fun length => (local_bytes length).bind fun text => ?_
  refine (local_ofExcept _).bind fun version => (local_littleEndian 2).bind fun flags => ?_
  exact (local_littleEndian 2).bind fun streamCount => local_pure _

namespace StreamHeader

theorem nameLength_eq_ok_iff {cursor next : Cursor} {length : Nat} :
    nameLength cursor = .ok length next ↔
      (cursor.unread.take maxNameSize).findIdx? (· == 0) = some length ∧ cursor = next := by
  unfold nameLength
  rw [cursor.ahead_eq_take_unread]
  cases (cursor.unread.take maxNameSize).findIdx? (· == 0) with
  | none => simp
  | some found => simp

/-- The name and the bytes that fill it up, which hold the NUL that ends it. -/
def readName (length : Nat) : Reader String := do
  let bytes ← Reader.bytes length
  let name ← Reader.ofExcept <|
    (Text.decodeUtf8 bytes).mapError (.ofUtf8 .invalidStreamName)
  let _ ← (Reader.bytes (align4 (length + 1) - length)).under .invalidStreamHeader
  return name

theorem read_eq : read = do
    let offset ← Reader.u32
    let size ← Reader.u32
    let length ← nameLength
    let name ← readName length
    return { offset, size, name } := by
  simp only [read, readName, bind_assoc, pure_bind]

theorem local_readName (length : Nat) : Local (readName length) := by
  unfold readName
  refine (local_bytes length).bind fun bytes => (local_ofExcept _).bind fun name => ?_
  exact ((local_bytes _).under .invalidStreamHeader).bind fun padding => local_pure name

/-- Reading a name takes more than its length from the window. -/
theorem lt_of_reads_readName {length : Nat} {front : List UInt8} {name : String}
    (hreads : Reads (readName length) front name) : length < front.length := by
  obtain ⟨next, hread, -⟩ := hreads (Cursor.ofBytes front.toByteArray) [] (by simp)
  unfold readName at hread
  obtain ⟨field, afterField, hfield, hread⟩ := bind_eq_ok hread
  obtain ⟨found, afterName, hname, hread⟩ := bind_eq_ok hread
  obtain ⟨zeros, afterZeros, hzeros, -⟩ := bind_eq_ok hread
  obtain ⟨-, rfl⟩ := ofExcept_eq_ok hname
  obtain ⟨-, hfieldSize, hfieldFront⟩ := bytes_eq_ok hfield
  obtain ⟨-, hzerosSize, hzerosFront⟩ := bytes_eq_ok (under_eq_ok hzeros)
  have hunread : front = field.data.toList ++ (zeros.data.toList ++ afterZeros.unread) := by
    rw [← hzerosFront, ← hfieldFront, Cursor.unread_ofBytes]
    simp
  have halign := le_align4 (length + 1)
  rw [hunread, List.length_append, List.length_append, Array.length_toList, Array.length_toList,
    ByteArray.size_data, ByteArray.size_data, hfieldSize, hzerosSize]
  omega

/-- The length of a name is found without taking anything, but what the search looked at is what
reading the name takes. -/
theorem local_nameLength_bind : Local (nameLength >>= readName) := by
  refine ⟨fun {cursor next name} hresult => ?_⟩
  obtain ⟨length, middle, hlength, hname⟩ := bind_eq_ok hresult
  obtain ⟨hfound, rfl⟩ := nameLength_eq_ok_iff.1 hlength
  obtain ⟨hstop, front, hfront, hreads⟩ := (local_readName length).took hname
  refine ⟨hstop, front, hfront, fun other rest hother => ?_⟩
  have hlt := lt_of_reads_readName hreads
  have hsame : other.unread.take (length + 1) = cursor.unread.take (length + 1) := by
    rw [hother, hfront, List.take_append_of_le_length hlt, List.take_append_of_le_length hlt]
  obtain ⟨after, hafter, hrest⟩ := hreads other rest hother
  refine ⟨after, ?_, hrest⟩
  rw [bind_of_ok (nameLength_eq_ok_iff.2 ⟨findIdx?_of_take_eq hfound hsame, rfl⟩), hafter]

theorem local_read : Local read := by
  rw [read_eq]
  refine (local_littleEndian 4).bind fun offset => (local_littleEndian 4).bind fun size => ?_
  have hname := local_nameLength_bind.map fun name => ({ offset, size, name } : StreamHeader)
  simpa only [map_eq_pure_bind, bind_assoc] using hname

end StreamHeader

/-- What a stream header must fulfil beside being readable. -/
structure StreamHeader.Known (fileSize : Nat) (header : StreamHeader) : Prop where
  stop_le : header.stop ≤ fileSize
  known : (StreamKind.ofName? header.name).isSome

theorem readKnownStream_eq_ok_iff {fileSize : Nat} {cursor next : Cursor}
    {header : StreamHeader} :
    readKnownStream fileSize cursor = .ok header next ↔
      StreamHeader.read cursor = .ok header next ∧ header.Known fileSize := by
  have hknown_iff (found : StreamHeader) : (StreamKind.ofName? found.name).isSome = true ↔
      ¬(StreamKind.ofName? found.name).isNone = true := by
    rw [Option.isNone_iff_eq_none, Option.isSome_iff_ne_none]
  constructor
  · intro hresult
    unfold readKnownStream at hresult
    obtain ⟨found, middle, hread, hresult⟩ := bind_eq_ok hresult
    by_cases hstop : fileSize < found.stop
    · rw [if_pos hstop] at hresult
      cases hresult
    by_cases hknown : (StreamKind.ofName? found.name).isNone = true
    · rw [if_neg hstop, if_pos hknown] at hresult
      cases hresult
    rw [if_neg hstop, if_neg hknown] at hresult
    obtain ⟨rfl, rfl⟩ := pure_eq_ok hresult
    exact ⟨hread, Nat.not_lt.1 hstop, (hknown_iff found).2 hknown⟩
  · rintro ⟨hread, hstop, hknown⟩
    unfold readKnownStream
    rw [bind_of_ok hread, if_neg (Nat.not_lt.2 hstop), if_neg ((hknown_iff header).1 hknown)]
    rfl

theorem local_readKnownStream (fileSize : Nat) : Local (readKnownStream fileSize) := by
  refine ⟨fun {cursor next header} hresult => ?_⟩
  obtain ⟨hread, hknown⟩ := readKnownStream_eq_ok_iff.1 hresult
  obtain ⟨hstop, front, hfront, hreads⟩ := StreamHeader.local_read.took hread
  refine ⟨hstop, front, hfront, fun other rest hother => ?_⟩
  obtain ⟨after, hafter, hrest⟩ := hreads other rest hother
  exact ⟨after, readKnownStream_eq_ok_iff.2 ⟨hafter, hknown⟩, hrest⟩

/-- Headers that all end early enough are read alike for files of different sizes. -/
theorem replicate_readKnownStream {fileSize : Nat} {count : Nat}
    {found headers : Array StreamHeader} {cursor next : Cursor}
    (hresult : (readKnownStream fileSize).replicate count found cursor = .ok headers next) :
    ∃ later : List StreamHeader, headers.toList = found.toList ++ later ∧
      (∀ header ∈ later, header.Known fileSize) ∧
      ∀ otherSize, (∀ header ∈ later, header.stop ≤ otherSize) →
        (readKnownStream otherSize).replicate count found cursor = .ok headers next := by
  induction count generalizing found cursor with
  | zero =>
      obtain ⟨rfl, rfl⟩ := pure_eq_ok hresult
      exact ⟨[], by simp, by simp, fun _ _ => rfl⟩
  | succ count ih =>
      obtain ⟨header, middle, hheader, hresult⟩ := bind_eq_ok hresult
      obtain ⟨hread, hknown⟩ := readKnownStream_eq_ok_iff.1 hheader
      obtain ⟨later, happend, hlater, hother⟩ := ih hresult
      refine ⟨header :: later, ?_, ?_, fun otherSize hstops => ?_⟩
      · rw [happend, Array.toList_push, List.append_assoc, List.singleton_append]
      · exact List.forall_mem_cons.2 ⟨hknown, hlater⟩
      · obtain ⟨hstop, hstops⟩ := List.forall_mem_cons.1 hstops
        have hheader' : readKnownStream otherSize cursor = .ok header middle :=
          readKnownStream_eq_ok_iff.2 ⟨hread, hstop, hknown.known⟩
        rw [replicate, bind_of_ok hheader']
        exact hother otherSize hstops

namespace SymbolFile

variable {data other : ByteArray} {file : SymbolFile}

theorem local_readHeaders (fileSize : Nat) : Local (readHeaders fileSize) := by
  unfold readHeaders
  refine RootHeader.local_read.bind fun root => ?_
  exact ((local_readKnownStream fileSize).replicate root.streamCount #[]).bind
    fun streams => local_pure _

theorem readHeaders_known {fileSize : Nat} {cursor next : Cursor} {root : RootHeader}
    {headers : List StreamHeader}
    (hresult : readHeaders fileSize cursor = .ok (root, headers) next) :
    (∀ header ∈ headers, header.Known fileSize) ∧
      ∀ otherSize, (∀ header ∈ headers, header.stop ≤ otherSize) →
        readHeaders otherSize cursor = .ok (root, headers) next := by
  unfold readHeaders at hresult
  obtain ⟨found, middle, hroot, hresult⟩ := bind_eq_ok hresult
  obtain ⟨streams, last, hstreams, hresult⟩ := bind_eq_ok hresult
  obtain ⟨hpair, rfl⟩ := pure_eq_ok hresult
  obtain ⟨rfl, rfl⟩ := Prod.mk.injEq _ _ _ _ ▸ hpair
  obtain ⟨later, happend, hlater, hother⟩ := replicate_readKnownStream hstreams
  rw [List.nil_append] at happend
  rw [happend]
  refine ⟨hlater, fun otherSize hstops => ?_⟩
  unfold readHeaders
  rw [bind_of_ok hroot, bind_of_ok (hother otherSize hstops), happend]
  rfl

/-- The headers of a file are also those of a buffer of another size that starts alike, unless a
stream ends behind it. -/
theorem readHeaders_carries (otherSize : Nat) {fileSize : Nat} {next : Cursor}
    {root : RootHeader} {headers : List StreamHeader}
    (hresult : readHeaders fileSize (Cursor.ofBytes data) = .ok (root, headers) next)
    (hsame : other.data.toList.take next.position = data.data.toList.take next.position)
    (hstops : ∀ header ∈ headers, header.stop ≤ otherSize) :
    ∃ next', readHeaders otherSize (Cursor.ofBytes other) = .ok (root, headers) next' ∧
      next'.position = next.position := by
  obtain ⟨next', hother, hposition⟩ := (local_readHeaders fileSize).ofBytes hresult hsame
  exact ⟨next', (readHeaders_known hother).2 otherSize hstops, hposition⟩

/-! ## Declared bytes -/

/-- Where the last stream header or the last stream ends, whichever ends later. -/
def declaredSize (data : ByteArray) : Option Nat :=
  match readHeaders data.size (Cursor.ofBytes data) with
  | .ok (_, headers) next => (next.position :: headers.map StreamHeader.stop).max?
  | .error _ _ => none

theorem declaredSize_eq_some_iff {next : Cursor} {root : RootHeader} {headers : List StreamHeader}
    (hresult : readHeaders data.size (Cursor.ofBytes data) = .ok (root, headers) next)
    {size : Nat} :
    declaredSize data = some size ↔
      (size = next.position ∨ ∃ header ∈ headers, header.stop = size) ∧
        next.position ≤ size ∧ ∀ header ∈ headers, header.stop ≤ size := by
  simp only [declaredSize, hresult]
  rw [List.max?_eq_some_iff]
  simp

theorem take_eq_of_extract_eq {size count : Nat}
    (hsame : other.extract 0 size = data.extract 0 size) (hcount : count ≤ size) :
    other.data.toList.take count = data.data.toList.take count := by
  have htake := congrArg (fun bytes : ByteArray => bytes.data.toList.take count) hsame
  simpa only [ByteArray.data_extract, Array.toList_extract, List.extract_eq_take_drop,
    List.drop_zero, Nat.sub_zero, List.take_take, Nat.min_eq_left hcount] using htake

theorem streamIn_of_extract_eq {size : Nat} {headers : List StreamHeader}
    (hsame : other.extract 0 size = data.extract 0 size)
    (hstops : ∀ header ∈ headers, header.stop ≤ size) (kind : StreamKind) :
    streamIn other headers kind = streamIn data headers kind := by
  have hextract (bytes : ByteArray) (header : StreamHeader) (hheader : header ∈ headers) :
      bytes.extract header.offset header.stop =
        (bytes.extract 0 size).extract header.offset header.stop := by
    rw [ByteArray.extract_extract, Nat.zero_add, Nat.zero_add,
      Nat.min_eq_left (hstops header hheader)]
  refine Option.map_congr fun header hheader => ?_
  have hmem := List.mem_reverse.1 (List.mem_of_find?_eq_some hheader)
  rw [hextract other header hmem, hextract data header hmem, hsame]

/-- A parsed file whose bytes changed only behind what its headers and streams take up. -/
theorem ParsedFrom.carries {size : Nat} {next : Cursor} (hparsed : ParsedFrom data file)
    (hheaders : readHeaders data.size (Cursor.ofBytes data) =
      .ok (file.rootHeader, file.streamHeaders) next)
    (hsame : other.extract 0 size = data.extract 0 size) (hsize : size ≤ other.size)
    (hposition : next.position ≤ size)
    (hstops : ∀ header ∈ file.streamHeaders, header.stop ≤ size) :
    ParsedFrom other { file with data := other } := by
  have hstream := streamIn_of_extract_eq hsame hstops
  have hothers : ∀ header ∈ file.streamHeaders, header.stop ≤ other.size :=
    fun header hheader => Nat.le_trans (hstops header hheader) hsize
  obtain ⟨next', hother, -⟩ := readHeaders_carries other.size hheaders
    (take_eq_of_extract_eq hsame hposition) hothers
  obtain ⟨heaps, hheaps, hindex⟩ := hparsed.index
  obtain ⟨bytes, hbytes, htables⟩ := hparsed.tables
  refine ⟨rfl, ?_, ?_, ⟨heaps, ?_, hindex⟩, ⟨bytes, ?_, htables⟩⟩
  · simp only [Reader.run, EStateM.run, hother]
  · rw [hstream]
    exact hparsed.pdbHeader
  · simp only [heapsIn, hstream]
    exact hheaps
  · rw [hstream]
    exact hbytes

/-- The declared bytes of a file decide what it is: any buffer that starts with them parses to the
same file, and no part of them that is shorter parses at all. -/
theorem parse_declared (hparse : parse data = .ok file) :
    ∃ size, declaredSize data = some size ∧ size ≤ data.size ∧
      (∀ other : ByteArray, other.extract 0 size = data.extract 0 size →
        parse other = .ok { file with data := other }) ∧
      ∀ count < size, ∃ error, parse (data.extract 0 count) = .error error := by
  have hparsed := parse_eq_ok_iff.1 hparse
  obtain ⟨next, hheaders⟩ := run_eq_ok hparsed.headers
  obtain ⟨hknown, -⟩ := readHeaders_known hheaders
  obtain ⟨size, hsize⟩ : ∃ size, declaredSize data = some size := by
    simp [declaredSize, hheaders, List.max?_cons]
  obtain ⟨hreached, hposition, hstops⟩ := (declaredSize_eq_some_iff hheaders).1 hsize
  have hwhole : size ≤ data.size := by
    obtain ⟨hstop, -⟩ := (local_readHeaders data.size).took hheaders
    rcases hreached with rfl | ⟨header, hheader, rfl⟩
    · exact Nat.le_trans next.position_le_stop (Nat.le_of_eq hstop)
    · exact (hknown header hheader).stop_le
  refine ⟨size, hsize, hwhole, fun other hsame => ?_, fun count hcount => ?_⟩
  · have hother := congrArg ByteArray.size hsame
    rw [ByteArray.size_extract, ByteArray.size_extract] at hother
    exact parse_eq_ok_iff.2 (hparsed.carries hheaders hsame (by omega) hposition hstops)
  · cases hcut : parse (data.extract 0 count) with
    | error error => exact ⟨error, rfl⟩
    | ok short =>
        -- The shorter buffer's headers would be those of the file, and would end before `count`.
        obtain ⟨last, hlast⟩ := run_eq_ok (parse_eq_ok_iff.1 hcut).headers
        obtain ⟨hshort, -⟩ := readHeaders_known hlast
        have hcutSize : (data.extract 0 count).size ≤ count := by
          rw [ByteArray.size_extract]
          omega
        have hlastStop := ((local_readHeaders _).took hlast).stop
        have hlastPosition : last.position ≤ count :=
          Nat.le_trans last.position_le_stop (hlastStop ▸ hcutSize)
        have hsame : data.data.toList.take last.position =
            (data.extract 0 count).data.toList.take last.position := by
          rw [ByteArray.data_extract, Array.toList_extract, List.extract_eq_take_drop,
            List.drop_zero, Nat.sub_zero, List.take_take, Nat.min_eq_left hlastPosition]
        obtain ⟨next', hagain, hplace⟩ := readHeaders_carries data.size hlast hsame
          fun header hheader => by have := (hshort header hheader).stop_le; omega
        obtain ⟨hreached', -, -⟩ := (declaredSize_eq_some_iff hagain).1 hsize
        rcases hreached' with hsize' | ⟨header, hheader, hsize'⟩
        · omega
        · have := (hshort header hheader).stop_le
          omega

/-- A file whose identifiers lie over its first bytes, with two bytes behind its table stream. -/
def overlappingImage : ByteArray :=
  [0x42, 0x53, 0x4A, 0x42, 1, 0, 1, 0, 0, 0, 0, 0, 0, 0, 0, 0, 0, 0, 2, 0,
    48, 0, 0, 0, 24, 0, 0, 0, 0x23, 0x7E, 0, 0,
    0, 0, 0, 0, 16, 0, 0, 0, 0x23, 0x47, 0x55, 0x49, 0x44, 0, 0, 0,
    0, 0, 0, 0, 2, 0, 0, 1, 0, 0, 0, 0, 0, 0, 0, 0, 0, 0, 0, 0, 0, 0, 0, 0,
    0xFF, 0xFF].toByteArray

theorem parse_declared_overlappingImage :
    ∃ file, parse overlappingImage = .ok file ∧ declaredSize overlappingImage = some 72 ∧
      (∀ other : ByteArray, other.extract 0 72 = overlappingImage.extract 0 72 →
        parse other = .ok { file with data := other }) ∧
      ∀ count < 72, ∃ error, parse (overlappingImage.extract 0 count) = .error error := by
  have hdeclared : declaredSize overlappingImage = some 72 := by decide +kernel
  obtain ⟨file, hparse, -⟩ := exists_parse_of_any (fun _ => true)
    (show (parse overlappingImage).toOption.any _ = true by decide +kernel)
  obtain ⟨size, hsize, -, hsame, hshort⟩ := parse_declared hparse
  rw [hdeclared] at hsize
  cases hsize
  exact ⟨file, hparse, hdeclared, hsame, hshort⟩

end SymbolFile

end PortablePdb
