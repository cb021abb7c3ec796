import PortablePdb.Proofs.Machine.Index

/-!
# Symbol files in the machine

The machine slices the streams out of the buffer by where they start and end, which the header that
named them was checked for.  Where streams lie it keeps in one place for each kind, of which the
last stream of the kind decides.
-/

namespace PortablePdb

structure WordFile where
  data : ByteArray
  rootHeader : RootHeader
  streamHeaders : List StreamHeader
  ranges : StreamKind → Option (Nat × Nat)
  pdbHeader : Option PdbStreamHeader
  tableHeader : TableStreamHeader
  tables : WordTables
  documents : List DocumentInfo
  skippedDocuments : Nat
  skippedMethods : Nat
  log : List LogEntry

namespace WordReader

def tableStream : WordReader (TableStreamHeader × WordTables) := do
  let header ← tableStreamHeader
  let tables ← tables header
  return (header, tables)

theorem follows_tableStream :
    Follows tableStream
      ((fun (header, tables) => (header, Tables.words tables)) <$> SymbolFile.readTableStream) := by
  rw [SymbolFile.readTableStream, map_bind]
  refine follows_tableStreamHeader.bind fun header hheader => ?_
  rw [map_bind]
  exact (follows_tables (narrow_of_read hheader)).bind_map fun tables _ => follows_pure _

end WordReader

namespace Guarded

open WordReader

/-! ## Streams -/

def stream (data : ByteArray) (range : Nat × Nat) : Guarded ByteArray :=
  certain (slice? data range.1 range.2)

def streamOrNone (data : ByteArray) (range? : Option (Nat × Nat)) : Guarded ByteArray :=
  match range? with
  | some range => stream data range
  | none => stream data (0, 0)

def heapsIn (data : ByteArray) (ranges : StreamKind → Option (Nat × Nat)) : Guarded WordHeaps := do
  let strings ← streamOrNone data (ranges .strings)
  let blobs ← streamOrNone data (ranges .blobs)
  let guids ← streamOrNone data (ranges .guids)
  if guids.size % 16 ≠ 0 then throw ⟨.invalidLength, []⟩
  return { strings, blobs, guids }

theorem streamIn_eq (data : ByteArray) (headers : List StreamHeader) (kind : StreamKind) :
    streamIn data headers kind =
      (StreamTable.rangeIn headers kind).map fun range => data.extract range.1 range.2 := by
  rw [streamIn, StreamTable.rangeIn, Option.map_map]
  rfl

variable {data : ByteArray} {headers : List StreamHeader}

theorem gives_stream (hheaders : ∀ header ∈ headers, header.stop ≤ data.size) {kind : StreamKind}
    {range : Nat × Nat} (hrange : StreamTable.rangeIn headers kind = some range) :
    Gives (stream data range) (.ok (data.extract range.1 range.2)) := by
  obtain ⟨header, hheader, rfl⟩ := Option.map_eq_some_iff.1 hrange
  have hmem := List.mem_reverse.1 (List.mem_of_find?_eq_some hheader)
  have hslice : slice? data header.offset header.stop =
      some (data.extract header.offset header.stop) :=
    slice?_of_le (Nat.le_add_right _ _) (hheaders header hmem)
  change Gives (certain (slice? data header.offset header.stop)) _
  rw [hslice]
  rfl

theorem gives_streamOrNone (hheaders : ∀ header ∈ headers, header.stop ≤ data.size)
    (kind : StreamKind) :
    Gives (streamOrNone data (StreamTable.rangeIn headers kind))
      (.ok ((streamIn data headers kind).getD ByteArray.empty)) := by
  rw [streamIn_eq]
  cases hrange : StreamTable.rangeIn headers kind with
  | some range => exact gives_stream hheaders hrange
  | none =>
      have hempty : data.extract 0 0 = ByteArray.empty := by
        apply ByteArray.ext
        simp
      rw [streamOrNone, stream, slice?_of_le (Nat.le_refl 0) (Nat.zero_le _), hempty]
      rfl

theorem size_extract_le (data : ByteArray) (range : Nat × Nat) :
    (data.extract range.1 range.2).size ≤ data.size := by
  rw [ByteArray.size_extract]
  omega

theorem gives_heapsIn (hheaders : ∀ header ∈ headers, header.stop ≤ data.size) :
    Gives (heapsIn data (StreamTable.rangeIn headers))
      (Heaps.words <$> SymbolFile.heapsIn data headers) := by
  have hstream := gives_streamOrNone hheaders
  rw [heapsIn, hstream .strings, hstream .blobs, hstream .guids]
  change Gives (if _ ≠ 0 then _ else _) _
  rw [SymbolFile.heapsIn, Heaps.ofBytes]
  by_cases hwhole : ((streamIn data headers .guids).getD ByteArray.empty).size % 16 = 0
  · rw [dif_pos hwhole, if_neg (not_not_intro hwhole)]
    rfl
  · rw [dif_neg hwhole, if_pos hwhole]
    rfl

end Guarded

/-! ## Parsing -/

namespace WordFile

/-- The warning of a module with more methods than two bytes can number. -/
def numbersWarning (tables : WordTables) : Option PdbStreamHeader → Option (List LogEntry)
  | none => some []
  | some header => do
      let methods ← header.referencedRows.counts[TableId.methodDef.number]?
      if methods ≤ 0xFFFF then return []
      let scopes ← tables.scopes.count?
      if scopes = 0 then return []
      return [{
        level := .warn
        message := "method indices of local scopes are read as 2 bytes and may be truncated"
        fields := [("methods", .number methods)] }]

def parse (data : ByteArray) : Guarded WordFile := do
  let (rootHeader, streams) ← Guarded.run (WordReader.fileHeaders data.size) data
  let pdbHeader ← (streams.ranges .pdb).mapM fun range => do
    let bytes ← Guarded.stream data range
    Guarded.run WordReader.pdbStreamHeader bytes
  let heaps ← Guarded.heapsIn data streams.ranges
  let range ← Guarded.checked .noMetadataStream (streams.ranges .tables)
  let bytes ← Guarded.stream data range
  let (tableHeader, tables) ← Guarded.run WordReader.tableStream bytes
  let warnings ← Guarded.certain (numbersWarning tables pdbHeader)
  let index ← Guarded.certain (WordIndex.ofTables tables heaps)
  return {
    data
    rootHeader
    streamHeaders := streams.headers
    ranges := streams.ranges
    pdbHeader
    tableHeader
    tables
    documents := index.documents
    skippedDocuments := index.skippedDocuments
    skippedMethods := index.skippedMethods
    log := warnings ++ index.log }

end WordFile

/-- The file as the machine keeps it. -/
def SymbolFile.words (file : SymbolFile) : WordFile where
  data := file.data
  rootHeader := file.rootHeader
  streamHeaders := file.streamHeaders
  ranges := StreamTable.rangeIn file.streamHeaders
  pdbHeader := file.pdbHeader
  tableHeader := file.tableHeader
  tables := file.tables.words
  documents := file.documents
  skippedDocuments := file.index.skippedDocuments
  skippedMethods := file.index.skippedMethods
  log := file.log

namespace WordFile

open Guarded

theorem size_of_pdbStreamHeader {header : PdbStreamHeader}
    (hheader : PdbStreamHeader.read.Yields header) :
    header.referencedRows.counts.size = tableLimit := by
  obtain ⟨cursor, next, hread⟩ := hheader
  obtain ⟨id, _, -, hread⟩ := Reader.bind_eq_ok hread
  obtain ⟨entryPoint, _, -, hread⟩ := Reader.bind_eq_ok hread
  obtain ⟨referencedTables, _, -, hread⟩ := Reader.bind_eq_ok hread
  obtain ⟨rows, _, hrows, hread⟩ := Reader.bind_eq_ok hread
  obtain ⟨rfl, -⟩ := Reader.pure_eq_ok hread
  obtain ⟨counts, _, hcounts, hrows⟩ := Reader.bind_eq_ok hrows
  obtain ⟨rfl, -⟩ := Reader.pure_eq_ok hrows
  exact (forall_mem_readFrom ⟨_, _, hcounts⟩ (by simp)).1.trans (Nat.zero_add _)

theorem numbersWarning_eq {file : SymbolFile}
    (hheader : ∀ header ∈ file.pdbHeader, header.referencedRows.counts.size = tableLimit) :
    numbersWarning file.tables.words file.pdbHeader =
      some (file.methodNumbersOverflow.toList.map fun methods =>
        { level := .warn
          message := "method indices of local scopes are read as 2 bytes and may be truncated"
          fields := [("methods", .number methods)] }) := by
  rw [SymbolFile.methodNumbersOverflow]
  cases hfile : file.pdbHeader with
  | none => rfl
  | some header =>
      have hscopes : file.tables.words.scopes.count? = some file.tables.scopes.count :=
        file.tables.scopes.count?_words
      have hmethods := RowCounts.getElem?_counts (hheader header hfile) .methodDef
      simp only [numbersWarning, Option.bind_eq_bind, Option.bind_some, hmethods, hscopes,
        Option.map_some]
      by_cases hmany : header.referencedRows.get TableId.methodDef.number ≤ 0xFFFF
      · have hfilter : ¬(0xFFFF < header.referencedRowCount .methodDef ∧
            file.tables.scopes.count ≠ 0) := fun hboth => Nat.not_lt.2 hmany hboth.1
        rw [if_pos hmany, Option.filter_some_neg (by simpa using hfilter)]
        rfl
      · by_cases hnone : file.tables.scopes.count = 0
        · rw [if_neg hmany, if_pos hnone, Option.filter_some_neg (by simp [hnone])]
          rfl
        · have hfilter : 0xFFFF < header.referencedRowCount .methodDef ∧
              file.tables.scopes.count ≠ 0 := ⟨Nat.lt_of_not_le hmany, hnone⟩
          rw [if_neg hmany, if_neg hnone, Option.filter_some_pos (by simpa using hfilter)]
          rfl

theorem gives_pdbHeader {data : ByteArray} (hsize : data.size < Word.limit)
    {headers : List StreamHeader} (hheaders : ∀ header ∈ headers, header.stop ≤ data.size) :
    Gives ((StreamTable.rangeIn headers .pdb).mapM fun range => do
        let bytes ← stream data range
        run WordReader.pdbStreamHeader bytes)
      ((streamIn data headers .pdb).mapM fun bytes =>
        PdbStreamHeader.read.run (Cursor.ofBytes bytes)) := by
  rw [streamIn_eq]
  cases hrange : StreamTable.rangeIn headers .pdb with
  | none => rfl
  | some range =>
      refine Gives.map ?_ some
      dsimp only
      rw [(gives_stream hheaders hrange).bind_eq]
      exact WordReader.follows_pdbStreamHeader.run
        (Nat.lt_of_le_of_lt (size_extract_le data range) hsize)

theorem size_of_pdbHeader {streams : Option ByteArray} {pdbHeader : Option PdbStreamHeader}
    (hpdbHeader : (streams.mapM fun bytes => PdbStreamHeader.read.run (Cursor.ofBytes bytes)) =
      .ok pdbHeader) :
    ∀ header ∈ pdbHeader, header.referencedRows.counts.size = tableLimit := by
  rintro header rfl
  cases streams with
  | none => cases hpdbHeader
  | some bytes =>
      have hread : PdbStreamHeader.read.run (Cursor.ofBytes bytes) = .ok header := by
        cases hread : PdbStreamHeader.read.run (Cursor.ofBytes bytes) with
        | error error =>
            rw [Option.mapM_some, hread] at hpdbHeader
            cases hpdbHeader
        | ok found =>
            rw [Option.mapM_some, hread] at hpdbHeader
            cases hpdbHeader
            rfl
      obtain ⟨next, hread⟩ := Reader.run_eq_ok hread
      exact size_of_pdbStreamHeader ⟨_, next, hread⟩

theorem size_streamIn_le {data bytes : ByteArray} {headers : List StreamHeader} {kind : StreamKind}
    (hstream : streamIn data headers kind = some bytes) : bytes.size ≤ data.size := by
  rw [streamIn_eq] at hstream
  obtain ⟨range, -, rfl⟩ := Option.map_eq_some_iff.1 hstream
  exact size_extract_le data range

theorem eq_streams_of_heapsIn {data : ByteArray} {headers : List StreamHeader} {heaps : Heaps}
    (hheaps : SymbolFile.heapsIn data headers = .ok heaps) :
    heaps.blobs = (streamIn data headers .blobs).getD ByteArray.empty ∧
      heaps.guids = (streamIn data headers .guids).getD ByteArray.empty := by
  unfold SymbolFile.heapsIn Heaps.ofBytes at hheaps
  dsimp only at hheaps
  split at hheaps
  case isTrue =>
      cases hheaps
      exact ⟨rfl, rfl⟩
  case isFalse => cases hheaps

theorem size_blobs_le {data : ByteArray} {headers : List StreamHeader} {heaps : Heaps}
    (hheaps : SymbolFile.heapsIn data headers = .ok heaps) : heaps.blobs.size ≤ data.size := by
  rw [(eq_streams_of_heapsIn hheaps).1]
  cases hstream : streamIn data headers .blobs with
  | none => exact Nat.zero_le _
  | some bytes => exact size_streamIn_le hstream

theorem narrow_of_tableStream {bytes : ByteArray} {header : TableStreamHeader} {tables : Tables}
    (hread : SymbolFile.readTableStream.run (Cursor.ofBytes bytes) = .ok (header, tables)) :
    tables.Narrow := by
  obtain ⟨next, hread⟩ := Reader.run_eq_ok hread
  obtain ⟨found, _, hheader, hread⟩ := Reader.bind_eq_ok hread
  obtain ⟨others, _, htables, hread⟩ := Reader.bind_eq_ok hread
  obtain ⟨hpair, -⟩ := Reader.pure_eq_ok hread
  cases hpair
  exact narrow_of_tables (narrow_of_read ⟨_, _, hheader⟩) ⟨_, _, htables⟩

/-- The machine parses a buffer without a crash, and what it ends with is the parsed file. -/
theorem gives_parse {data : ByteArray} (hsize : data.size < Word.limit) :
    Gives (parse data) (SymbolFile.words <$> SymbolFile.parse data) := by
  have hheaders := (WordReader.follows_fileHeaders data.size).run hsize
  rw [Reader.run_map] at hheaders
  rw [SymbolFile.parse, map_bind]
  refine hheaders.bind_map fun (rootHeader, headers) hresult => ?_
  obtain ⟨next, hread⟩ := Reader.run_eq_ok hresult
  have hstops : ∀ header ∈ headers, header.stop ≤ data.size := fun header hheader =>
    ((SymbolFile.readHeaders_known hread).1 header hheader).stop_le
  rw [map_bind]
  refine (gives_pdbHeader hsize hstops).bind fun pdbHeader hpdbHeader => ?_
  rw [map_bind]
  refine (gives_heapsIn hstops).bind_map fun heaps hheaps => ?_
  have hblobs := Nat.lt_of_le_of_lt (size_blobs_le hheaps) hsize
  rw [streamIn_eq]
  change Gives (checked .noMetadataStream (StreamTable.rangeIn headers .tables) >>= _) _
  cases hrange : StreamTable.rangeIn headers .tables with
  | none => rfl
  | some range =>
      rw [bind_checked, (gives_stream hstops hrange).bind_eq]
      -- The rest happens on the tables, which have the bounds that their cells give them.
      have htables := WordReader.follows_tableStream.run
        (Nat.lt_of_le_of_lt (size_extract_le data range) hsize)
      rw [Reader.run_map] at htables
      change Gives _ (SymbolFile.words <$> (SymbolFile.readTableStream.run _ >>= _))
      rw [map_bind]
      refine htables.bind_map fun (tableHeader, tables) htables => ?_
      obtain ⟨index, hindex, hdocuments, hskippedDocuments, hskippedMethods, hlog⟩ :=
        WordIndex.exists_ofTables (narrow_of_tableStream htables) hblobs
      have hwarning := @numbersWarning_eq
        { data, rootHeader, streamHeaders := headers, pdbHeader, tableHeader, tables,
          index := .ofTables tables heaps } (size_of_pdbHeader hpdbHeader)
      dsimp only at hwarning ⊢
      rw [hwarning, bind_certain, hindex, bind_certain, hdocuments, hskippedDocuments,
        hskippedMethods, hlog]
      exact gives_pure _

end WordFile

end PortablePdb
