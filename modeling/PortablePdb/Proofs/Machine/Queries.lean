import PortablePdb.Proofs.Breakpoint.Resolution
import PortablePdb.Proofs.Index.Exact
import PortablePdb.Proofs.Machine.File

/-!
# Parsing and asking without a crash

Main statement: `WordFile.parse_never_crashes`.  Whatever bytes it gets, the machine ends with the
file or the error that they parse to, and it answers every request that a parsed file can get.

The requests to a heap slice it out of the file again.  A scope's end is computed when its locals
are asked for; it needs more than 32 bits, but not more than 64, because the start and the length
of a scope come from cells of a table.  The other requests compare, sort and select what the index
holds, which nothing can go wrong with as long as that fits the machine.
-/

namespace PortablePdb

/-! ## Requests to the index -/

/-- The end of the scope is only computed for an offset behind its start. -/
def Scope.contains? (scope : Scope) (ilOffset : Nat) : Option Bool :=
  if scope.startOffset ≤ ilOffset then do
    let stop ← Word.add? scope.startOffset scope.length
    return decide (ilOffset < stop)
  else some false

def MethodInfo.localsAt? (method : MethodInfo) (ilOffset : Nat) : Option (List LocalVariable) := do
  let lists ← method.scopes.mapM fun scope => do
    return if ← scope.contains? ilOffset then scope.variables else []
  return lists.flatten

theorem Scope.contains?_eq {scope : Scope} (hend : scope.endOffset < Word.limit) (ilOffset : Nat) :
    scope.contains? ilOffset = some (scope.contains ilOffset) := by
  have hsum : Word.add? scope.startOffset scope.length = some scope.endOffset :=
    Word.add?_of_lt hend
  rw [contains?, contains, hsum]
  by_cases hstart : scope.startOffset ≤ ilOffset
  · rw [if_pos hstart, decide_eq_true hstart, Bool.true_and]
    rfl
  · rw [if_neg hstart, decide_eq_false hstart, Bool.false_and]

theorem MethodInfo.localsAt?_eq {method : MethodInfo}
    (hscopes : ∀ scope ∈ method.scopes, scope.endOffset < Word.limit) (ilOffset : Nat) :
    method.localsAt? ilOffset = some (method.localsAt ilOffset) := by
  have hlists : ∀ scope ∈ method.scopes, (do
      return if ← scope.contains? ilOffset then scope.variables else [] : Option _) =
        some (if scope.contains ilOffset then scope.variables else []) := by
    intro scope hscope
    rw [Scope.contains?_eq (hscopes scope hscope)]
    rfl
  rw [localsAt?, mapM_eq_some hlists, localsAt, Option.bind_eq_bind, Option.bind_some]
  refine congrArg some ?_
  induction method.scopes with
  | nil => rfl
  | cons scope scopes ih =>
      rw [List.map_cons, List.flatten_cons, List.filter_cons, ih]
      cases scope.contains ilOffset <;> rfl

section Index

variable {tables : Tables} {heaps : Heaps} {document : DocumentInfo} {method : MethodInfo}

theorem exists_partIn?_of_mem
    (hdocument : document ∈ (DocumentIndex.ofTables tables heaps).documents)
    (hmethod : method ∈ document.methods) :
    ∃ number row, DocumentIndex.partIn? tables heaps document.document (number, row) =
      some method := by
  rw [DocumentIndex.documents_ofTables] at hdocument
  obtain ⟨info, -, rfl⟩ := List.mem_map.1 hdocument
  rw [DocumentIndex.partsIn_eq_filterMap] at hmethod
  obtain ⟨⟨number, row⟩, -, hpart⟩ := List.mem_filterMap.1 hmethod
  exact ⟨number, row, hpart⟩

/-- The scopes of an index start and end where rows of the tables say. -/
theorem endOffset_lt (htables : tables.Narrow)
    (hdocument : document ∈ (DocumentIndex.ofTables tables heaps).documents)
    (hmethod : method ∈ document.methods) :
    ∀ scope ∈ method.scopes, scope.endOffset < Word.limit := by
  intro scope hscope
  obtain ⟨number, row, hpart⟩ := exists_partIn?_of_mem hdocument hmethod
  obtain ⟨scopes, points, hscopes, -, -, hbuilt⟩ := DocumentIndex.partIn?_eq_some_iff.1 hpart
  have hmem := (MethodInfo.builtFrom_of_ofPoints? hbuilt).scopes.perm.mem_iff.1 hscope
  obtain ⟨entry, hentry, hread⟩ := exists_of_mem_forall₂ hscopes hmem
  have hreads := (DocumentIndex.scopeResult_eq_ok_iff.1 hread).2
  have hrow := (Rows.index?_of_mem_entries (List.mem_of_mem_filter hentry)).2
  have hstart := htables.startOffsets entry.2 hrow
  have hlength := htables.lengths entry.2 hrow
  rw [Scope.endOffset, hreads.startOffset, hreads.length]
  simp only [Word.limit]
  omega

/-- A line is at the offset of a point, and a blob with a larger offset is not decoded. -/
theorem ilOffset_lt (hdocument : document ∈ (DocumentIndex.ofTables tables heaps).documents)
    (hmethod : method ∈ document.methods) {line ilOffset : Nat}
    (hoffset : method.ilOffsetForLine line = some ilOffset) : ilOffset < 0x100000000 := by
  obtain ⟨number, row, hpart⟩ := exists_partIn?_of_mem hdocument hmethod
  obtain ⟨scopes, points, -, ⟨-, blob, -, hdecode⟩, -, hbuilt⟩ :=
    DocumentIndex.partIn?_eq_some_iff.1 hpart
  obtain ⟨marks, hencodable, rfl⟩ := SequencePoint.exists_encodable_of_decode hdecode
  obtain ⟨⟨point, hpoint, -, rfl⟩, -⟩ := MethodInfo.ilOffsetForLine_eq_some_iff.1 hoffset
  rw [(MethodInfo.builtFrom_of_ofPoints? hbuilt).sequencePoints, List.filter_comm] at hpoint
  have hlimit := hencodable.wellFormed.offset_lt point (List.mem_of_mem_filter hpoint)
  simp only [SequencePoint.offsetLimit] at hlimit
  omega

end Index

namespace WordFile

open Guarded

def findDocuments (file : WordFile) (path : String) : List DocumentInfo :=
  file.documents.filter fun document => document.matchesPath path

def resolve (file : WordFile) (path : String) (line : Nat) : Option Location :=
  let candidates := (file.findDocuments path).flatMap fun document =>
    (document.methodsAtLine line).map fun method => (document, method)
  (candidates.mergeSort Location.triedBefore).findSome? fun candidate =>
    Location.inMethod? candidate.1 candidate.2 line

/-! ## Requests to a heap -/

def requiredStream (file : WordFile) (kind : StreamKind) (fault : Fault) : Guarded ByteArray := do
  let range ← checked fault (file.ranges kind)
  stream file.data range

def heapString (file : WordFile) (offset : Nat) : Guarded String := do
  Guarded.stringAt (← file.requiredStream .strings .noStringsStream) offset

def heapBlob (file : WordFile) (offset : Nat) : Guarded ByteArray := do
  Guarded.blobAt (← file.requiredStream .blobs .noBlobStream) offset

def heapGuid (file : WordFile) (index : Nat) : Guarded Guid := do
  let heap ← file.requiredStream .guids .noGuidStream
  if heap.size % 16 ≠ 0 then throw ⟨.invalidLength, []⟩
  Guarded.guidAt heap index

/-- The machine answers every request with numbers of 32 bits, and as the file does. -/
structure AnswersAs (words : WordFile) (file : SymbolFile) : Prop where
  heapString : ∀ offset < 0x100000000, (words.heapString offset).Gives (file.heapString offset)
  heapBlob : ∀ offset < 0x100000000, (words.heapBlob offset).Gives (file.heapBlob offset)
  heapGuid : ∀ index < 0x100000000, (words.heapGuid index).Gives (file.heapGuid index)
  findDocuments : ∀ path, words.findDocuments path = file.findDocuments path
  resolve : ∀ path line, words.resolve path line = Location.resolve file path line
  ilOffsetForLine : ∀ document ∈ words.documents, ∀ method ∈ document.methods, ∀ line,
    ∀ ilOffset ∈ method.ilOffsetForLine line, ilOffset < 0x100000000
  localsAt : ∀ document ∈ words.documents, ∀ method ∈ document.methods, ∀ ilOffset < 0x100000000,
    method.localsAt? ilOffset = some (method.localsAt ilOffset)

variable {data : ByteArray} {file : SymbolFile}

theorem gives_requiredStream (hparsed : SymbolFile.ParsedFrom data file) (kind : StreamKind)
    (fault : Fault) :
    (file.words.requiredStream kind fault).Gives (file.requiredStream kind fault) := by
  obtain ⟨next, hread⟩ := Reader.run_eq_ok hparsed.headers
  have hstops : ∀ header ∈ file.streamHeaders, header.stop ≤ file.data.size := by
    rw [hparsed.data_eq]
    exact fun header hheader => ((SymbolFile.readHeaders_known hread).1 header hheader).stop_le
  rw [requiredStream, SymbolFile.requiredStream, streamIn_eq]
  change Gives (checked fault (StreamTable.rangeIn file.streamHeaders kind) >>= stream file.data) _
  cases hrange : StreamTable.rangeIn file.streamHeaders kind with
  | none => rfl
  | some range => exact gives_stream hstops hrange

theorem streamIn_of_requiredStream {kind : StreamKind} {fault : Fault} {heap : ByteArray}
    (hheap : file.requiredStream kind fault = .ok heap) :
    streamIn file.data file.streamHeaders kind = some heap := by
  rw [SymbolFile.requiredStream] at hheap
  cases hstream : streamIn file.data file.streamHeaders kind with
  | none =>
      rw [hstream] at hheap
      cases hheap
  | some bytes =>
      rw [hstream] at hheap
      cases hheap
      rfl

theorem size_guids {fault : Fault} {heap : ByteArray} (hparsed : SymbolFile.ParsedFrom data file)
    (hheap : file.requiredStream .guids fault = .ok heap) : heap.size % 16 = 0 := by
  obtain ⟨heaps, hheaps, -⟩ := hparsed.index
  have hstream := streamIn_of_requiredStream hheap
  rw [hparsed.data_eq] at hstream
  have hguids := (eq_streams_of_heapsIn hheaps).2
  rw [hstream, Option.getD_some] at hguids
  rw [← hguids]
  exact heaps.guids_whole

theorem answersAs_words (hsize : data.size < Word.limit)
    (hparsed : SymbolFile.ParsedFrom data file) : file.words.AnswersAs file where
  heapString offset _ :=
    (gives_requiredStream hparsed .strings _).bind fun heap _ => gives_stringAt heap offset
  heapBlob offset _ := (gives_requiredStream hparsed .blobs _).bind fun heap hheap => by
    have hheap := size_streamIn_le (streamIn_of_requiredStream hheap)
    rw [hparsed.data_eq] at hheap
    exact gives_blobAt (Nat.lt_of_le_of_lt hheap hsize) offset
  heapGuid index hindex := (gives_requiredStream hparsed .guids _).bind fun heap hheap => by
    rw [if_neg (not_not_intro (size_guids hparsed hheap))]
    exact gives_guidAt hindex heap
  findDocuments _ := rfl
  resolve _ _ := rfl
  ilOffsetForLine document hdocument method hmethod line ilOffset hoffset := by
    obtain ⟨heaps, -, hindex⟩ := hparsed.index
    change document ∈ file.index.documents at hdocument
    rw [hindex] at hdocument
    exact ilOffset_lt hdocument hmethod hoffset
  localsAt document hdocument method hmethod ilOffset _ := by
    obtain ⟨heaps, -, hindex⟩ := hparsed.index
    obtain ⟨bytes, -, htables⟩ := hparsed.tables
    change document ∈ file.index.documents at hdocument
    rw [hindex] at hdocument
    have hends := endOffset_lt (narrow_of_tableStream htables) hdocument hmethod
    exact method.localsAt?_eq hends ilOffset

/-- No bytes that the machine can hold make it crash, neither while it parses them nor when the
file that they parse to is asked for something. -/
theorem parse_never_crashes {data : ByteArray} (hsize : data.size < Word.limit) :
    (parse data).Gives (SymbolFile.words <$> SymbolFile.parse data) ∧
      ∀ file, SymbolFile.parse data = .ok file → file.words.AnswersAs file :=
  ⟨gives_parse hsize, fun _ hparse => answersAs_words hsize (SymbolFile.parse_eq_ok_iff.1 hparse)⟩

/-- One row in each table of the index.  The scope starts two before the limit of 32 bits and is as
long as they allow, and the last variable and constant are those of the sentinel behind it. -/
def scopedImage : ByteArray :=
  [0x42, 0x53, 0x4A, 0x42, 1, 0, 1, 0, 0, 0, 0, 0, 0, 0, 0, 0, 0, 0, 4, 0,
    84, 0, 0, 0, 82, 0, 0, 0, 0x23, 0x7E, 0, 0,
    166, 0, 0, 0, 5, 0, 0, 0, 0x23, 0x53, 0x74, 0x72, 0x69, 0x6E, 0x67, 0x73, 0, 0, 0, 0,
    171, 0, 0, 0, 15, 0, 0, 0, 0x23, 0x42, 0x6C, 0x6F, 0x62, 0, 0, 0,
    186, 0, 0, 0, 16, 0, 0, 0, 0x23, 0x47, 0x55, 0x49, 0x44, 0, 0, 0,
    0, 0, 0, 0, 2, 0, 0, 1, 0, 0, 0, 0, 0, 0, 0x1F, 0, 0, 0, 0, 0, 0, 0, 0, 0,
    1, 0, 0, 0, 1, 0, 0, 0, 1, 0, 0, 0, 1, 0, 0, 0, 1, 0, 0, 0,
    3, 0, 0, 0, 0, 0, 1, 0, 1, 0, 6, 0,
    1, 0, 0, 0, 1, 0, 1, 0, 0xFE, 0xFF, 0xFF, 0xFF, 0xFF, 0xFF, 0xFF, 0xFF,
    0, 0, 0, 0, 1, 0, 3, 0, 13, 0,
    0, 0x78, 0, 0x79, 0,
    0, 1, 0x61, 2, 0x2F, 1, 6, 0, 0, 1, 2, 10, 1, 1, 8,
    0, 0, 0, 0, 0, 0, 0, 0, 0, 0, 0, 0, 0, 0, 0, 0].toByteArray

theorem parse_never_crashes_scopedImage :
    scopedImage.size < Word.limit ∧
      ∃ file, SymbolFile.parse scopedImage = .ok file ∧
        (parse scopedImage).Gives (.ok file.words) ∧ file.words.AnswersAs file ∧
        file.words.documents.any fun document => document.methods.any fun method =>
          method.ilOffsetForLine 10 = some 0 := by
  have hsize : scopedImage.size < Word.limit := by decide +kernel
  obtain ⟨hgives, hanswers⟩ := parse_never_crashes hsize
  obtain ⟨file, hparse, hcheck⟩ := SymbolFile.exists_parse_of_any
    (fun file => file.words.documents.any fun document => document.methods.any fun method =>
      method.ilOffsetForLine 10 = some 0)
    (show (SymbolFile.parse scopedImage).toOption.any _ = true by decide +kernel)
  rw [hparse] at hgives
  exact ⟨hsize, file, hparse, hgives, hanswers file hparse, hcheck⟩

end WordFile

end PortablePdb
