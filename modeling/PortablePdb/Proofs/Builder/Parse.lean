import PortablePdb.Proofs.Builder.Holds
import PortablePdb.Proofs.Builder.TableStream
import PortablePdb.Proofs.RelatedLists

/-!
# An image parses

A builder whose settings can be written down writes an image that parses, to its heaps and to as
much of its rows as their columns have room for.  If it holds a valid request, that is all of the
rows.  Only the starts of the scopes' runs can be too large for the width of their column: the run
of a scope without locals may start behind the last row.
-/

namespace PortablePdb

/-- The starts of all runs fit into the widths that the file gives to the tables. -/
def Builder.RunsFit (builder : Builder) : Prop :=
  ∀ row ∈ builder.scopes.toList,
    row.variableList < Bytes.limit (builder.widths.table .localVariable) ∧
      row.constantList < Bytes.limit (builder.widths.table .localConstant)

instance (builder : Builder) : Decidable builder.RunsFit :=
  inferInstanceAs (Decidable (∀ row ∈ builder.scopes.toList, _))

theorem exists_request_of_mem_scopeRows {variableStart constantStart : Nat}
    {requests : List ScopeRequest} {row : ScopeRow}
    (hrow : row ∈ scopeRows variableStart constantStart requests) :
    ∃ request ∈ requests, row.method = request.method ∧ row.importScope = 0 ∧
      row.startOffset = request.startOffset ∧ row.length = request.length := by
  induction requests generalizing variableStart constantStart with
  | nil => cases hrow
  | cons first rest ih =>
      rcases List.mem_cons.1 hrow with rfl | hmem
      · exact ⟨first, List.mem_cons_self, rfl, rfl, rfl, rfl⟩
      · obtain ⟨request, hrequest, hfields⟩ := ih hmem
        exact ⟨request, List.mem_cons_of_mem first hrequest, hfields⟩

namespace Builder

variable {builder : Builder} {request : FileRequest}

/-- The heaps are sound, and what is set rather than added fits into its field. -/
structure SettingsFit (builder : Builder) : Prop where
  sound : builder.heapBytes.Sound
  identity : builder.pdbId.size = 20 ∧ builder.entryPoint < Bytes.limit 4
  referencedRows : ∀ entry ∈ builder.referencedRows,
    entry.1 < tableLimit ∧ entry.2 < Bytes.limit 4
  extraRows : ∀ entry ∈ builder.extraRows,
    0x35 ≤ entry.1 ∧ entry.1 ≤ 0x37 ∧ entry.2 < Bytes.limit 4
  extraStreams : builder.extraStreams = []

theorem Holds.settingsFit (hholds : builder.Holds request) (hvalid : request.Valid) :
    builder.SettingsFit where
  sound := hholds.sound
  identity := by
    have hidentity := hvalid.identity
    rwa [← hholds.identity] at hidentity
  referencedRows := by
    rw [hholds.referencedRows]
    exact hvalid.referencedRows
  extraRows := by
    rw [hholds.extraRows]
    exact hvalid.extraRows
  extraStreams := hholds.extraStreams

theorem SettingsFit.bounded (hsettings : builder.SettingsFit)
    (hsize : builder.image.size < Bytes.limit 4) : builder.Bounded :=
  ⟨hsize, hsettings.extraRows⟩

/-! ## Cells -/

theorem heapMeasure_lt (hbounded : builder.Bounded) (kind : HeapKind) :
    builder.heapMeasure kind < Bytes.limit 4 := by
  have hstrings : ("#Strings", builder.strings.data.toList) ∈ builder.streams := by simp [streams]
  have hguids : ("#GUID", builder.guids.data.toList) ∈ builder.streams := by simp [streams]
  have hblobs : ("#Blob", builder.blobs.data.toList) ∈ builder.streams := by simp [streams]
  have hstringsLe := length_le_size_image hstrings
  have hguidsLe := length_le_size_image hguids
  have hblobsLe := length_le_size_image hblobs
  have hsize := hbounded.size_lt
  simp only [Array.length_toList, ByteArray.size_data] at hstringsLe hguidsLe hblobsLe
  cases kind <;> simp only [heapMeasure] <;> omega

theorem lt_limit_heap (hbounded : builder.Bounded) {kind : HeapKind} {value : Nat}
    (hvalue : value ≤ builder.heapMeasure kind) :
    value < Bytes.limit ((Column.heap kind).width builder.widths) := by
  rw [Column.width, widths_heap]
  exact lt_limit_of_le hvalue (heapMeasure_lt hbounded kind)

theorem lt_limit_row (hbounded : builder.Bounded) {table : TableId} {value : Nat}
    (htable : table ≠ .methodDef) (hvalue : value ≤ builder.rowCounts.get table.number) :
    value < Bytes.limit ((Column.row table).width builder.widths) := by
  simp only [Column.width, widths, htable, ne_eq, not_false_eq_true, true_and]
  exact lt_limit_of_le hvalue ((fits_rowCounts hbounded.countsFit).count_lt table.number)

theorem Holds.rowsFit (hholds : builder.Holds request) (hvalid : request.Valid)
    (hbounded : builder.Bounded) (hruns : builder.RunsFit) : builder.RowsFit where
  documents row hrow := by
    obtain ⟨document, -, hstored⟩ := exists_of_mem_forall₂ hholds.documents hrow
    exact .cons (lt_limit_heap hbounded (Nat.le_of_lt hstored.name_lt))
      (.cons (lt_limit_heap hbounded hstored.hashAlgorithm_le)
        (.cons (lt_limit_heap hbounded (Nat.le_of_lt hstored.hash_lt))
          (.cons (lt_limit_heap hbounded hstored.language_le) .nil)))
  methods row hrow := by
    obtain ⟨method, hmethod, hstored⟩ := exists_of_mem_forall₂ hholds.methods hrow
    have hdocument : row.document ≤ builder.rowCounts.get TableId.document.number := by
      have hcount : (TableId.document, builder.documents.size) ∈ builder.addedRowCounts := by
        simp [addedRowCounts]
      have hlength := hholds.documents.length_eq
      rw [get_rowCounts_added hbounded.countsFit hcount, hstored.document_eq, ← Array.length_toList,
        ← hlength]
      exact (hvalid.methods method hmethod).document_le
    exact .cons (lt_limit_row hbounded (by decide) hdocument)
      (.cons (lt_limit_heap hbounded (Nat.le_of_lt hstored.sequencePoints_lt)) .nil)
  scopes row hrow := by
    obtain ⟨hvariables, hconstants⟩ := hruns row hrow
    rw [hholds.scopes] at hrow
    obtain ⟨scope, hscope, hmethod, himport, hstart, hlength⟩ :=
      exists_request_of_mem_scopeRows hrow
    have hscopeValid := hvalid.scopes scope hscope
    refine .cons ?_ (.cons ?_ (.cons hvariables (.cons hconstants (.cons ?_ (.cons ?_ .nil)))))
    · rw [hmethod]
      exact hscopeValid.method_lt
    · rw [himport]
      exact lt_limit_row hbounded (by decide) (Nat.zero_le _)
    · rw [hstart]
      exact hscopeValid.startOffset_lt
    · rw [hlength]
      exact hscopeValid.length_lt
  slots row hrow := by
    obtain ⟨declaration, hdeclaration, hstored⟩ := exists_of_mem_forall₂ hholds.slots hrow
    obtain ⟨scope, hscope, hslot⟩ := List.mem_flatMap.1 hdeclaration
    obtain ⟨-, hindex, hattributes⟩ := (hvalid.scopes scope hscope).slots declaration hslot
    refine .cons ?_ (.cons ?_ (.cons (lt_limit_heap hbounded (Nat.le_of_lt hstored.name_lt)) .nil))
    · rw [hstored.attributes_eq]
      exact hattributes
    · rw [hstored.index_eq]
      exact hindex
  constants row hrow := by
    obtain ⟨constant, -, hstored⟩ := exists_of_mem_forall₂ hholds.constants hrow
    exact .cons (lt_limit_heap hbounded (Nat.le_of_lt hstored.name_lt))
      (.cons (lt_limit_heap hbounded (Nat.le_of_lt hstored.signature_lt)) .nil)

/-! ## The other streams -/

def pdbHeader (builder : Builder) : PdbStreamHeader where
  id := builder.pdbId
  entryPoint := builder.entryPoint
  referencedTables := tableSet builder.referencedRowCounts
  referencedRows := builder.referencedRowCounts

theorem SettingsFit.run_pdbStream (hsettings : builder.SettingsFit) :
    PdbStreamHeader.read.run (Cursor.ofBytes builder.pdbStream.toByteArray) =
      .ok builder.pdbHeader := by
  have hrows : builder.referencedRowCounts.Fits :=
    RowCounts.fits_foldl_set RowCounts.fits_empty hsettings.referencedRows
  obtain ⟨hid, hentryPoint⟩ := hsettings.identity
  exact Reader.run_of_readsAll (PdbStreamHeader.reads_read hrows hid hentryPoint).readsAll

theorem Holds.get_referencedRowCounts (hholds : builder.Holds request) (hvalid : request.Valid)
    (table : Nat) :
    builder.referencedRowCounts.get table = lastRowCount request.referencedRows table := by
  rw [referencedRowCounts, hholds.referencedRows,
    RowCounts.get_foldl_set RowCounts.fits_empty hvalid.referencedRows, RowCounts.get_empty]
  rfl

/-- The rows of a table that nobody reads are counted as was asked for. -/
theorem Holds.get_rowCounts_extra (hholds : builder.Holds request) (hbounded : builder.Bounded)
    {table : Nat} (htable : 0x35 ≤ table) :
    builder.rowCounts.get table = lastRowCount request.extraRows table := by
  have hadded : ((builder.addedRowCounts.map fun row => (row.1.number, row.2)).filter
      fun entry => entry.1 = table) = [] := by
    rw [List.filter_eq_nil_iff]
    intro entry hentry hsame
    obtain ⟨row, hrow, rfl⟩ := List.mem_map.1 hentry
    have hnumber := (number_of_mem_addedRowCounts hrow).2
    have heq : row.1.number = table := by simpa using hsame
    omega
  rw [get_rowCounts hbounded.countsFit, rowEntries, List.filter_append, hadded, List.nil_append,
    hholds.extraRows]
  rfl

def heaps (builder : Builder) (hsound : builder.heapBytes.Sound) : Heaps where
  strings := builder.strings
  blobs := builder.blobs
  guids := builder.guids
  guids_whole := hsound.guids_whole

theorem within_heaps (hsound : builder.heapBytes.Sound) :
    builder.heapBytes.Within (builder.heaps hsound) :=
  ⟨List.prefix_rfl, List.prefix_rfl, List.prefix_rfl⟩

theorem heapsIn_image (hextra : builder.extraStreams = []) (hsound : builder.heapBytes.Sound) :
    SymbolFile.heapsIn builder.image builder.imageHeaders = .ok (builder.heaps hsound) := by
  simp only [SymbolFile.heapsIn, streamIn_eq_streamOf hextra, streamOf, Option.getD_some]
  exact dif_pos hsound.guids_whole

/-! ## The whole file -/

def symbolFile (builder : Builder) (hsound : builder.heapBytes.Sound) : SymbolFile where
  data := builder.image
  rootHeader := builder.imageRoot
  streamHeaders := builder.imageHeaders
  pdbHeader := if builder.hasPdbStream then some builder.pdbHeader else none
  tableHeader := builder.tableHeader
  tables := builder.tables
  index := .ofTables builder.tables (builder.heaps hsound)

/-- The file with the rows as they come back. -/
def storedFile (builder : Builder) (hsound : builder.heapBytes.Sound) : SymbolFile :=
  { builder.symbolFile hsound with
    tables := builder.storedTables
    index := .ofTables builder.storedTables (builder.heaps hsound) }

theorem storedFile_eq (hsound : builder.heapBytes.Sound) (hfits : builder.RowsFit) :
    builder.storedFile hsound = builder.symbolFile hsound := by
  rw [storedFile, storedTables_eq hfits]
  rfl

theorem SettingsFit.parse_image (hsettings : builder.SettingsFit)
    (hsize : builder.image.size < Bytes.limit 4) :
    SymbolFile.parse builder.image = .ok (builder.storedFile hsettings.sound) := by
  have hextra := hsettings.extraStreams
  have htables := run_readTableStream (hsettings.bounded hsize).countsFit
  have hpdb : (streamIn builder.image builder.imageHeaders .pdb).mapM (fun bytes =>
      PdbStreamHeader.read.run (Cursor.ofBytes bytes)) =
        .ok (if builder.hasPdbStream then some builder.pdbHeader else none) := by
    rw [streamIn_eq_streamOf hextra, streamOf]
    cases builder.hasPdbStream with
    | false => rfl
    | true =>
        simp only [if_true, Option.mapM_some, hsettings.run_pdbStream]
        rfl
  have htableStream : streamIn builder.image builder.imageHeaders .tables =
      some builder.tableStream.toByteArray := streamIn_eq_streamOf hextra .tables
  unfold SymbolFile.parse
  rw [run_readHeaders hextra hsize]
  simp only [bind, Except.bind, hpdb, heapsIn_image hextra hsettings.sound, htableStream, htables]
  rfl

theorem Holds.parse_image (hholds : builder.Holds request) (hvalid : request.Valid)
    (hsize : builder.image.size < Bytes.limit 4) (hruns : builder.RunsFit) :
    SymbolFile.parse builder.image = .ok (builder.symbolFile hholds.sound) := by
  have hsettings := hholds.settingsFit hvalid
  have hfits := hholds.rowsFit hvalid (hsettings.bounded hsize) hruns
  rw [hsettings.parse_image hsize, storedFile_eq _ hfits]

end Builder

end PortablePdb
