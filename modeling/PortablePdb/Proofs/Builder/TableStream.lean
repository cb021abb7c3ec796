import PortablePdb.Proofs.Builder.Image
import PortablePdb.Proofs.Header.Tables
import PortablePdb.Proofs.Table.Rows

/-!
# The table stream read back

The header that a builder writes gives a reader the row counts and the index widths that the rows
were written with.  The rows come back as far as their columns have room for them, and these
columns are at most four bytes wide, which bounds the size of the whole image.
-/

namespace PortablePdb.Builder

open Reader

variable {builder : Builder}

/-- Four bytes hold every row count, and extra rows are only of tables that nobody reads. -/
structure CountsFit (builder : Builder) : Prop where
  added_lt : ∀ entry ∈ builder.addedRowCounts, entry.2 < Bytes.limit 4
  extraRows : ∀ entry ∈ builder.extraRows,
    0x35 ≤ entry.1 ∧ entry.1 ≤ 0x37 ∧ entry.2 < Bytes.limit 4

/-- Extra rows are only of tables that nobody reads, and the image is small enough for four bytes
to name each of its places. -/
structure Bounded (builder : Builder) : Prop where
  size_lt : builder.image.size < Bytes.limit 4
  extraRows : ∀ entry ∈ builder.extraRows,
    0x35 ≤ entry.1 ∧ entry.1 ≤ 0x37 ∧ entry.2 < Bytes.limit 4

/-! ## Widths -/

theorem lt_limit_of_le {value measure : Nat} (hvalue : value ≤ measure)
    (hmeasure : measure < Bytes.limit 4) :
    value < Bytes.limit (if 0xFFFF < measure then 4 else 2) := by
  split
  · exact Nat.lt_of_le_of_lt hvalue hmeasure
  · simp only [Bytes.limit]
    omega

/-- What decides about the width of indices into a heap. -/
def heapMeasure (builder : Builder) : HeapKind → Nat
  | .strings => builder.strings.size
  | .guid => builder.guids.size / 16
  | .blob => builder.blobs.size

theorem testBit_heapSizes (builder : Builder) (kind : HeapKind) :
    builder.heapSizes.testBit kind.sizeBit = decide (0xFFFF < builder.heapMeasure kind) := by
  unfold heapSizes
  by_cases hstrings : 0xFFFF < builder.strings.size <;>
    by_cases hguids : 0xFFFF < builder.guids.size / 16 <;>
      by_cases hblobs : 0xFFFF < builder.blobs.size <;>
        cases kind <;> simp [heapMeasure, HeapKind.sizeBit, hstrings, hguids, hblobs, Nat.testBit]

theorem widths_heap (builder : Builder) (kind : HeapKind) :
    builder.widths.heap kind = if 0xFFFF < builder.heapMeasure kind then 4 else 2 := by
  simp only [widths, heapIndexWidth, testBit_heapSizes, decide_eq_true_eq]

theorem heapSizes_lt (builder : Builder) : builder.heapSizes < 256 := by
  unfold heapSizes
  repeat' split
  all_goals omega

/-! ## Row counts -/

def rowEntries (builder : Builder) : List (Nat × Nat) :=
  builder.addedRowCounts.map (fun row => (row.1.number, row.2)) ++ builder.extraRows

theorem rowCounts_eq (builder : Builder) :
    builder.rowCounts =
      builder.rowEntries.foldl (fun rows entry => rows.set entry.1 entry.2) RowCounts.empty := by
  rw [rowEntries, List.foldl_append, List.foldl_map]
  rfl

theorem width_bounds (builder : Builder) (column : Column) :
    0 < column.width builder.widths ∧ column.width builder.widths ≤ 4 := by
  cases column with
  | short => simp [Column.width]
  | long => simp [Column.width]
  | heap kind =>
      rw [Column.width, widths_heap]
      split <;> decide
  | row table =>
      simp only [Column.width, widths]
      split <;> decide

theorem rowWidth_bounds (builder : Builder) (columns : List Column) :
    columns.length ≤ rowWidth builder.widths columns ∧
      rowWidth builder.widths columns ≤ 4 * columns.length := by
  induction columns with
  | nil => exact ⟨Nat.le_refl 0, Nat.le_refl 0⟩
  | cons column columns ih =>
      have hcolumn := builder.width_bounds column
      rw [rowWidth, List.foldr_cons, ← rowWidth, List.length_cons]
      omega

theorem length_writeRows_bounds {Row : Type} [TableRow Row] (builder : Builder)
    (rows : Array Row) :
    rows.size * (TableRow.columns Row).length ≤ (writeRows builder.widths rows).length ∧
      (writeRows builder.widths rows).length ≤ rows.size * (4 * (TableRow.columns Row).length) := by
  obtain ⟨hlow, hhigh⟩ := builder.rowWidth_bounds (TableRow.columns Row)
  rw [TableRow.length_writeRows]
  exact ⟨Nat.mul_le_mul_left rows.size hlow, Nat.mul_le_mul_left rows.size hhigh⟩

/-- Rows have columns, and a header stands before them, so there are fewer rows than bytes. -/
theorem Bounded.added_succ_lt (hbounded : builder.Bounded) {entry : TableId × Nat}
    (hentry : entry ∈ builder.addedRowCounts) : entry.2 + 1 < Bytes.limit 4 := by
  refine Nat.lt_of_le_of_lt (Nat.le_trans ?_ builder.length_tableStream_le) hbounded.size_lt
  have hdocuments := (builder.length_writeRows_bounds builder.documents).1
  have hmethods := (builder.length_writeRows_bounds builder.methods).1
  have hscopes := (builder.length_writeRows_bounds builder.scopes).1
  have hslots := (builder.length_writeRows_bounds builder.localVariables).1
  have hconstants := (builder.length_writeRows_bounds builder.constants).1
  simp only [TableRow.columns, List.length_cons, List.length_nil]
    at hdocuments hmethods hscopes hslots hconstants
  simp only [tableStream, List.length_append, Bytes.length_toLittleEndian]
  simp only [addedRowCounts, List.mem_cons, List.not_mem_nil, or_false] at hentry
  rcases hentry with rfl | rfl | rfl | rfl | rfl <;> simp only <;> omega

/-- An image whose places fit into four bytes has no more rows than that. -/
theorem Bounded.countsFit (hbounded : builder.Bounded) : builder.CountsFit where
  added_lt _ hentry := Nat.lt_of_succ_lt (hbounded.added_succ_lt hentry)
  extraRows := hbounded.extraRows

theorem number_of_mem_addedRowCounts {entry : TableId × Nat}
    (hentry : entry ∈ builder.addedRowCounts) :
    0x30 ≤ entry.1.number ∧ entry.1.number ≤ 0x34 := by
  simp only [addedRowCounts, List.mem_cons, List.not_mem_nil, or_false] at hentry
  rcases hentry with rfl | rfl | rfl | rfl | rfl <;> simp [TableId.number]

theorem of_mem_rowEntries (hcounts : builder.CountsFit) {entry : Nat × Nat}
    (hentry : entry ∈ builder.rowEntries) :
    0x30 ≤ entry.1 ∧ entry.1 ≤ 0x37 ∧ entry.2 < Bytes.limit 4 := by
  rcases List.mem_append.1 hentry with hadded | hextra
  · obtain ⟨row, hrow, rfl⟩ := List.mem_map.1 hadded
    obtain ⟨hlow, hhigh⟩ := number_of_mem_addedRowCounts hrow
    exact ⟨hlow, Nat.le_trans hhigh (by decide), hcounts.added_lt _ hrow⟩
  · obtain ⟨hlow, hhigh, hcount⟩ := hcounts.extraRows entry hextra
    exact ⟨by omega, hhigh, hcount⟩

theorem lt_tableLimit_of_mem_rowEntries (hcounts : builder.CountsFit) {entry : Nat × Nat}
    (hentry : entry ∈ builder.rowEntries) : entry.1 < tableLimit ∧ entry.2 < Bytes.limit 4 := by
  obtain ⟨-, hhigh, hcount⟩ := of_mem_rowEntries hcounts hentry
  exact ⟨Nat.lt_of_le_of_lt hhigh (by decide), hcount⟩

theorem fits_rowCounts (hcounts : builder.CountsFit) : builder.rowCounts.Fits := by
  rw [rowCounts_eq]
  exact RowCounts.fits_foldl_set RowCounts.fits_empty fun _ hentry =>
    lt_tableLimit_of_mem_rowEntries hcounts hentry

theorem get_rowCounts (hcounts : builder.CountsFit) (number : Nat) :
    builder.rowCounts.get number =
      ((builder.rowEntries.filter fun entry => entry.1 = number).getLast?.map Prod.snd).getD 0 := by
  rw [rowCounts_eq, RowCounts.get_foldl_set RowCounts.fits_empty (fun _ hentry =>
    lt_tableLimit_of_mem_rowEntries hcounts hentry), RowCounts.get_empty]

theorem get_rowCounts_eq_zero (hcounts : builder.CountsFit) {number : Nat}
    (hnumber : number < 0x30 ∨ 0x37 < number) : builder.rowCounts.get number = 0 := by
  have hnone : (builder.rowEntries.filter fun entry => entry.1 = number) = [] := by
    rw [List.filter_eq_nil_iff]
    intro entry hentry hsame
    obtain ⟨hlow, hhigh, -⟩ := of_mem_rowEntries hcounts hentry
    have heq : entry.1 = number := by simpa using hsame
    omega
  rw [get_rowCounts hcounts, hnone]
  rfl

/-- No extra row counts replace those of the tables that were filled. -/
theorem get_rowCounts_added (hcounts : builder.CountsFit) {entry : TableId × Nat}
    (hentry : entry ∈ builder.addedRowCounts) :
    builder.rowCounts.get entry.1.number = entry.2 := by
  have hnumber := (number_of_mem_addedRowCounts hentry).2
  have hextra : (builder.extraRows.filter fun other => other.1 = entry.1.number) = [] := by
    rw [List.filter_eq_nil_iff]
    intro other hother hsame
    have hlow := (hcounts.extraRows other hother).1
    have heq : other.1 = entry.1.number := by simpa using hsame
    omega
  rw [get_rowCounts hcounts, rowEntries, List.filter_append, hextra, List.append_nil]
  simp only [addedRowCounts, List.mem_cons, List.not_mem_nil, or_false] at hentry ⊢
  rcases hentry with rfl | rfl | rfl | rfl | rfl <;> simp [TableId.number]

theorem mayHoldRows_of_le {number : Nat} (hlow : 0x30 ≤ number) (hhigh : number ≤ 0x37) :
    TableId.mayHoldRows number = true := by
  have hcases : number = 0x30 ∨ number = 0x31 ∨ number = 0x32 ∨ number = 0x33 ∨
      number = 0x34 ∨ number = 0x35 ∨ number = 0x36 ∨ number = 0x37 := by omega
  rcases hcases with rfl | rfl | rfl | rfl | rfl | rfl | rfl | rfl <;> rfl

/-! ## How large the image can be -/

theorem length_writeRowCounts_le (rows : RowCounts) : (writeRowCounts rows).length ≤ 256 := by
  have hnonzero : rows.nonzero.length ≤ 64 := by
    rw [RowCounts.nonzero, ← List.length_range (n := tableLimit)]
    exact List.length_filterMap_le _ _
  simp only [writeRowCounts, List.length_flatMap, Bytes.length_toLittleEndian, List.map_const',
    List.sum_replicate_nat]
  omega

theorem length_tableStream_le_rows (builder : Builder) :
    builder.tableStream.length ≤ 280 + 16 * builder.documents.size + 8 * builder.methods.size +
      24 * builder.scopes.size + 12 * builder.localVariables.size +
      8 * builder.constants.size := by
  have hcounts := length_writeRowCounts_le builder.rowCounts
  have hdocuments := (builder.length_writeRows_bounds builder.documents).2
  have hmethods := (builder.length_writeRows_bounds builder.methods).2
  have hscopes := (builder.length_writeRows_bounds builder.scopes).2
  have hslots := (builder.length_writeRows_bounds builder.localVariables).2
  have hconstants := (builder.length_writeRows_bounds builder.constants).2
  simp only [TableRow.columns, List.length_cons, List.length_nil]
    at hdocuments hmethods hscopes hslots hconstants
  simp only [tableStream, List.length_append, Bytes.length_toLittleEndian, List.length_cons,
    List.length_nil]
  omega

theorem streamStart_le (hextra : builder.extraStreams = []) : builder.streamStart ≤ 128 := by
  rw [streamStart, streams, hextra]
  cases builder.hasPdbStream <;>
    simp only [streamHeadersSize, if_true, if_false, Bool.false_eq_true, List.map_nil,
      List.append_nil, List.nil_append, List.cons_append, List.foldr_cons, List.foldr_nil,
      List.length_cons, List.length_nil] <;>
    decide +kernel

/-- The image is not much larger than the heaps and the rows. -/
theorem size_image_le (hextra : builder.extraStreams = []) :
    builder.image.size ≤ 1024 + builder.pdbId.size + builder.strings.size + builder.guids.size +
      builder.blobs.size + builder.tableStream.length := by
  have hstart := streamStart_le hextra
  have hcounts := length_writeRowCounts_le builder.referencedRowCounts
  rw [size_image, paddedStreams, streams, hextra]
  cases builder.hasPdbStream <;>
    simp only [length_padded, align4, pdbStream, List.flatMap_append, List.flatMap_cons,
      List.flatMap_nil, List.length_append, List.length_cons, List.length_nil,
      Bytes.length_toLittleEndian, Array.length_toList, ByteArray.size_data, if_true, if_false,
      Bool.false_eq_true, List.map_nil] <;>
    omega

/-! ## The header -/

def tableHeader (builder : Builder) : TableStreamHeader where
  heapSizes := builder.heapSizes
  valid := tableSet builder.rowCounts
  sorted := tableSet builder.rowCounts
  rows := builder.rowCounts

theorem unexpectedTable?_tableHeader (hcounts : builder.CountsFit) :
    Tables.unexpectedTable? builder.tableHeader = none := by
  rw [Tables.unexpectedTable?, List.find?_eq_none]
  intro number _ hunexpected
  simp only [tableHeader, Bool.and_eq_true, bne_iff_ne, Bool.not_eq_true'] at hunexpected
  have hnumber : 0x30 ≤ number ∧ number ≤ 0x37 := by
    by_cases hinside : 0x30 ≤ number ∧ number ≤ 0x37
    · exact hinside
    · exact absurd (get_rowCounts_eq_zero hcounts (by omega)) hunexpected.1
  rw [mayHoldRows_of_le hnumber.1 hnumber.2] at hunexpected
  cases hunexpected.2

/-- A reader computes the widths that the builder wrote with, although they count methods
differently. -/
theorem widths_tableHeader (hcounts : builder.CountsFit) :
    builder.tableHeader.widths = builder.widths := by
  have htable : builder.tableHeader.tableIndexWidth = builder.widths.table := by
    funext table
    have hpresent : (builder.tableHeader.isPresent table = true) ↔
        builder.rowCounts.get table.number ≠ 0 := by
      rw [TableStreamHeader.isPresent, tableHeader,
        RowCounts.testBit_tableSet (fits_rowCounts hcounts), bne_iff_ne]
    simp only [TableStreamHeader.tableIndexWidth, widths, hpresent]
    by_cases hmethodDef : table = .methodDef
    -- The file holds no table of methods, so its width comes out narrow for the reader too.
    · subst hmethodDef
      have hzero : builder.rowCounts.get TableId.methodDef.number = 0 :=
        get_rowCounts_eq_zero hcounts (.inl (by decide))
      simp [hzero]
    · by_cases hwide : 0xFFFF < builder.rowCounts.get table.number
      · have hmany : builder.rowCounts.get table.number ≠ 0 := by omega
        rw [if_pos ⟨hmany, hwide⟩, if_pos ⟨hmethodDef, hwide⟩]
      · rw [if_neg fun hboth => hwide hboth.2, if_neg fun hboth => hwide hboth.2]
  rw [TableStreamHeader.widths, htable]
  rfl

def tableHeaderBytes (builder : Builder) : List UInt8 :=
  Bytes.toLittleEndian 4 0 ++ [2, 0, UInt8.ofNat builder.heapSizes, 1] ++
    Bytes.toLittleEndian 8 (tableSet builder.rowCounts) ++
    Bytes.toLittleEndian 8 (tableSet builder.rowCounts) ++ writeRowCounts builder.rowCounts

def rowBytes (builder : Builder) : List UInt8 :=
  writeRows builder.widths builder.documents ++
    (writeRows builder.widths builder.methods ++
      (writeRows builder.widths builder.scopes ++
        (writeRows builder.widths builder.localVariables ++
          writeRows builder.widths builder.constants)))

theorem tableStream_eq (builder : Builder) :
    builder.tableStream = builder.tableHeaderBytes ++ builder.rowBytes := by
  simp only [tableStream, tableHeaderBytes, rowBytes, List.append_assoc]

/-! ## The rows -/

def tables (builder : Builder) : Tables where
  documents := ⟨builder.documents⟩
  methods := ⟨builder.methods⟩
  scopes := ⟨builder.scopes⟩
  «variables» := ⟨builder.localVariables⟩
  constants := ⟨builder.constants⟩

/-- Every cell of every row fits into its column. -/
structure RowsFit (builder : Builder) : Prop where
  documents : ∀ row ∈ builder.documents.toList, TableRow.Fits builder.widths row
  methods : ∀ row ∈ builder.methods.toList, TableRow.Fits builder.widths row
  scopes : ∀ row ∈ builder.scopes.toList, TableRow.Fits builder.widths row
  slots : ∀ row ∈ builder.localVariables.toList, TableRow.Fits builder.widths row
  constants : ∀ row ∈ builder.constants.toList, TableRow.Fits builder.widths row

/-- The rows as they come back. -/
def storedTables (builder : Builder) : Tables where
  documents := ⟨builder.documents.map (TableRow.stored builder.widths)⟩
  methods := ⟨builder.methods.map (TableRow.stored builder.widths)⟩
  scopes := ⟨builder.scopes.map (TableRow.stored builder.widths)⟩
  «variables» := ⟨builder.localVariables.map (TableRow.stored builder.widths)⟩
  constants := ⟨builder.constants.map (TableRow.stored builder.widths)⟩

theorem map_stored {Row : Type} [TableRow Row] {rows : Array Row}
    (hfits : ∀ row ∈ rows.toList, TableRow.Fits builder.widths row) :
    rows.map (TableRow.stored builder.widths) = rows := by
  apply Array.toList_inj.1
  rw [Array.toList_map, List.map_congr_left fun row hrow => TableRow.stored_eq (hfits row hrow),
    List.map_id']

theorem storedTables_eq (hfits : builder.RowsFit) : builder.storedTables = builder.tables := by
  rw [storedTables, map_stored hfits.documents, map_stored hfits.methods, map_stored hfits.scopes,
    map_stored hfits.slots, map_stored hfits.constants, tables]

theorem reads_rows (hcounts : builder.CountsFit) {Row : Type} [TableRow Row] {rows : Array Row}
    (hadded : (TableRow.table Row, rows.size) ∈ builder.addedRowCounts) :
    Reads (Rows.read builder.tableHeader) (writeRows builder.widths rows)
      ⟨rows.map (TableRow.stored builder.widths)⟩ := by
  rw [← widths_tableHeader hcounts]
  exact Rows.reads_read (get_rowCounts_added hcounts hadded)

theorem reads_tables (hcounts : builder.CountsFit) :
    Reads (Tables.read builder.tableHeader) builder.rowBytes builder.storedTables := by
  unfold Tables.read
  rw [unexpectedTable?_tableHeader hcounts]
  refine (reads_rows hcounts (by simp [addedRowCounts, TableRow.table])).bind ?_
  refine (reads_rows hcounts (by simp [addedRowCounts, TableRow.table])).bind ?_
  refine (reads_rows hcounts (by simp [addedRowCounts, TableRow.table])).bind ?_
  refine (reads_rows hcounts (by simp [addedRowCounts, TableRow.table])).bind ?_
  exact (reads_rows hcounts (by simp [addedRowCounts, TableRow.table])).bind_pure _

theorem run_readTableStream (hcounts : builder.CountsFit) :
    SymbolFile.readTableStream.run (Cursor.ofBytes builder.tableStream.toByteArray) =
      .ok (builder.tableHeader, builder.storedTables) := by
  have hheader : Reads TableStreamHeader.read builder.tableHeaderBytes builder.tableHeader :=
    TableStreamHeader.reads_read (fits_rowCounts hcounts) builder.heapSizes_lt
  have hreads : Reads SymbolFile.readTableStream builder.tableStream
      (builder.tableHeader, builder.storedTables) := by
    rw [tableStream_eq]
    unfold SymbolFile.readTableStream
    exact hheader.bind ((reads_tables hcounts).bind_pure _)
  exact run_of_readsAll hreads.readsAll

end PortablePdb.Builder
