import PortablePdb.Proofs.Header.Places
import PortablePdb.Table.Tables

/-!
# Where the tables keep their rows

Main statement: `Tables.read_laidOut`.  The format gives each row a place: the decoded tables
follow one after the other, a table's rows have one width, and a row's cells stand in the order of
its columns.  The reader knows no places and goes from cell to cell; it arrives at the same ones,
because each of its parts has a fixed width.
-/

namespace PortablePdb

open Reader

/-! ## Widths -/

def indexBytes (wide : Bool) : Nat :=
  if wide then 4 else 2

namespace TableStreamHeader

/-- The bytes of an index into the heap with a given bit of the heap sizes. -/
def heapBytes (header : TableStreamHeader) (bit : Nat) : Nat :=
  indexBytes (header.heapSizes.testBit bit)

/-- The bytes of a row number of the table with a given number. -/
def rowNumberBytes (header : TableStreamHeader) (number : Nat) : Nat :=
  indexBytes (header.valid.testBit number && 65535 < header.rows.get number)

/-- The bytes of a row of a decoded table. -/
def rowBytes (header : TableStreamHeader) : TableId → Nat
  | .document => 2 * header.heapBytes 2 + 2 * header.heapBytes 1
  | .methodDebugInformation => header.rowNumberBytes 0x30 + header.heapBytes 2
  | .localScope => header.rowNumberBytes 0x06 + header.rowNumberBytes 0x35 +
      header.rowNumberBytes 0x33 + header.rowNumberBytes 0x34 + 8
  | .localVariable => 4 + header.heapBytes 0
  | .localConstant => header.heapBytes 0 + header.heapBytes 2
  | .methodDef | .importScope | .stateMachineMethod | .customDebugInformation => 0

def tableBytes (header : TableStreamHeader) (table : TableId) : Nat :=
  header.rowCount table * header.rowBytes table

/-- The decoded tables in the order in which they stand. -/
def decodedTables : List TableId :=
  [.document, .methodDebugInformation, .localScope, .localVariable, .localConstant]

def decodedBytes (header : TableStreamHeader) : Nat :=
  decodedTables.foldr (fun table bytes => header.tableBytes table + bytes) 0

/-- The place of a decoded table, counted from the end of the header. -/
def tableOffset (header : TableStreamHeader) (table : TableId) : Nat :=
  (decodedTables.takeWhile fun other => other ≠ table).foldr
    (fun other bytes => header.tableBytes other + bytes) 0

/-- The table has rows although only tables of the debugging extension may have some. -/
def Unexpected (header : TableStreamHeader) (number : Nat) : Prop :=
  header.rows.get number ≠ 0 ∧ ¬(0x30 ≤ number ∧ number ≤ 0x37)

theorem width_heap (header : TableStreamHeader) (kind : HeapKind) :
    header.widths.heap kind = header.heapBytes kind.sizeBit := rfl

theorem width_row (header : TableStreamHeader) (table : TableId) :
    header.widths.table table = header.rowNumberBytes table.number := by
  by_cases hpresent : header.valid.testBit table.number = true <;>
    by_cases hmany : 65535 < header.rows.get table.number <;>
      simp [widths, tableIndexWidth, rowNumberBytes, indexBytes, isPresent, rowCount, hpresent,
        hmany]

/-- The columns of the decoded tables are as wide together as the format says. -/
theorem rowWidths_eq (header : TableStreamHeader) :
    rowWidth header.widths (TableRow.columns DocumentRow) = header.rowBytes .document ∧
    rowWidth header.widths (TableRow.columns MethodRow) =
      header.rowBytes .methodDebugInformation ∧
    rowWidth header.widths (TableRow.columns ScopeRow) = header.rowBytes .localScope ∧
    rowWidth header.widths (TableRow.columns VariableRow) = header.rowBytes .localVariable ∧
    rowWidth header.widths (TableRow.columns ConstantRow) = header.rowBytes .localConstant := by
  simp only [rowWidth, TableRow.columns, List.foldr_cons, List.foldr_nil, Column.width, width_heap,
    width_row, rowBytes, HeapKind.sizeBit, TableId.number]
  omega

theorem le_decodedBytes (header : TableStreamHeader) {table : TableId}
    (htable : table ∈ decodedTables) :
    header.tableOffset table + header.tableBytes table ≤ header.decodedBytes := by
  simp only [decodedTables, List.mem_cons, List.not_mem_nil, or_false] at htable
  rcases htable with rfl | rfl | rfl | rfl | rfl <;>
    simp [tableOffset, decodedBytes, decodedTables] <;> omega

end TableStreamHeader

/-! ## Cells and rows -/

/-- The cells of the columns when the first one stands at `offset`. -/
def cellsAt (widths : IndexWidths) (bytes : List UInt8) : (offset : Nat) → List Column → List Nat
  | _, [] => []
  | offset, column :: columns =>
      Bytes.numberAt bytes offset (column.width widths) ::
        cellsAt widths bytes (offset + column.width widths) columns

theorem cellsAt_drop (widths : IndexWidths) (bytes : List UInt8) (start offset : Nat)
    (columns : List Column) :
    cellsAt widths (bytes.drop start) offset columns =
      cellsAt widths bytes (start + offset) columns := by
  induction columns generalizing offset with
  | nil => rfl
  | cons column columns ih => rw [cellsAt, cellsAt, Bytes.numberAt_drop, ih, Nat.add_assoc]

theorem fixedWidth_readCells (widths : IndexWidths) (columns : List Column) :
    FixedWidth (readCells widths columns) (rowWidth widths columns)
      fun unread => cellsAt widths unread 0 columns := by
  induction columns with
  | nil => exact fixedWidth_pure []
  | cons column columns ih =>
      refine ((fixedWidth_littleEndian (column.width widths)).bind fun cell =>
        ih.map fun cells => cell :: cells).of_eq rfl fun unread => ?_
      rw [cellsAt_drop, cellsAt, Nat.zero_add, Nat.add_zero]

section

variable {Row : Type} [TableRow Row]

/-- The row whose cells start at `offset`. -/
def TableRow.rowAt (widths : IndexWidths) (bytes : List UInt8) (offset : Nat) : Row :=
  ofCells (cellsAt widths bytes offset (columns Row))

theorem TableRow.rowAt_drop (widths : IndexWidths) (bytes : List UInt8) (start offset : Nat) :
    (rowAt widths (bytes.drop start) offset : Row) = rowAt widths bytes (start + offset) := by
  rw [rowAt, rowAt, cellsAt_drop]

theorem TableRow.fixedWidth_read (widths : IndexWidths) :
    FixedWidth (read widths : Reader Row) (rowWidth widths (columns Row))
      fun unread => rowAt widths unread 0 :=
  (fixedWidth_readCells widths (columns Row)).map ofCells

/-! ## Tables -/

namespace Rows

/-- The rows of a table that starts at `offset`. -/
def rowsAt (header : TableStreamHeader) (bytes : List UInt8) (offset : Nat) : Rows Row :=
  ⟨((List.range (header.rowCount (TableRow.table Row))).map fun index =>
    TableRow.rowAt header.widths bytes
      (offset + index * rowWidth header.widths (TableRow.columns Row))).toArray⟩

theorem fixedWidth_read (header : TableStreamHeader) :
    FixedWidth (read header : Reader (Rows Row))
      (header.rowCount (TableRow.table Row) * rowWidth header.widths (TableRow.columns Row))
      fun unread => rowsAt header unread 0 := by
  refine (((TableRow.fixedWidth_read header.widths).replicate _ #[]).map Rows.mk).of_eq rfl
    fun unread => ?_
  simp only [rowsAt, TableRow.rowAt_drop, Array.empty_append, Nat.add_zero, Nat.zero_add]

theorem rowsAt_drop (header : TableStreamHeader) (bytes : List UInt8) (start : Nat) :
    (rowsAt header (bytes.drop start) 0 : Rows Row) = rowsAt header bytes start := by
  simp only [rowsAt, TableRow.rowAt_drop, Nat.zero_add]

/-- The place of the row with number `id` in the table of its kind. -/
def place (header : TableStreamHeader) (Row : Type) [TableRow Row] (id : Nat) : Nat :=
  header.tableOffset (TableRow.table Row) + (id - 1) * header.rowBytes (TableRow.table Row)

/-- Each row of the table has the cells that stand at its place, which is counted from `start`,
and is what is read there. -/
structure LaidOut (header : TableStreamHeader) (start : Cursor) (rows : Rows Row) : Prop where
  count : rows.count = header.rowCount (TableRow.table Row)
  row : ∀ id, 1 ≤ id → id ≤ rows.count →
    rows.get? id = some (TableRow.rowAt header.widths start.unread (place header Row id))
  read : ∀ id, 1 ≤ id → id ≤ rows.count → ∃ row cursor last,
    start.Reaches (place header Row id) cursor ∧ TableRow.read header.widths cursor = .ok row last ∧
      rows.get? id = some row

theorem laidOut_rowsAt {header : TableStreamHeader} {start : Cursor}
    (hwidth : rowWidth header.widths (TableRow.columns Row) =
      header.rowBytes (TableRow.table Row))
    (hinside : header.tableOffset (TableRow.table Row) + header.tableBytes (TableRow.table Row) ≤
      start.remaining) :
    (rowsAt header start.unread (header.tableOffset (TableRow.table Row)) :
      Rows Row).LaidOut header start := by
  have hcount : (rowsAt header start.unread (header.tableOffset (TableRow.table Row)) :
      Rows Row).count = header.rowCount (TableRow.table Row) := by simp [rowsAt, Rows.count]
  have hrow : ∀ id, 1 ≤ id → id ≤ header.rowCount (TableRow.table Row) →
      (rowsAt header start.unread (header.tableOffset (TableRow.table Row)) : Rows Row).get? id =
        some (TableRow.rowAt header.widths start.unread (place header Row id)) := by
    intro id hlow hhigh
    obtain ⟨index, rfl⟩ := Nat.exists_eq_add_of_le' hlow
    rw [get?, if_neg (Nat.succ_ne_zero index), place, Nat.add_sub_cancel, rowsAt, hwidth]
    simp [Nat.lt_of_succ_le hhigh]
  rw [← hcount] at hrow
  refine ⟨hcount, hrow, fun id hlow hhigh => ?_⟩
  have hfinal : place header Row id + header.rowBytes (TableRow.table Row) ≤ start.remaining := by
    have hrows := Nat.mul_le_mul_right (header.rowBytes (TableRow.table Row))
      (show (id - 1) + 1 ≤ header.rowCount (TableRow.table Row) by omega)
    rw [Nat.add_mul, Nat.one_mul] at hrows
    rw [TableStreamHeader.tableBytes] at hinside
    rw [place]
    omega
  have hplace : place header Row id ≤ start.remaining := by omega
  have hroom : rowWidth header.widths (TableRow.columns Row) ≤
      (start.advance _ hplace).remaining := by
    rw [Cursor.remaining_advance]
    omega
  refine ⟨_, _, _, ⟨hplace, rfl⟩, (TableRow.fixedWidth_read header.widths).reads _ hroom, ?_⟩
  rw [Cursor.unread_advance, TableRow.rowAt_drop, Nat.add_zero]
  exact hrow id hlow hhigh

end Rows

end

namespace TableStreamHeader

theorem mayHoldRows_iff (number : Nat) :
    TableId.mayHoldRows number = true ↔ 0x30 ≤ number ∧ number ≤ 0x37 := by
  simp only [TableId.mayHoldRows, TableId.debugging, TableId.number, List.any_cons, List.any_nil,
    Bool.or_false, Bool.or_eq_true, beq_iff_eq]
  omega

theorem unexpectedTable?_eq_none_iff {header : TableStreamHeader}
    (hfew : ∀ number, tableLimit ≤ number → header.rows.get number = 0) :
    Tables.unexpectedTable? header = none ↔ ∀ number, ¬header.Unexpected number := by
  simp only [Tables.unexpectedTable?, List.find?_eq_none, List.mem_range, Bool.and_eq_true,
    bne_iff_ne, Bool.not_eq_true', Bool.eq_false_iff, ne_eq, mayHoldRows_iff]
  refine ⟨fun hnone number hunexpected => ?_, fun hnone number _ => hnone number⟩
  refine hnone number (Nat.lt_of_not_le fun hlarge => ?_) hunexpected
  exact hunexpected.1 (hfew number hlarge)

theorem unexpectedTable?_eq_some {header : TableStreamHeader} {number : Nat}
    (hfound : Tables.unexpectedTable? header = some number) :
    header.Unexpected number ∧ ∀ smaller < number, ¬header.Unexpected smaller := by
  obtain ⟨hnumber, -, hsmaller⟩ := List.find?_range_eq_some.1 hfound
  simp only [Bool.and_eq_true, bne_iff_ne, Bool.not_eq_true', Bool.eq_false_iff, ne_eq,
    mayHoldRows_iff] at hnumber hsmaller
  exact ⟨hnumber, hsmaller⟩

end TableStreamHeader

namespace Tables

/-- The tables that start at the front of the bytes. -/
def tablesAt (header : TableStreamHeader) (bytes : List UInt8) : Tables where
  documents := Rows.rowsAt header bytes (header.tableOffset .document)
  methods := Rows.rowsAt header bytes (header.tableOffset .methodDebugInformation)
  scopes := Rows.rowsAt header bytes (header.tableOffset .localScope)
  «variables» := Rows.rowsAt header bytes (header.tableOffset .localVariable)
  constants := Rows.rowsAt header bytes (header.tableOffset .localConstant)

theorem fixedWidth_read {header : TableStreamHeader}
    (hexpected : unexpectedTable? header = none) :
    FixedWidth (read header) header.decodedBytes (tablesAt header) := by
  unfold read
  rw [hexpected]
  refine ((Rows.fixedWidth_read header).bind fun documents =>
    (Rows.fixedWidth_read header).bind fun methods =>
      (Rows.fixedWidth_read header).bind fun scopes =>
        (Rows.fixedWidth_read header).bind fun entries =>
          (Rows.fixedWidth_read header).map fun constants =>
            Tables.mk documents methods scopes entries constants).of_eq ?_ fun unread => ?_
  · obtain ⟨hdocuments, hmethods, hscopes, hentries, hconstants⟩ := header.rowWidths_eq
    rw [hdocuments, hmethods, hscopes, hentries, hconstants]
    rfl
  · obtain ⟨hdocuments, hmethods, hscopes, hentries, hconstants⟩ := header.rowWidths_eq
    rw [hdocuments, hmethods, hscopes, hentries]
    simp only [List.drop_drop, Rows.rowsAt_drop, Nat.add_assoc]
    rfl

theorem read_of_unexpected {header : TableStreamHeader} {number : Nat}
    (hunexpected : unexpectedTable? header = some number) (cursor : Cursor) :
    read header cursor = .error ⟨.unexpectedTable number, []⟩ cursor := by
  unfold read
  rw [hunexpected]
  rfl

structure LaidOut (header : TableStreamHeader) (start : Cursor) (tables : Tables) : Prop where
  documents : tables.documents.LaidOut header start
  methods : tables.methods.LaidOut header start
  scopes : tables.scopes.LaidOut header start
  «variables» : tables.variables.LaidOut header start
  constants : tables.constants.LaidOut header start

theorem laidOut_tablesAt {header : TableStreamHeader} {start : Cursor}
    (hinside : header.decodedBytes ≤ start.remaining) :
    (tablesAt header start.unread).LaidOut header start := by
  have hend {table : TableId} (htable : table ∈ TableStreamHeader.decodedTables) :
      header.tableOffset table + header.tableBytes table ≤ start.remaining :=
    Nat.le_trans (header.le_decodedBytes htable) hinside
  obtain ⟨hdocuments, hmethods, hscopes, hentries, hconstants⟩ := header.rowWidths_eq
  exact {
    documents := Rows.laidOut_rowsAt hdocuments (hend (by decide))
    methods := Rows.laidOut_rowsAt hmethods (hend (by decide))
    scopes := Rows.laidOut_rowsAt hscopes (hend (by decide))
    «variables» := Rows.laidOut_rowsAt hentries (hend (by decide))
    constants := Rows.laidOut_rowsAt hconstants (hend (by decide)) }

/-- A header that ends at `next`, and what the tables behind it are read as, by their places. -/
structure ReadByPlace (cursor : Cursor) (header : TableStreamHeader) (next : Cursor) : Prop where
  header_stored : header.StoredIn cursor.unread
  header_end : cursor.Reaches (24 + 4 * header.presentBelow tableLimit) next
  read_iff : (∃ tables last, read header next = .ok tables last) ↔
    (∀ number, ¬header.Unexpected number) ∧ header.decodedBytes ≤ next.remaining
  laidOut : ∀ tables last, read header next = .ok tables last →
    next.Reaches header.decodedBytes last ∧ tables.LaidOut header next
  error_eq : ∀ error last, read header next = .error error last →
    (∃ number, header.Unexpected number ∧ (∀ smaller < number, ¬header.Unexpected smaller) ∧
      error = ⟨.unexpectedTable number, []⟩) ∨
    (∀ number, ¬header.Unexpected number) ∧ error = ⟨.invalidLength, []⟩

/-- Behind every header that is accepted, the tables are read from their places, and a failure
names the first table that is not expected, or else a lack of bytes. -/
theorem read_laidOut {cursor next : Cursor} {header : TableStreamHeader}
    (hheader : TableStreamHeader.read cursor = .ok header next) :
    ReadByPlace cursor header next := by
  obtain ⟨hstored, hend⟩ := TableStreamHeader.storedIn_of_read hheader
  have hnone := TableStreamHeader.unexpectedTable?_eq_none_iff hstored.rowCount_eq_zero
  cases hunexpected : unexpectedTable? header with
  | none =>
      have hexpected := hnone.1 hunexpected
      have hfixed := fixedWidth_read hunexpected
      refine ⟨hstored, hend, ⟨?_, ?_⟩, fun tables last hread => ?_, fun error last hread => ?_⟩
      · rintro ⟨tables, last, hread⟩
        obtain ⟨hinside, -, -⟩ := hfixed.eq_ok hread
        exact ⟨hexpected, hinside⟩
      · rintro ⟨-, hinside⟩
        exact ⟨_, _, hfixed.reads next hinside⟩
      · obtain ⟨hinside, rfl, rfl⟩ := hfixed.eq_ok hread
        exact ⟨⟨hinside, rfl⟩, laidOut_tablesAt hinside⟩
      · exact .inr ⟨hexpected, (hfixed.eq_error hread).2⟩
  | some number =>
      have hfirst := TableStreamHeader.unexpectedTable?_eq_some hunexpected
      have hfails := read_of_unexpected hunexpected next
      refine ⟨hstored, hend, ⟨?_, ?_⟩, fun tables last hread => ?_, fun error last hread => ?_⟩
      · rintro ⟨tables, last, hread⟩
        rw [hfails] at hread
        cases hread
      · rintro ⟨hexpected, -⟩
        exact absurd hfirst.1 (hexpected number)
      · rw [hfails] at hread
        cases hread
      · rw [hfails] at hread
        cases hread
        exact .inl ⟨number, hfirst.1, hfirst.2, rfl⟩

/-- A document, a scope and two variables, with wide indices of strings and of import scopes. -/
def wideStream : ByteArray :=
  [0, 0, 0, 0, 2, 0, 1, 1,
    0, 0, 0, 0, 0, 0, 0x2D, 0, 0, 0, 0, 0, 0, 0, 0, 0,
    1, 0, 0, 0, 1, 0, 0, 0, 2, 0, 0, 0, 0x70, 0x11, 1, 0,
    1, 0, 0, 0, 0, 0, 0, 0,
    1, 0, 5, 0, 0, 0, 1, 0, 1, 0, 0, 0, 0, 0, 9, 0, 0, 0,
    0, 0, 0, 0, 1, 0, 0, 0,
    1, 0, 1, 0, 0x34, 0x12, 1, 0].toByteArray

theorem read_laidOut_wideStream : ∃ header next tables last,
    TableStreamHeader.read (Cursor.ofBytes wideStream) = .ok header next ∧
      ReadByPlace (Cursor.ofBytes wideStream) header next ∧
      read header next = .ok tables last ∧
      next.position = 40 ∧ header.decodedBytes = 42 ∧ last.position = 82 ∧
      tables.scopes.get? 1 = some ⟨1, 5, 1, 1, 0, 9⟩ ∧
      tables.variables.get? 2 = some ⟨1, 1, 0x11234⟩ := by
  have hcheck : (match TableStreamHeader.read (Cursor.ofBytes wideStream) with
    | .ok header next =>
        match read header next with
        | .ok tables last => decide (next.position = 40 ∧ header.decodedBytes = 42 ∧
            last.position = 82 ∧ tables.scopes.get? 1 = some ⟨1, 5, 1, 1, 0, 9⟩ ∧
            tables.variables.get? 2 = some ⟨1, 1, 0x11234⟩)
        | .error _ _ => false
    | .error _ _ => false) = true := by decide +kernel
  cases hheader : TableStreamHeader.read (Cursor.ofBytes wideStream) with
  | error error next => simp only [hheader, Bool.false_eq_true] at hcheck
  | ok header next =>
      cases hread : read header next with
      | error error last => simp only [hheader, hread, Bool.false_eq_true] at hcheck
      | ok tables last =>
          simp only [hheader, hread, decide_eq_true_eq] at hcheck
          exact ⟨header, next, tables, last, rfl, read_laidOut hheader, hread, hcheck⟩

end Tables

end PortablePdb
