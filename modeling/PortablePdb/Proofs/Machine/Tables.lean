import PortablePdb.Proofs.Index.Results
import PortablePdb.Proofs.Machine.Headers
import PortablePdb.Table.Tables

/-!
# Tables in the machine

The machine keeps an empty row in front of the rows of a table, so that the row with a number stands
at that place and the count of rows is one less than that of places.  The width of a row number
depends on a count that is looked up by the number of its table.  Both are safe because of what the
headers and the tables themselves establish: there are 64 counts, and there is always a first row.
-/

namespace PortablePdb

/-- The rows of a table behind an empty one. -/
structure WordRows (Row : Type) where
  slots : Array Row

namespace WordRows

variable {Row : Type}

def count? (rows : WordRows Row) : Option Nat :=
  Word.sub? rows.slots.size 1

def index? (rows : WordRows Row) (id : Nat) : Option Row :=
  rows.slots[id]?

/-- The row with a number, of which none is zero. -/
def get? (rows : WordRows Row) (id : Nat) : Option Row :=
  if id = 0 then none else rows.slots[id]?

def entries (rows : WordRows Row) : List (Nat × Row) :=
  (rows.slots.toList.zipIdx.map fun entry => (entry.2, entry.1)).drop 1

end WordRows

structure WordTables where
  documents : WordRows DocumentRow
  methods : WordRows MethodRow
  scopes : WordRows ScopeRow
  «variables» : WordRows VariableRow
  constants : WordRows ConstantRow

namespace Rows

variable {Row : Type}

theorem length_entries (rows : Rows Row) : rows.entries.length = rows.count := by
  rw [entries, List.length_map, List.length_zipIdx, Array.length_toList]
  rfl

variable [Inhabited Row]

def words (rows : Rows Row) : WordRows Row :=
  ⟨#[default] ++ rows.toArray⟩

theorem count?_words (rows : Rows Row) : rows.words.count? = some rows.count := by
  rw [WordRows.count?, words, Array.size_append]
  exact (Word.sub?_of_le (Nat.le_add_right 1 rows.count)).trans
    (congrArg some (Nat.add_sub_cancel_left 1 rows.count))

theorem index?_words {id : Nat} (hid : id ≠ 0) (rows : Rows Row) :
    rows.words.index? id = rows.get? id := by
  obtain ⟨place, rfl⟩ := Nat.exists_eq_succ_of_ne_zero hid
  rw [get?_succ, WordRows.index?, words, Array.getElem?_append_right (Nat.le_add_left 1 place)]
  rfl

theorem get?_words (rows : Rows Row) (id : Nat) : rows.words.get? id = rows.get? id := by
  by_cases hid : id = 0
  · rw [WordRows.get?, get?, if_pos hid, if_pos hid]
  · rw [WordRows.get?, if_neg hid]
    exact index?_words hid rows

theorem entries_words (rows : Rows Row) : rows.words.entries = rows.entries := by
  rw [WordRows.entries, words, Array.toList_append, List.singleton_append, List.zipIdx_cons,
    List.map_cons, List.drop_one, List.tail_cons]
  rfl

theorem index?_of_mem_entries {rows : Rows Row} {entry : Nat × Row}
    (hentry : entry ∈ rows.entries) :
    rows.words.index? entry.1 = some entry.2 ∧ entry.2 ∈ rows.toArray := by
  obtain ⟨place, hplace⟩ := List.mem_iff_getElem?.1 hentry
  rw [getElem?_entries] at hplace
  obtain ⟨row, hrow, rfl⟩ := Option.map_eq_some_iff.1 hplace
  rw [index?_words (Nat.succ_ne_zero place), get?_succ]
  exact ⟨hrow, Array.mem_of_getElem? hrow⟩

/-- No place of a run that ends with the table is outside it. -/
theorem forall₂_index?_slice {rows : Rows Row} {start stop : Nat} (hstart : start ≠ 0)
    (hstop : stop ≤ rows.count + 1) :
    List.Forall₂ (fun id row => rows.words.index? id = some row)
      (List.range' start (stop - start)) (rows.slice start stop) := by
  rw [List.forall₂_iff_get]
  have hlength : (rows.slice start stop).length = stop - start := by
    rw [slice, Array.length_toList, Array.size_extract]
    simp only [count] at hstop
    omega
  refine ⟨by rw [hlength, List.length_range'], fun i hleft hright => ?_⟩
  have hid : start + i ≠ 0 := by omega
  rw [List.get_eq_getElem, List.get_eq_getElem, List.getElem_range', Nat.one_mul,
    index?_words hid, get?, if_neg hid]
  have hplace : start + i - 1 = start - 1 + i := by omega
  rw [hlength] at hright
  have hinside : start - 1 + i < rows.toArray.size := by
    simp only [count] at hstop
    omega
  simp only [slice, Array.getElem_toList, Array.getElem_extract, hplace,
    Array.getElem?_eq_getElem hinside]

end Rows

def Tables.words (tables : Tables) : WordTables where
  documents := tables.documents.words
  methods := tables.methods.words
  scopes := tables.scopes.words
  «variables» := tables.variables.words
  constants := tables.constants.words

namespace WordReader

variable {α : Type}

theorem follows_remaining_bind {program : Nat → WordReader α} {reader : Reader α}
    (hfollows : ∀ left, Follows (program left) reader) :
    Follows (remaining >>= program) reader where
  implements cursor hsize := by
    have hleft : Word.sub? cursor.words.stop cursor.words.position = some cursor.remaining :=
      Word.sub?_of_le cursor.position_le_stop
    simp only [remaining, bind_apply, look_apply, hleft, certain_some_apply]
    exact (hfollows cursor.remaining).implements cursor hsize
  behind := (hfollows 0).behind

/-! ## Cells -/

def tableIndexWidth? (header : TableStreamHeader) (table : TableId) : Option Nat := do
  let flags ← shiftRight? header.valid table.number
  if flags &&& 1 = 0 then return 2
  let count ← header.rows.counts[table.number]?
  return if 0xFFFF < count then 4 else 2

def cell (header : TableStreamHeader) : Column → WordReader Nat
  | .short => littleEndian 2
  | .long => littleEndian 4
  | .heap kind => heapIndex (UInt8.ofNat header.heapSizes) kind
  | .row table => do
      let width ← certain (tableIndexWidth? header table)
      if width = 4 then littleEndian 4 else littleEndian 2

def cells (header : TableStreamHeader) : List Column → WordReader (List Nat)
  | [] => pure []
  | column :: columns => do
      let first ← cell header column
      let others ← cells header columns
      return first :: others

variable {header : TableStreamHeader}

theorem getElem?_counts (hheader : header.Narrow) (table : TableId) :
    header.rows.counts[table.number]? = some (header.rowCount table) :=
  RowCounts.getElem?_counts hheader.size_eq table

theorem tableIndexWidth?_eq (hheader : header.Narrow) (table : TableId) :
    tableIndexWidth? header table = some (header.tableIndexWidth table) := by
  have hflags : shiftRight? header.valid table.number = some (header.valid >>> table.number) :=
    if_pos table.number_lt
  rw [tableIndexWidth?, hflags, TableStreamHeader.tableIndexWidth, getElem?_counts hheader]
  change (if header.valid >>> table.number &&& 1 = 0 then _ else _) = _
  by_cases hpresent : header.isPresent table
  · have hbit := (shiftRight_and_one header.valid table.number).2 hpresent
    rw [if_neg hbit]
    by_cases hwide : 0xFFFF < header.rowCount table
    · rw [if_pos ⟨hpresent, hwide⟩]
      exact congrArg some (if_pos hwide)
    · rw [if_neg fun hboth => hwide hboth.2]
      exact congrArg some (if_neg hwide)
  · have hbit := mt (shiftRight_and_one header.valid table.number).1 hpresent
    rw [if_pos (not_not.1 hbit), if_neg fun hboth => hpresent hboth.1]
    rfl

theorem follows_cell (hheader : header.Narrow) (column : Column) :
    Follows (cell header column) (Reader.littleEndian (column.width header.widths)) := by
  cases column with
  | short => exact follows_littleEndian 2
  | long => exact follows_littleEndian 4
  | heap kind =>
      have himplements := implements_heapIndex (UInt8.ofNat header.heapSizes) kind
      rw [UInt8.toNat_ofNat_of_lt' hheader.heapSizes] at himplements
      exact .of_takes himplements (Reader.littleEndian_takes _)
  | row table =>
      rw [cell, tableIndexWidth?_eq hheader]
      refine follows_certain_bind ?_
      change Follows _ (Reader.littleEndian (header.tableIndexWidth table))
      unfold TableStreamHeader.tableIndexWidth
      by_cases hwide : header.isPresent table ∧ 0xFFFF < header.rowCount table
      · rw [if_pos hwide, if_pos rfl]
        exact follows_littleEndian 4
      · rw [if_neg hwide, if_neg (by decide)]
        exact follows_littleEndian 2

theorem follows_cells (hheader : header.Narrow) (columns : List Column) :
    Follows (cells header columns) (readCells header.widths columns) := by
  induction columns with
  | nil => exact follows_pure []
  | cons column columns ih =>
      exact (follows_cell hheader column).bind fun first _ => ih.bind fun others _ => follows_pure _

/-! ## Tables -/

def row (Row : Type) [TableRow Row] (header : TableStreamHeader) : WordReader Row := do
  return TableRow.ofCells (← cells header (TableRow.columns Row))

def pushRow (Row : Type) [TableRow Row] (header : TableStreamHeader) (slots : Array Row) :
    WordReader (Array Row) := do
  return slots.push (← row Row header)

/-- Reads the rows of a table, for which there is place in advance. -/
def rows (Row : Type) [TableRow Row] [Inhabited Row] (header : TableStreamHeader) :
    WordReader (WordRows Row) := do
  let count ← certain header.rows.counts[(TableRow.table Row).number]?
  let left ← remaining
  let _ ← certain (Word.add? (min count left) 1)
  let slots ← repeated (pushRow Row header) count #[default]
  return ⟨slots⟩

theorem rowCount_lt (hheader : header.Narrow) (table : TableId) :
    header.rowCount table < 0x100000000 :=
  hheader.count_lt _ (Array.mem_of_getElem? (getElem?_counts hheader table))

theorem follows_row (hheader : header.Narrow) (Row : Type) [TableRow Row] :
    Follows (row Row header) (TableRow.read header.widths : Reader Row) :=
  (follows_cells hheader _).bind fun _ _ => follows_pure _

theorem follows_rows (hheader : header.Narrow) (Row : Type) [TableRow Row] [Inhabited Row] :
    Follows (rows Row header) (Rows.words <$> (Rows.read header : Reader (Rows Row))) := by
  have hcount := rowCount_lt hheader (TableRow.table Row)
  rw [rows, getElem?_counts hheader]
  refine follows_certain_bind (follows_remaining_bind fun left => ?_)
  rw [Word.add?_of_lt (by simp only [Word.limit]; omega)]
  refine follows_certain_bind ?_
  have hstep (found : Array Row) :
      Follows (pushRow Row header (#[default] ++ found))
        ((fun value => #[default] ++ found.push value) <$> TableRow.read header.widths) := by
    simp only [← Array.push_append]
    exact (follows_row hheader Row).map _
  rw [Rows.read, map_bind]
  exact (Follows.repeated hstep _ #[]).bind_map fun found _ => follows_pure _

def tables (header : TableStreamHeader) : WordReader WordTables := do
  if let some number := Tables.unexpectedTable? header then fail (.unexpectedTable number)
  let documents ← rows DocumentRow header
  let methods ← rows MethodRow header
  let scopes ← rows ScopeRow header
  let «variables» ← rows VariableRow header
  let constants ← rows ConstantRow header
  return { documents, methods, scopes, «variables», constants }

theorem follows_tables (hheader : header.Narrow) :
    Follows (tables header) (Tables.words <$> Tables.read header) := by
  unfold tables Tables.read
  cases Tables.unexpectedTable? header with
  | some number => exact ⟨fun _ _ => rfl, fun _ => ⟨rfl, Nat.le_refl _⟩⟩
  | none =>
      simp only [map_bind]
      refine (follows_rows hheader DocumentRow).bind_map fun documents _ => ?_
      refine (follows_rows hheader MethodRow).bind_map fun methods _ => ?_
      refine (follows_rows hheader ScopeRow).bind_map fun scopes _ => ?_
      refine (follows_rows hheader VariableRow).bind_map fun «variables» _ => ?_
      exact (follows_rows hheader ConstantRow).bind_map fun constants _ => follows_pure _

end WordReader

/-! ## What the cells of a row are below -/

/-- The numbers that are computed with have 32 bits. -/
structure Tables.Narrow (tables : Tables) : Prop where
  languages : ∀ row ∈ tables.documents.toArray, row.language < 0x100000000
  hashAlgorithms : ∀ row ∈ tables.documents.toArray, row.hashAlgorithm < 0x100000000
  startOffsets : ∀ row ∈ tables.scopes.toArray, row.startOffset < 0x100000000
  lengths : ∀ row ∈ tables.scopes.toArray, row.length < 0x100000000
  documents_lt : tables.documents.count < 0x100000000
  methods_lt : tables.methods.count < 0x100000000
  scopes_lt : tables.scopes.count < 0x100000000
  variables_lt : tables.variables.count < 0x100000000
  constants_lt : tables.constants.count < 0x100000000

theorem forall_mem_replicate {α : Type} {reader : Reader α} {property : α → Prop}
    (hreader : ∀ value, reader.Yields value → property value) {count : Nat}
    {found values : Array α} (hvalues : (reader.replicate count found).Yields values)
    (hfound : ∀ value ∈ found, property value) :
    values.size = found.size + count ∧ ∀ value ∈ values, property value := by
  induction count generalizing found with
  | zero =>
      obtain ⟨cursor, next, hread⟩ := hvalues
      obtain ⟨rfl, -⟩ := Reader.pure_eq_ok hread
      exact ⟨rfl, hfound⟩
  | succ count ih =>
      obtain ⟨cursor, next, hread⟩ := hvalues
      obtain ⟨value, middle, hvalue, hread⟩ := Reader.bind_eq_ok hread
      have hpush : ∀ other ∈ found.push value, property other := by
        intro other hother
        rcases Array.mem_push.1 hother with hother | rfl
        · exact hfound other hother
        · exact hreader other ⟨_, _, hvalue⟩
      obtain ⟨hsize, hall⟩ := ih ⟨_, _, hread⟩ hpush
      refine ⟨?_, hall⟩
      rw [hsize, Array.size_push]
      omega

theorem cell_lt {header : TableStreamHeader} {column : Column} {cell : Nat}
    (hcell : (Reader.littleEndian (column.width header.widths)).Yields cell) :
    cell < 0x100000000 := by
  have hlt := lt_of_littleEndian hcell
  have hwidth : column.width header.widths = 2 ∨ column.width header.widths = 4 := by
    cases column with
    | short => exact .inl rfl
    | long => exact .inr rfl
    | heap kind =>
        change (if _ then 4 else 2) = 2 ∨ (if _ then 4 else 2) = 4
        split
        · exact .inr rfl
        · exact .inl rfl
    | row table =>
        change (if _ then 4 else 2) = 2 ∨ (if _ then 4 else 2) = 4
        split
        · exact .inr rfl
        · exact .inl rfl
  rcases hwidth with hwidth | hwidth
  · rw [hwidth] at hlt
    exact Nat.lt_trans hlt (by decide)
  · rw [hwidth] at hlt
    exact hlt

theorem forall_mem_readCells {header : TableStreamHeader} {columns : List Column}
    {cells : List Nat} (hcells : (readCells header.widths columns).Yields cells) :
    ∀ cell ∈ cells, cell < 0x100000000 := by
  induction columns generalizing cells with
  | nil =>
      obtain ⟨cursor, next, hread⟩ := hcells
      obtain ⟨rfl, -⟩ := Reader.pure_eq_ok hread
      simp
  | cons column columns ih =>
      obtain ⟨cursor, next, hread⟩ := hcells
      obtain ⟨cell, afterCell, hcell, hread⟩ := Reader.bind_eq_ok hread
      obtain ⟨others, afterOthers, hothers, hread⟩ := Reader.bind_eq_ok hread
      obtain ⟨rfl, -⟩ := Reader.pure_eq_ok hread
      exact List.forall_mem_cons.2 ⟨cell_lt ⟨_, _, hcell⟩, ih ⟨_, _, hothers⟩⟩

/-- What every row made of cells of 32 bits has is true of all rows of a table. -/
theorem forall_mem_rows {Row : Type} [TableRow Row] {header : TableStreamHeader} {rows : Rows Row}
    (hrows : (Rows.read header : Reader (Rows Row)).Yields rows) {property : Row → Prop}
    (hproperty : ∀ cells : List Nat, (∀ cell ∈ cells, cell < 0x100000000) →
      property (TableRow.ofCells cells)) :
    rows.count = header.rowCount (TableRow.table Row) ∧ ∀ row ∈ rows.toArray, property row := by
  have hrow (row : Row) (hrow : (TableRow.read header.widths).Yields row) : property row := by
    obtain ⟨cursor, next, hread⟩ := hrow
    obtain ⟨cells, middle, hcells, hread⟩ := Reader.bind_eq_ok hread
    obtain ⟨rfl, -⟩ := Reader.pure_eq_ok hread
    exact hproperty cells (forall_mem_readCells ⟨_, _, hcells⟩)
  obtain ⟨cursor, next, hread⟩ := hrows
  obtain ⟨found, middle, hfound, hread⟩ := Reader.bind_eq_ok hread
  obtain ⟨rfl, -⟩ := Reader.pure_eq_ok hread
  obtain ⟨hsize, hall⟩ := forall_mem_replicate hrow ⟨_, _, hfound⟩ (by simp)
  exact ⟨hsize.trans (Nat.zero_add _), hall⟩

theorem DocumentRow.lt_of_cells {cells : List Nat} (hcells : ∀ cell ∈ cells, cell < 0x100000000) :
    (TableRow.ofCells cells : DocumentRow).language < 0x100000000 ∧
      (TableRow.ofCells cells : DocumentRow).hashAlgorithm < 0x100000000 := by
  simp only [TableRow.ofCells]
  split
  · exact ⟨hcells _ (by simp), hcells _ (by simp)⟩
  · exact ⟨by decide, by decide⟩

theorem ScopeRow.lt_of_cells {cells : List Nat} (hcells : ∀ cell ∈ cells, cell < 0x100000000) :
    (TableRow.ofCells cells : ScopeRow).startOffset < 0x100000000 ∧
      (TableRow.ofCells cells : ScopeRow).length < 0x100000000 := by
  simp only [TableRow.ofCells]
  split
  · exact ⟨hcells _ (by simp), hcells _ (by simp)⟩
  · exact ⟨by decide, by decide⟩

theorem narrow_of_tables {header : TableStreamHeader} (hheader : header.Narrow) {tables : Tables}
    (htables : (Tables.read header).Yields tables) : tables.Narrow := by
  obtain ⟨cursor, next, hread⟩ := htables
  unfold Tables.read at hread
  cases hunexpected : Tables.unexpectedTable? header with
  | some number =>
      rw [hunexpected] at hread
      cases hread
  | none =>
      rw [hunexpected] at hread
      obtain ⟨documents, _, hdocuments, hread⟩ := Reader.bind_eq_ok hread
      obtain ⟨methods, _, hmethods, hread⟩ := Reader.bind_eq_ok hread
      obtain ⟨scopes, _, hscopes, hread⟩ := Reader.bind_eq_ok hread
      obtain ⟨«variables», _, hvariables, hread⟩ := Reader.bind_eq_ok hread
      obtain ⟨constants, _, hconstants, hread⟩ := Reader.bind_eq_ok hread
      obtain ⟨rfl, -⟩ := Reader.pure_eq_ok hread
      have hdocument : ∀ row ∈ documents.toArray,
          row.language < 0x100000000 ∧ row.hashAlgorithm < 0x100000000 :=
        (forall_mem_rows ⟨_, _, hdocuments⟩ fun _ hcells => DocumentRow.lt_of_cells hcells).2
      have hscope : ∀ row ∈ scopes.toArray,
          row.startOffset < 0x100000000 ∧ row.length < 0x100000000 :=
        (forall_mem_rows ⟨_, _, hscopes⟩ fun _ hcells => ScopeRow.lt_of_cells hcells).2
      have hcount {Row : Type} [TableRow Row] {rows : Rows Row}
          (hrows : (Rows.read header : Reader (Rows Row)).Yields rows) :
          rows.count < 0x100000000 := by
        obtain ⟨hcount, -⟩ :=
          @forall_mem_rows Row _ header rows hrows (fun _ => True) fun _ _ => trivial
        exact hcount ▸ WordReader.rowCount_lt hheader _
      exact {
        languages := fun row hrow => (hdocument row hrow).1
        hashAlgorithms := fun row hrow => (hdocument row hrow).2
        startOffsets := fun row hrow => (hscope row hrow).1
        lengths := fun row hrow => (hscope row hrow).2
        documents_lt := hcount ⟨_, _, hdocuments⟩
        methods_lt := hcount ⟨_, _, hmethods⟩
        scopes_lt := hcount ⟨_, _, hscopes⟩
        variables_lt := hcount ⟨_, _, hvariables⟩
        constants_lt := hcount ⟨_, _, hconstants⟩ }

end PortablePdb
