import Mathlib.Data.List.Forall2
import PortablePdb.Builder.Image
import PortablePdb.Proofs.Bytes.Reading
import PortablePdb.Table.Tables

/-!
# Rows read back

Of each cell of a row as much is read back as its column has room for.  A row whose cells fit into
the widths of their columns is read as it was written, and so is a table of such rows.
-/

namespace PortablePdb

open Reader

/-- What is left of the cells in columns of these widths. -/
def storedCells (widths : IndexWidths) (columns : List Column) (cells : List Nat) : List Nat :=
  List.zipWith (fun column cell => cell % Bytes.limit (column.width widths)) columns cells

theorem reads_readCells {widths : IndexWidths} {columns : List Column} {cells : List Nat}
    (hlength : cells.length = columns.length) :
    Reads (readCells widths columns) (writeCells widths columns cells)
      (storedCells widths columns cells) := by
  induction columns generalizing cells with
  | nil =>
      obtain rfl := List.length_eq_zero_iff.1 hlength
      exact reads_pure []
  | cons column columns ih =>
      obtain ⟨cell, rest, rfl⟩ := List.exists_cons_of_length_eq_add_one hlength
      exact (reads_littleEndian_mod _ cell).bind ((ih (Nat.succ.inj hlength)).bind_pure _)

theorem storedCells_eq {widths : IndexWidths} {columns : List Column} {cells : List Nat}
    (hcells : List.Forall₂ (fun column cell => cell < Bytes.limit (column.width widths))
      columns cells) : storedCells widths columns cells = cells := by
  induction hcells with
  | nil => rfl
  | cons hcell _ ih => rw [storedCells, List.zipWith_cons_cons, Nat.mod_eq_of_lt hcell,
      ← storedCells, ih]

theorem length_writeCells {widths : IndexWidths} {columns : List Column} {cells : List Nat}
    (hlength : cells.length = columns.length) :
    (writeCells widths columns cells).length = rowWidth widths columns := by
  induction columns generalizing cells with
  | nil =>
      obtain rfl := List.length_eq_zero_iff.1 hlength
      rfl
  | cons column columns ih =>
      obtain ⟨cell, rest, rfl⟩ := List.exists_cons_of_length_eq_add_one hlength
      have hrest := ih (Nat.succ.inj hlength)
      rw [writeCells, List.length_append, Bytes.length_toLittleEndian, hrest]
      rfl

namespace TableRow

variable {Row : Type} [TableRow Row]

/-- Every cell of the row fits into its column. -/
def Fits (widths : IndexWidths) (row : Row) : Prop :=
  List.Forall₂ (fun column cell => cell < Bytes.limit (column.width widths)) (columns Row)
    (cells row)

/-- What is left of the row in columns of these widths. -/
def stored (widths : IndexWidths) (row : Row) : Row :=
  ofCells (storedCells widths (columns Row) (cells row))

theorem reads_read (widths : IndexWidths) (row : Row) :
    Reads (read widths) (write widths row) (stored widths row) :=
  (reads_readCells (length_cells row)).bind_pure ofCells

theorem stored_eq {widths : IndexWidths} {row : Row} (hfits : Fits widths row) :
    stored widths row = row := by
  rw [stored, storedCells_eq hfits, ofCells_cells]

theorem length_write (widths : IndexWidths) (row : Row) :
    (write widths row).length = rowWidth widths (columns Row) :=
  length_writeCells (length_cells row)

theorem length_writeRows (widths : IndexWidths) (rows : Array Row) :
    (Builder.writeRows widths rows).length = rows.size * rowWidth widths (columns Row) := by
  simp [Builder.writeRows, List.length_flatMap, length_write]

end TableRow

theorem Rows.reads_read {Row : Type} [TableRow Row] {header : TableStreamHeader}
    {rows : Array Row} (hcount : header.rowCount (TableRow.table Row) = rows.size) :
    Reads (Rows.read header) (Builder.writeRows header.widths rows)
      ⟨rows.map (TableRow.stored header.widths)⟩ := by
  have hrow (row : Row) (_ : row ∈ rows.toList) := TableRow.reads_read header.widths row
  have hrows := reads_replicate_map hrow #[]
  rw [Array.length_toList, ← hcount, Array.empty_append, ← Array.toList_map,
    Array.toArray_toList] at hrows
  exact hrows.bind_pure Rows.mk

end PortablePdb
