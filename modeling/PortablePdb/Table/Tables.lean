import PortablePdb.Table.Row

/-!
# The tables of a file

Rows are numbered from one.  The five decoded tables stand in the stream one after the other; the
other tables of the debugging extension follow and are left unread, and any other table with rows
makes the stream invalid.
-/

namespace PortablePdb

structure Rows (Row : Type) where
  toArray : Array Row
  deriving DecidableEq, Repr

namespace Rows

variable {Row : Type}

def empty : Rows Row :=
  ⟨#[]⟩

def count (rows : Rows Row) : Nat :=
  rows.toArray.size

def isEmpty (rows : Rows Row) : Bool :=
  rows.count == 0

/-- The row with number `id`, of which the first is 1. -/
def get? (rows : Rows Row) (id : Nat) : Option Row :=
  if id = 0 then none else rows.toArray[id - 1]?

def entries (rows : Rows Row) : List (Nat × Row) :=
  rows.toArray.toList.zipIdx 1 |>.map fun entry => (entry.2, entry.1)

/-- The rows numbered from `start` up to and without `stop`. -/
def slice (rows : Rows Row) (start stop : Nat) : List Row :=
  (rows.toArray.extract (start - 1) (stop - 1)).toList

/-- Reads as many rows as the header gives to the table. -/
def read [TableRow Row] (header : TableStreamHeader) : Reader (Rows Row) := do
  let rowReader := TableRow.read header.widths
  return ⟨← rowReader.replicate (header.rowCount (TableRow.table Row)) #[]⟩

end Rows

structure Tables where
  documents : Rows DocumentRow
  methods : Rows MethodRow
  scopes : Rows ScopeRow
  «variables» : Rows VariableRow
  constants : Rows ConstantRow
  deriving DecidableEq, Repr

namespace Tables

def empty : Tables :=
  ⟨.empty, .empty, .empty, .empty, .empty⟩

/-- The first table that has rows although it may not. -/
def unexpectedTable? (header : TableStreamHeader) : Option Nat :=
  (List.range tableLimit).find? fun number =>
    header.rows.get number != 0 && !TableId.mayHoldRows number

def read (header : TableStreamHeader) : Reader Tables := do
  if let some number := unexpectedTable? header then Reader.fail (.unexpectedTable number)
  let documents ← Rows.read header
  let methods ← Rows.read header
  let scopes ← Rows.read header
  let «variables» ← Rows.read header
  let constants ← Rows.read header
  return { documents, methods, scopes, «variables», constants }

end Tables

end PortablePdb
