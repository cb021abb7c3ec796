import PortablePdb.Bytes.Cursor

/-!
# Sets of tables and their row counts

A set of the 64 tables is a 64-bit number.  The row counts of the tables in a set are stored one
after the other, in the order of the table numbers; tables outside the set have no rows.
-/

namespace PortablePdb

def tableLimit : Nat := 64

/-- The row count of each table, at the position of its number. -/
structure RowCounts where
  counts : Array Nat
  deriving DecidableEq, Repr

namespace RowCounts

def get (rows : RowCounts) (number : Nat) : Nat :=
  rows.counts.getD number 0

def empty : RowCounts :=
  ⟨Array.replicate tableLimit 0⟩

def set (rows : RowCounts) (number count : Nat) : RowCounts :=
  ⟨rows.counts.setIfInBounds number count⟩

def nonzero (rows : RowCounts) : List (Nat × Nat) :=
  (List.range tableLimit).filterMap fun number =>
    if rows.get number = 0 then none else some (number, rows.get number)

/-- Appends the counts of the `tables` tables from number `first` on to those found before. -/
def readFrom (present : Nat) : (first tables : Nat) → (found : Array Nat) → Reader (Array Nat)
  | _, 0, found => pure found
  | first, tables + 1, found => do
      let count ← if present.testBit first then Reader.u32 else pure 0
      readFrom present (first + 1) tables (found.push count)

def read (present : Nat) : Reader RowCounts := do
  return ⟨← readFrom present 0 tableLimit #[]⟩

end RowCounts

end PortablePdb
