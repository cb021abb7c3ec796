import PortablePdb.ReadError

/-!
# The runs of locals that scopes own

Each scope names the first row of its run of locals, and the run goes on to the first row of the
next scope's run, or to the end of the table.  A run whose start lies outside the table, or behind
its end, is malformed; the other runs stay as they are.
-/

namespace PortablePdb

/-- The rows numbered from `start` up to and without `stop`. -/
structure LocalRun where
  start : Nat
  stop : Nat
  deriving DecidableEq, Repr

namespace LocalRun

def ids (run : LocalRun) : List Nat :=
  List.range' run.start (run.stop - run.start)

/-- The run of the scope with row number `scope`, which starts at `start`, when the next scope's
run starts at `next?`. -/
def bounded (table : TableId) (rows scope start : Nat) (next? : Option Nat) :
    Except ReadError LocalRun :=
  if start = 0 ∨ rows + 1 < start then .error ⟨.rowIndexOutOfBounds table start, []⟩
  else
    let stop := match next? with
      | some next => min next (rows + 1)
      | none => rows + 1
    if stop < start then .error ⟨.overlappingLocalRun table scope, []⟩ else .ok ⟨start, stop⟩

/-- For each start the one after it, and nothing for the last. -/
def successors (starts : List Nat) : List (Option Nat) :=
  starts.tail.map some ++ [none]

/-- The run that starts at each of `starts`, in a table with `rows` rows. -/
def all (table : TableId) (rows : Nat) (starts : List Nat) : List (Except ReadError LocalRun) :=
  (starts.zip (successors starts)).mapIdx fun i entry =>
    bounded table rows (i + 1) entry.1 entry.2

theorem getElem?_successors {starts : List Nat} {i : Nat} (h : i < starts.length) :
    (successors starts)[i]? = some starts[i + 1]? := by
  cases starts with
  | nil => simp at h
  | cons start rest =>
      by_cases hlast : i < rest.length
      · simp [successors, List.getElem?_append, hlast]
      · have hend : i = rest.length := by
          simp only [List.length_cons] at h
          omega
        subst hend
        simp [successors]

theorem getElem?_all (table : TableId) (rows : Nat) (starts : List Nat) (i : Nat) :
    (all table rows starts)[i]? =
      starts[i]?.map fun start => bounded table rows (i + 1) start starts[i + 1]? := by
  rw [all, List.getElem?_mapIdx, List.zip, List.getElem?_zipWith]
  by_cases h : i < starts.length
  · simp [getElem?_successors h, h]
  · simp [List.getElem?_eq_none (Nat.le_of_not_lt h)]

end LocalRun

end PortablePdb
