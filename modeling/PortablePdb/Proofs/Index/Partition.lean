import Mathlib.Data.List.Nodup
import PortablePdb.Proofs.Index.Readable

/-!
# Runs that share out a table

Each run of locals is checked against the next start only.  The checks of all runs together say that
the starts never fall and never leave the table, and then the runs lie side by side, from the first
start to the end of the table.  Main statement: `runs_partition`.
-/

namespace PortablePdb

namespace LocalRun

variable {table : TableId} {rows : Nat}

/-- The starts never fall, and each is a row of the table or the place behind its last row. -/
structure StartsInOrder (rows : Nat) (starts : List Nat) : Prop where
  nondecreasing : starts.Pairwise (· ≤ ·)
  inside : ∀ start ∈ starts, 1 ≤ start ∧ start ≤ rows + 1

/-- Each run stops where the next one starts, and the last one at the end of the table. -/
def sideBySide (rows : Nat) : List Nat → List LocalRun
  | [] => []
  | start :: rest => ⟨start, rest.head?.getD (rows + 1)⟩ :: sideBySide rows rest

/-- The runs share out the rows from `first` to `rows`, and hold no other ones. -/
structure Partition (first rows : Nat) (runs : List LocalRun) : Prop where
  covers : ∀ id, first ≤ id → id ≤ rows →
    ∃! i : Nat, ∃ run : LocalRun, runs[i]? = some run ∧ id ∈ run.ids
  within : ∀ run ∈ runs, ∀ id ∈ run.ids, first ≤ id ∧ id ≤ rows
  concatenation : runs.flatMap ids = List.range' first (rows + 1 - first)

/-! ## Runs one by one -/

/-- The runs of scopes whose row numbers go up from `scope`. -/
def allFrom (table : TableId) (rows : Nat) : Nat → List Nat → List (Except ReadError LocalRun)
  | _, [] => []
  | scope, start :: rest =>
      bounded table rows scope start rest.head? :: allFrom table rows (scope + 1) rest

theorem getElem?_allFrom (scope : Nat) (starts : List Nat) (i : Nat) :
    (allFrom table rows scope starts)[i]? =
      starts[i]?.map fun start => bounded table rows (scope + i) start starts[i + 1]? := by
  induction starts generalizing scope i with
  | nil => rfl
  | cons start rest ih =>
      cases i with
      | zero => simp [allFrom, List.head?_eq_getElem?]
      | succ i =>
          have hscope : scope + 1 + i = scope + (i + 1) := by omega
          rw [allFrom, List.getElem?_cons_succ, ih, hscope]
          rfl

theorem all_eq_allFrom (starts : List Nat) :
    all table rows starts = allFrom table rows 1 starts := by
  refine List.ext_getElem? fun i => ?_
  rw [getElem?_all, getElem?_allFrom, Nat.add_comm 1 i]

/-! ## Starts in order -/

theorem startsInOrder_nil (rows : Nat) : StartsInOrder rows [] :=
  ⟨.nil, fun _ hmem => absurd hmem List.not_mem_nil⟩

theorem StartsInOrder.head_le {starts : List Nat} (hstarts : StartsInOrder rows starts) :
    starts.head?.getD (rows + 1) ≤ rows + 1 := by
  cases starts with
  | nil => exact Nat.le_refl _
  | cons start rest => exact (hstarts.inside start List.mem_cons_self).2

/-- Before starts in order, a run stops where the next one starts. -/
theorem StartsInOrder.between_eq {rest : List Nat} (hrest : StartsInOrder rows rest)
    (start : Nat) :
    between rows start rest.head? = ⟨start, rest.head?.getD (rows + 1)⟩ := by
  rw [between, Nat.min_eq_left hrest.head_le]

/-- The check of one run against the next start says where its start stands among all later ones. -/
theorem startsInOrder_cons {start : Nat} {rest : List Nat} :
    StartsInOrder rows (start :: rest) ↔
      (between rows start rest.head?).InOrder ∧ StartsInOrder rows rest := by
  constructor
  · intro hstarts
    obtain ⟨hlater, hnondecreasing⟩ := List.pairwise_cons.1 hstarts.nondecreasing
    have hrest : StartsInOrder rows rest :=
      ⟨hnondecreasing, fun later hlater => hstarts.inside later (List.mem_cons_of_mem _ hlater)⟩
    obtain ⟨hpositive, hend⟩ := hstarts.inside start List.mem_cons_self
    rw [hrest.between_eq]
    refine ⟨⟨hpositive, ?_⟩, hrest⟩
    cases rest with
    | nil => exact hend
    | cons next others => exact hlater next List.mem_cons_self
  · rintro ⟨hrun, hrest⟩
    rw [hrest.between_eq] at hrun
    obtain ⟨hpositive, hstop⟩ := hrun
    constructor
    · refine List.pairwise_cons.2 ⟨fun later hlater => ?_, hrest.nondecreasing⟩
      -- the next start is the least of the later ones
      cases hlater with
      | head others => exact hstop
      | tail next hothers =>
          exact Nat.le_trans hstop ((List.pairwise_cons.1 hrest.nondecreasing).1 later hothers)
    · intro other hother
      cases hother with
      | head => exact ⟨hpositive, Nat.le_trans hstop hrest.head_le⟩
      | tail _ hlater => exact hrest.inside other hlater

theorem allFrom_of_startsInOrder {starts : List Nat} (hstarts : StartsInOrder rows starts)
    (scope : Nat) :
    allFrom table rows scope starts = (sideBySide rows starts).map Except.ok := by
  induction starts generalizing scope with
  | nil => rfl
  | cons start rest ih =>
      obtain ⟨hrun, hrest⟩ := startsInOrder_cons.1 hstarts
      have hbounded : bounded table rows scope start rest.head? =
          .ok ⟨start, rest.head?.getD (rows + 1)⟩ :=
        bounded_eq_ok_iff.2 ⟨(hrest.between_eq start).symm, by rwa [← hrest.between_eq start]⟩
      rw [allFrom, hbounded, ih hrest, sideBySide, List.map_cons]

theorem startsInOrder_of_allFrom {scope : Nat} {starts : List Nat}
    (hnone : ∀ error, .error error ∉ allFrom table rows scope starts) :
    StartsInOrder rows starts := by
  induction starts generalizing scope with
  | nil => exact startsInOrder_nil rows
  | cons start rest ih =>
      have hrest : StartsInOrder rows rest :=
        ih fun error herror => hnone error (List.mem_cons_of_mem _ herror)
      cases hbounded : bounded table rows scope start rest.head? with
      | error error =>
          refine absurd ?_ (hnone error)
          rw [allFrom, hbounded]
          exact List.mem_cons_self
      | ok run =>
          obtain ⟨rfl, hrun⟩ := bounded_eq_ok_iff.1 hbounded
          exact startsInOrder_cons.2 ⟨hrun, hrest⟩

theorem all_of_startsInOrder {starts : List Nat} (hstarts : StartsInOrder rows starts) :
    all table rows starts = (sideBySide rows starts).map Except.ok := by
  rw [all_eq_allFrom, allFrom_of_startsInOrder hstarts]

example : all .localVariable 12 [1, 5, 9] = [.ok ⟨1, 5⟩, .ok ⟨5, 9⟩, .ok ⟨9, 13⟩] := rfl

/-- No run is refused exactly if the starts are in order. -/
theorem error_notMem_all_iff {starts : List Nat} :
    (∀ error, .error error ∉ all table rows starts) ↔ StartsInOrder rows starts := by
  constructor
  · intro hnone
    rw [all_eq_allFrom] at hnone
    exact startsInOrder_of_allFrom hnone
  · intro hstarts error herror
    rw [all_of_startsInOrder hstarts] at herror
    obtain ⟨run, -, hrun⟩ := List.mem_map.1 herror
    cases hrun

/-! ## The rows of runs -/

theorem ids_append {start stop last : Nat} (hstart : start ≤ stop) (hstop : stop ≤ last) :
    ids ⟨start, stop⟩ ++ ids ⟨stop, last⟩ = ids ⟨start, last⟩ := by
  have hmiddle : start + (stop - start) = stop := by omega
  have hlength : stop - start + (last - stop) = last - start := by omega
  calc ids ⟨start, stop⟩ ++ ids ⟨stop, last⟩
      = List.range' start (stop - start) ++
          List.range' (start + (stop - start)) (last - stop) := by rw [hmiddle]; rfl
    _ = List.range' start (stop - start + (last - stop)) := List.range'_append_1
    _ = ids ⟨start, last⟩ := by rw [hlength]; rfl

theorem flatMap_ids_sideBySide {starts : List Nat} (hstarts : StartsInOrder rows starts) :
    (sideBySide rows starts).flatMap ids = ids ⟨starts.head?.getD (rows + 1), rows + 1⟩ := by
  induction starts with
  | nil => simp [sideBySide, ids]
  | cons start rest ih =>
      obtain ⟨hrun, hrest⟩ := startsInOrder_cons.1 hstarts
      rw [hrest.between_eq] at hrun
      rw [sideBySide, List.flatMap_cons, ih hrest, ids_append hrun.2 hrest.head_le]
      rfl

theorem not_lt_of_mem_ids {runs : List LocalRun} {i j id : Nat} {first second : LocalRun}
    (hnodup : (runs.flatMap ids).Nodup) (hfirst : runs[i]? = some first)
    (hsecond : runs[j]? = some second) (hidFirst : id ∈ first.ids) (hidSecond : id ∈ second.ids) :
    ¬i < j := by
  intro hlt
  have hdisjoint := (List.nodup_flatMap.1 hnodup).2
  obtain ⟨hi, rfl⟩ := List.getElem?_eq_some_iff.1 hfirst
  obtain ⟨hj, rfl⟩ := List.getElem?_eq_some_iff.1 hsecond
  exact List.pairwise_iff_getElem.1 hdisjoint i j hi hj hlt hidFirst hidSecond

/-- A row that stands once in all runs together stands in one run only. -/
theorem existsUnique_run_of_mem {runs : List LocalRun} {id : Nat}
    (hnodup : (runs.flatMap ids).Nodup) (hid : id ∈ runs.flatMap ids) :
    ∃! i : Nat, ∃ run : LocalRun, runs[i]? = some run ∧ id ∈ run.ids := by
  obtain ⟨run, hrun, hidRun⟩ := List.mem_flatMap.1 hid
  obtain ⟨i, hi⟩ := List.mem_iff_getElem?.1 hrun
  refine ⟨i, ⟨run, hi, hidRun⟩, ?_⟩
  rintro j ⟨other, hj, hidOther⟩
  have hbefore := not_lt_of_mem_ids hnodup hj hi hidOther hidRun
  have hafter := not_lt_of_mem_ids hnodup hi hj hidRun hidOther
  omega

theorem partition_of_flatMap_ids {runs : List LocalRun} {first : Nat}
    (hruns : runs.flatMap ids = List.range' first (rows + 1 - first)) :
    Partition first rows runs where
  covers id hfirst hrows := by
    apply existsUnique_run_of_mem
    · rw [hruns]
      exact List.nodup_range'
    · rw [hruns, List.mem_range'_1]
      omega
  within run hrun id hid := by
    have hmem : id ∈ runs.flatMap ids := List.mem_flatMap.2 ⟨run, hrun, hid⟩
    rw [hruns, List.mem_range'_1] at hmem
    omega
  concatenation := hruns

end LocalRun

/-- No run is refused exactly if the starts never fall and never leave the table.  Then every row
from the first start to the end of the table is in exactly one run. -/
theorem runs_partition (table : TableId) (rows first : Nat) (rest : List Nat) :
    ((∀ error, .error error ∉ LocalRun.all table rows (first :: rest)) ↔
      LocalRun.StartsInOrder rows (first :: rest)) ∧
    ((∀ error, .error error ∉ LocalRun.all table rows (first :: rest)) →
      ∃ runs, LocalRun.all table rows (first :: rest) = runs.map Except.ok ∧
        LocalRun.Partition first rows runs) := by
  refine ⟨LocalRun.error_notMem_all_iff, fun hnone => ?_⟩
  have hstarts := LocalRun.error_notMem_all_iff.1 hnone
  refine ⟨LocalRun.sideBySide rows (first :: rest), LocalRun.all_of_startsInOrder hstarts, ?_⟩
  exact LocalRun.partition_of_flatMap_ids (LocalRun.flatMap_ids_sideBySide hstarts)

/-- Two scopes start at row 2, of which the first has no rows, and two behind the last row. -/
theorem runs_partition_repeatedStarts :
    LocalRun.StartsInOrder 6 [2, 2, 5, 7, 7] ∧
      (∀ error, .error error ∉ LocalRun.all .localVariable 6 [2, 2, 5, 7, 7]) ∧
      ∃ runs, LocalRun.all .localVariable 6 [2, 2, 5, 7, 7] = runs.map Except.ok ∧
        LocalRun.Partition 2 6 runs := by
  obtain ⟨hiff, hpartition⟩ := runs_partition .localVariable 6 2 [2, 5, 7, 7]
  have hstarts : LocalRun.StartsInOrder 6 [2, 2, 5, 7, 7] := ⟨by decide, by decide⟩
  exact ⟨hstarts, hiff.2 hstarts, hpartition (hiff.2 hstarts)⟩

end PortablePdb
