import PortablePdb.DocumentIndex
import PortablePdb.Proofs.Index.Readable
import PortablePdb.Proofs.Machine.Points
import PortablePdb.Proofs.Machine.Tables

/-!
# Rows that are put together in the machine

A scope takes its variables and constants from their tables by number, without looking whether there
are such rows.  There are, because the runs that it takes them from have been cut to the table:
a run that was not refused starts behind the empty row and stops at the end of the table.
-/

namespace PortablePdb

structure WordHeaps where
  strings : ByteArray
  blobs : ByteArray
  guids : ByteArray

def Heaps.words (heaps : Heaps) : WordHeaps where
  strings := heaps.strings
  blobs := heaps.blobs
  guids := heaps.guids

/-- All rows of the run are rows of a table with so many of them. -/
structure LocalRun.Inside (rows : Nat) (run : LocalRun) : Prop where
  start_ne_zero : run.start ≠ 0
  stop_le : run.stop ≤ rows + 1

namespace Guarded

variable {α : Type}

/-! ## Runs -/

/-- The run of the scope at place `i`, in a table that ends before `tableEnd`. -/
def localRun (table : TableId) (tableEnd : Nat) (starts : List Nat) (start i : Nat) :
    Guarded LocalRun := do
  if start = 0 ∨ tableEnd < start then throw ⟨.rowIndexOutOfBounds table start, []⟩
  let following ← certain (Word.add? i 1)
  let stop := match starts[following]? with
    | some next => min next tableEnd
    | none => tableEnd
  let scope ← certain (Word.add? i 1)
  if stop < start then throw ⟨.overlappingLocalRun table scope, []⟩
  return ⟨start, stop⟩

def localRuns (table : TableId) (rows : Nat) (starts : List Nat) :
    Option (List (Except ReadError LocalRun)) := do
  let tableEnd ← Word.add? rows 1
  starts.zipIdx.mapM fun entry => (localRun table tableEnd starts entry.1 entry.2).outcome

theorem gives_localRun {i : Nat} (hi : i + 1 < Word.limit) (table : TableId) (rows : Nat)
    (starts : List Nat) (start : Nat) :
    Gives (localRun table (rows + 1) starts start i)
      (LocalRun.bounded table rows (i + 1) start starts[i + 1]?) := by
  have hnext : Word.add? i 1 = some (i + 1) := Word.add?_of_lt hi
  unfold localRun LocalRun.bounded
  rw [hnext]
  by_cases houtside : start = 0 ∨ rows + 1 < start
  · rw [if_pos houtside, if_pos houtside]
    rfl
  · rw [if_neg houtside, if_neg houtside]
    simp only [bind_certain]
    cases starts[i + 1]? with
    | none =>
        by_cases hover : rows + 1 < start
        · exact absurd (.inr hover) houtside
        · simp only [if_neg hover]
          rfl
    | some next =>
        by_cases hover : min next (rows + 1) < start
        · simp only [if_pos hover]
          rfl
        · simp only [if_neg hover]
          rfl

theorem localRuns_eq {rows : Nat} {starts : List Nat} (hrows : rows + 1 < Word.limit)
    (hstarts : starts.length < Word.limit) (table : TableId) :
    localRuns table rows starts = some (LocalRun.all table rows starts) := by
  have hruns : ∀ entry ∈ starts.zipIdx,
      (localRun table (rows + 1) starts entry.1 entry.2).outcome =
        some (LocalRun.bounded table rows (entry.2 + 1) entry.1 starts[entry.2 + 1]?) := by
    intro entry hentry
    have hplace := List.snd_lt_of_mem_zipIdx hentry
    exact (gives_localRun (by omega) table rows starts entry.1).outcome_eq
  rw [localRuns, Word.add?_of_lt hrows, Option.bind_eq_bind, Option.bind_some, mapM_eq_some hruns]
  refine congrArg some (List.ext_getElem? fun i => ?_)
  rw [List.getElem?_map, List.getElem?_zipIdx, LocalRun.getElem?_all, Option.map_map]
  simp only [Function.comp_def, Nat.zero_add]

theorem inside_of_mem_all {table : TableId} {rows : Nat} {starts : List Nat} {run : LocalRun}
    (hrun : .ok run ∈ LocalRun.all table rows starts) : run.Inside rows := by
  obtain ⟨i, hi⟩ := List.mem_iff_getElem?.1 hrun
  rw [LocalRun.getElem?_all] at hi
  obtain ⟨start, -, hbounded⟩ := Option.map_eq_some_iff.1 hi
  obtain ⟨rfl, horder⟩ := LocalRun.bounded_eq_ok_iff.1 hbounded
  exact ⟨Nat.ne_of_gt horder.1, Nat.min_le_right _ _⟩

/-! ## Scopes -/

/-- Computes something from each row of a run. -/
def eachRow {Row : Type} (rows : WordRows Row) (run : LocalRun) (compute : Row → Guarded α) :
    Guarded (List α) :=
  run.ids.mapM fun id => certain (rows.index? id) >>= compute

theorem gives_eachRow {Row : Type} [Inhabited Row] {rows : Rows Row} {run : LocalRun}
    (hrun : run.Inside rows.count) {compute : Row → Guarded α} {read : Row → Except ReadError α}
    (hcompute : ∀ row, Gives (compute row) (read row)) :
    Gives (eachRow rows.words run compute) ((rows.slice run.start run.stop).mapM read) := by
  have hrows := Rows.forall₂_index?_slice hrun.start_ne_zero hrun.stop_le
  refine Gives.mapM (hrows.imp fun id row hrow => ?_)
  rw [hrow, bind_certain]
  exact hcompute row

def localVariable (heaps : WordHeaps) (row : VariableRow) : Guarded LocalVariable := do
  let name ← stringAt heaps.strings row.name
  return { index := row.index, attributes := row.attributes, name }

def localConstant (heaps : WordHeaps) (row : ConstantRow) : Guarded LocalConstant := do
  let name ← stringAt heaps.strings row.name
  return { name, signature := ← blobAt heaps.blobs row.signature }

def scope (tables : WordTables) (heaps : WordHeaps) (row : ScopeRow)
    (variableRun constantRun : Except ReadError LocalRun) : Guarded Scope := do
  let variableIds ← ofExcept variableRun
  let constantIds ← ofExcept constantRun
  let «variables» ← eachRow tables.variables variableIds (localVariable heaps)
  let constants ← eachRow tables.constants constantIds (localConstant heaps)
  return { startOffset := row.startOffset, length := row.length, «variables», constants }

/-- The scopes in row order, each with the number of its method. -/
def scopes (tables : WordTables) (heaps : WordHeaps) :
    Option (List (Nat × Except ReadError Scope)) := do
  let rows := tables.scopes.entries.map Prod.snd
  let variableCount ← tables.variables.count?
  let variableRuns ← localRuns .localVariable variableCount (rows.map ScopeRow.variableList)
  let constantCount ← tables.constants.count?
  let constantRuns ← localRuns .localConstant constantCount (rows.map ScopeRow.constantList)
  (rows.zip (variableRuns.zip constantRuns)).mapM fun (row, variableRun, constantRun) => do
    return (row.method, ← (scope tables heaps row variableRun constantRun).outcome)

variable {tables : Tables} {heaps : Heaps}

theorem gives_scope (hblobs : heaps.blobs.size < Word.limit) (row : ScopeRow)
    {variableRun constantRun : Except ReadError LocalRun}
    (hvariables : ∀ run, variableRun = .ok run → run.Inside tables.variables.count)
    (hconstants : ∀ run, constantRun = .ok run → run.Inside tables.constants.count) :
    Gives (scope tables.words heaps.words row variableRun constantRun)
      (DocumentIndex.scopeOfRow tables heaps row variableRun constantRun) := by
  refine (gives_ofExcept variableRun).bind fun variableIds hvariableIds => ?_
  refine (gives_ofExcept constantRun).bind fun constantIds hconstantIds => ?_
  refine (gives_eachRow (hvariables variableIds hvariableIds) fun entry => ?_).bind fun _ _ => ?_
  · exact (gives_stringAt heaps.strings entry.name).bind fun name _ => gives_pure _
  refine (gives_eachRow (hconstants constantIds hconstantIds) fun entry => ?_).bind fun _ _ => ?_
  · exact (gives_stringAt heaps.strings entry.name).bind fun name _ =>
      (gives_blobAt hblobs entry.signature).bind fun signature _ => gives_pure _
  exact gives_pure _

theorem map_snd_entries {Row : Type} (rows : Rows Row) :
    rows.entries.map Prod.snd = rows.toArray.toList := by
  rw [Rows.entries, List.map_map]
  exact List.zipIdx_map_fst 1 _

theorem scopes_eq (htables : tables.Narrow) (hblobs : heaps.blobs.size < Word.limit) :
    scopes tables.words heaps.words = some (DocumentIndex.scopes tables heaps) := by
  have hvariableCount := htables.variables_lt
  have hconstantCount := htables.constants_lt
  have hstarts (list : ScopeRow → Nat) :
      (tables.scopes.toArray.toList.map list).length < Word.limit := by
    have hscopes := htables.scopes_lt
    rw [List.length_map, Array.length_toList]
    simp only [Rows.count, Word.limit] at hscopes ⊢
    omega
  have hvariableRows : tables.variables.count + 1 < Word.limit := by
    simp only [Word.limit]
    omega
  have hconstantRows : tables.constants.count + 1 < Word.limit := by
    simp only [Word.limit]
    omega
  have hvariableRuns := localRuns_eq hvariableRows (hstarts ScopeRow.variableList) .localVariable
  have hconstantRuns := localRuns_eq hconstantRows (hstarts ScopeRow.constantList) .localConstant
  have hrows : tables.words.scopes.entries.map Prod.snd = tables.scopes.toArray.toList := by
    rw [← map_snd_entries, ← Rows.entries_words]
    rfl
  have hvariables : tables.words.variables.count? = some tables.variables.count :=
    tables.variables.count?_words
  have hconstants : tables.words.constants.count? = some tables.constants.count :=
    tables.constants.count?_words
  rw [scopes, hrows, hvariables, hconstants]
  simp only [Option.bind_eq_bind, Option.bind_some, hvariableRuns, hconstantRuns]
  refine mapM_eq_some ?_
  rintro ⟨row, variableRun, constantRun⟩ hmem
  obtain ⟨-, hruns⟩ := List.of_mem_zip hmem
  obtain ⟨hvariableRun, hconstantRun⟩ := List.of_mem_zip hruns
  have hscope : (scope tables.words heaps.words row variableRun constantRun).outcome =
      some (DocumentIndex.scopeOfRow tables heaps row variableRun constantRun) := by
    refine (gives_scope hblobs row ?_ ?_).outcome_eq
    · rintro run rfl
      exact inside_of_mem_all hvariableRun
    · rintro run rfl
      exact inside_of_mem_all hconstantRun
  rw [hscope]
  rfl

/-! ## Methods and documents -/

/-- The points of a method's row, which must lie in documents that have rows. -/
def pointsOfRow (tables : WordTables) (heaps : WordHeaps) (row : MethodRow) :
    Guarded (List SequencePoint) := do
  let blob ← blobAt heaps.blobs row.sequencePoints
  let points ← run (WordReader.points row.document) blob
  match points.find? fun point => (tables.documents.get? point.document).isNone with
  | some point => throw ⟨.rowIndexOutOfBounds .document point.document, []⟩
  | none => return points

/-- The parts of a method, whose scopes have been put together before. -/
def methodParts (tables : WordTables) (heaps : WordHeaps) (number : Nat)
    (scopes : List (Except ReadError Scope)) : Guarded (List (Nat × MethodInfo)) := do
  let scopes ← scopes.mapM ofExcept
  let row ← certain (tables.methods.index? number)
  if row.sequencePoints = 0 then return []
  let points ← pointsOfRow tables heaps row
  return DocumentIndex.partsOfMethod (Word.narrow number) points scopes

def document (heaps : WordHeaps) (id : Nat) (row : DocumentRow) : Guarded DocumentInfo := do
  let filePath ← name heaps.blobs row.name
  let language ← guidAt heaps.guids row.language
  let hashAlgorithm ← guidAt heaps.guids row.hashAlgorithm
  let hash ← blobAt heaps.blobs row.hash
  return {
    document := Word.narrow id
    filePath
    language := .ofGuid language
    hashAlgorithm := .ofGuid hashAlgorithm
    hash
    methods := [] }

theorem gives_pointsOfRow (hblobs : heaps.blobs.size < Word.limit) (row : MethodRow) :
    Gives (pointsOfRow tables.words heaps.words row)
      (DocumentIndex.pointsOfRow tables heaps row) := by
  refine (gives_blobAt hblobs row.sequencePoints).bind fun blob hblob => ?_
  refine (gives_points hblobs hblob row.document).bind fun points _ => ?_
  have hfind : (points.find? fun point => (tables.words.documents.get? point.document).isNone) =
      points.find? fun point => (tables.documents.get? point.document).isNone := by
    simp only [Tables.words, Rows.get?_words]
  rw [hfind]
  cases points.find? fun point => (tables.documents.get? point.document).isNone with
  | some point => exact gives_throw _
  | none => exact gives_pure points

theorem gives_methodParts (htables : tables.Narrow) (hblobs : heaps.blobs.size < Word.limit)
    {entry : Nat × MethodRow} (hentry : entry ∈ tables.methods.entries)
    (scopes : List (Except ReadError Scope)) :
    Gives (methodParts tables.words heaps.words entry.1 scopes)
      (DocumentIndex.methodOfRow tables heaps entry.1 entry.2 scopes) := by
  have hnumber := (Rows.mem_entries hentry).2
  have hcount := htables.methods_lt
  have hnarrow : Word.narrow entry.1 = entry.1 := Word.narrow_of_lt (by omega)
  have hrow : tables.words.methods.index? entry.1 = some entry.2 :=
    (Rows.index?_of_mem_entries hentry).1
  rw [methodParts, DocumentIndex.methodOfRow, hrow, hnarrow]
  have hscopes : Gives (scopes.mapM ofExcept) (scopes.mapM id) :=
    .mapM (List.forall₂_same.2 fun result _ => gives_ofExcept result)
  refine hscopes.bind fun scopes _ => ?_
  rw [bind_certain]
  by_cases hnone : entry.2.sequencePoints = 0
  · rw [if_pos hnone, if_pos hnone]
    exact gives_pure []
  · rw [if_neg hnone, if_neg hnone]
    exact (gives_pointsOfRow hblobs entry.2).bind fun points _ => gives_pure _

theorem gives_document (htables : tables.Narrow) (hblobs : heaps.blobs.size < Word.limit)
    {entry : Nat × DocumentRow} (hentry : entry ∈ tables.documents.entries) :
    Gives (document heaps.words entry.1 entry.2) (DocumentInfo.ofRow heaps entry.1 entry.2) := by
  have hnumber := (Rows.mem_entries hentry).2
  have hcount := htables.documents_lt
  have hrow := (Rows.index?_of_mem_entries hentry).2
  have hnarrow : Word.narrow entry.1 = entry.1 := Word.narrow_of_lt (by omega)
  rw [document, hnarrow]
  refine (gives_name hblobs entry.2.name).bind fun filePath _ => ?_
  refine (gives_guidAt (htables.languages _ hrow) heaps.guids).bind fun language _ => ?_
  refine (gives_guidAt (htables.hashAlgorithms _ hrow) heaps.guids).bind fun hashAlgorithm _ => ?_
  exact (gives_blobAt hblobs entry.2.hash).bind fun hash _ => gives_pure _

end Guarded

end PortablePdb
