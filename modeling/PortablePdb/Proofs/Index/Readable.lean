import PortablePdb.Proofs.Index.Results

/-!
# Which rows can be read, and as what

What the index makes of a row is said here without the passes that make it: a scope owns the rows
from its own start to the start of the next scope, a method is good if its scopes can be read and
its points lie in documents that exist, and a document can be read if its name, its identifiers and
its hash can.
-/

namespace PortablePdb

/-! ## Rows of locals -/

structure VariableRow.ReadsAs (heaps : Heaps) (row : VariableRow) (entry : LocalVariable) :
    Prop where
  index : entry.index = row.index
  attributes : entry.attributes = row.attributes
  name : heaps.string row.name = .ok entry.name

structure ConstantRow.ReadsAs (heaps : Heaps) (row : ConstantRow) (constant : LocalConstant) :
    Prop where
  name : heaps.string row.name = .ok constant.name
  signature : heaps.blob row.signature = .ok constant.signature

namespace LocalRun

/-- The run that starts at `start`, in a table with `rows` rows, when the next scope's run starts
at `next?`.  It stops there, or at the end of the table. -/
def between (rows start : Nat) (next? : Option Nat) : LocalRun :=
  ⟨start, min (next?.getD (rows + 1)) (rows + 1)⟩

/-- The run starts at a row or at the end of the table, and does not stop before. -/
def InOrder (run : LocalRun) : Prop :=
  1 ≤ run.start ∧ run.start ≤ run.stop

theorem bounded_eq (table : TableId) (rows scope start : Nat) (next? : Option Nat) :
    bounded table rows scope start next? =
      if start = 0 ∨ rows + 1 < start then .error ⟨.rowIndexOutOfBounds table start, []⟩
      else if (between rows start next?).stop < start then
        .error ⟨.overlappingLocalRun table scope, []⟩
      else .ok (between rows start next?) := by
  cases next? with
  | none => simp only [bounded, between, Option.getD_none, Nat.min_self]
  | some next => rfl

theorem bounded_eq_ok_iff {table : TableId} {rows scope start : Nat} {next? : Option Nat}
    {run : LocalRun} :
    bounded table rows scope start next? = .ok run ↔
      run = between rows start next? ∧ run.InOrder := by
  have hle : (between rows start next?).stop ≤ rows + 1 := Nat.min_le_right _ _
  rw [bounded_eq]
  constructor
  · intro hrun
    split at hrun
    case isTrue => cases hrun
    case isFalse hinside =>
        split at hrun
        case isTrue => cases hrun
        case isFalse horder =>
            cases hrun
            exact ⟨rfl, Nat.pos_of_ne_zero fun hzero => hinside (.inl hzero),
              Nat.le_of_not_lt horder⟩
  · rintro ⟨rfl, hpositive, horder⟩
    change 1 ≤ start at hpositive
    change start ≤ _ at horder
    have hinside : ¬(start = 0 ∨ rows + 1 < start) := by omega
    rw [if_neg hinside, if_neg (Nat.not_lt.2 horder)]

end LocalRun

namespace ScopeRow

/-- The rows of variables that the scope with row number `number` owns. -/
def variableRun (tables : Tables) (number : Nat) (row : ScopeRow) : LocalRun :=
  .between tables.variables.count row.variableList
    ((tables.scopes.get? (number + 1)).map ScopeRow.variableList)

def constantRun (tables : Tables) (number : Nat) (row : ScopeRow) : LocalRun :=
  .between tables.constants.count row.constantList
    ((tables.scopes.get? (number + 1)).map ScopeRow.constantList)

/-- Both runs of the scope are in order, and all its locals have names and signatures. -/
structure Readable (tables : Tables) (heaps : Heaps) (number : Nat) (row : ScopeRow) : Prop where
  variables_inOrder : (row.variableRun tables number).InOrder
  constants_inOrder : (row.constantRun tables number).InOrder
  variable_names : ∀ entry ∈ tables.variables.slice (row.variableRun tables number).start
    (row.variableRun tables number).stop, ∃ name, heaps.string entry.name = .ok name
  constant_names : ∀ constant ∈ tables.constants.slice (row.constantRun tables number).start
    (row.constantRun tables number).stop, ∃ name, heaps.string constant.name = .ok name
  constant_signatures : ∀ constant ∈ tables.constants.slice (row.constantRun tables number).start
    (row.constantRun tables number).stop, ∃ signature, heaps.blob constant.signature = .ok signature

structure ReadsAs (tables : Tables) (heaps : Heaps) (number : Nat) (row : ScopeRow)
    (scope : Scope) : Prop where
  startOffset : scope.startOffset = row.startOffset
  length : scope.length = row.length
  «variables» : List.Forall₂ (VariableRow.ReadsAs heaps)
    (tables.variables.slice (row.variableRun tables number).start
      (row.variableRun tables number).stop) scope.variables
  constants : List.Forall₂ (ConstantRow.ReadsAs heaps)
    (tables.constants.slice (row.constantRun tables number).start
      (row.constantRun tables number).stop) scope.constants

end ScopeRow

/-! ## Rows of methods -/

namespace MethodRow

/-- The row refers to a blob of points that can be read and decoded. -/
def HasPoints (heaps : Heaps) (row : MethodRow) (points : List SequencePoint) : Prop :=
  row.sequencePoints ≠ 0 ∧ ∃ blob, heaps.blob row.sequencePoints = .ok blob ∧
    SequencePoint.decode blob row.document = .ok points

/-- The method with row number `number` can be read: all scopes that name it can, and it has no
points or has points that lie in documents with rows. -/
structure Good (tables : Tables) (heaps : Heaps) (number : Nat) (row : MethodRow) : Prop where
  scopes : ∀ entry ∈ tables.scopes.entries, entry.2.method = number →
    entry.2.Readable tables heaps entry.1
  points : row.sequencePoints = 0 ∨ ∃ points, row.HasPoints heaps points ∧
    ∀ point ∈ points, (tables.documents.get? point.document).isSome

/-- One of the row's points is visible and lies in the document. -/
def VisibleIn (heaps : Heaps) (document : Nat) (row : MethodRow) : Prop :=
  ∃ points, row.HasPoints heaps points ∧
    ∃ point ∈ points, point.isVisible ∧ point.document = document

end MethodRow

/-! ## Rows of documents -/

namespace DocumentRow

structure Readable (heaps : Heaps) (row : DocumentRow) : Prop where
  name : ∃ path, DocumentInfo.name heaps row.name = .ok path
  language : ∃ language, heaps.guid row.language = .ok language
  hashAlgorithm : ∃ algorithm, heaps.guid row.hashAlgorithm = .ok algorithm
  hash : ∃ hash, heaps.blob row.hash = .ok hash

structure ReadsAs (heaps : Heaps) (number : Nat) (row : DocumentRow) (info : DocumentInfo) :
    Prop where
  document : info.document = number
  filePath : DocumentInfo.name heaps row.name = .ok info.filePath
  language : ∃ language, heaps.guid row.language = .ok language ∧
    info.language = .ofGuid language
  hashAlgorithm : ∃ algorithm, heaps.guid row.hashAlgorithm = .ok algorithm ∧
    info.hashAlgorithm = .ofGuid algorithm
  hash : heaps.blob row.hash = .ok info.hash

end DocumentRow

namespace DocumentIndex

/-! ## What the index reads -/

theorem readVariable_eq_ok_iff {heaps : Heaps} {row : VariableRow} {entry : LocalVariable} :
    readVariable heaps row = .ok entry ↔ row.ReadsAs heaps entry := by
  constructor
  · intro hentry
    obtain ⟨name, hname, hpure⟩ := Except.bind_eq_ok hentry
    cases hpure
    exact ⟨rfl, rfl, hname⟩
  · intro hentry
    obtain ⟨index, attributes, name⟩ := entry
    obtain ⟨rfl, rfl, hname⟩ := hentry
    rw [readVariable, hname]
    rfl

theorem readConstant_eq_ok_iff {heaps : Heaps} {row : ConstantRow} {constant : LocalConstant} :
    readConstant heaps row = .ok constant ↔ row.ReadsAs heaps constant := by
  constructor
  · intro hconstant
    obtain ⟨name, hname, hrest⟩ := Except.bind_eq_ok hconstant
    obtain ⟨signature, hsignature, hpure⟩ := Except.bind_eq_ok hrest
    cases hpure
    exact ⟨hname, hsignature⟩
  · rintro ⟨hname, hsignature⟩
    rw [readConstant, hname, hsignature]
    rfl

/-- What the index reads for the scope with row number `number`. -/
def scopeResult (tables : Tables) (heaps : Heaps) (number : Nat) (row : ScopeRow) :
    Except ReadError Scope :=
  scopeOfRow tables heaps row
    (LocalRun.bounded .localVariable tables.variables.count number row.variableList
      ((tables.scopes.get? (number + 1)).map ScopeRow.variableList))
    (LocalRun.bounded .localConstant tables.constants.count number row.constantList
      ((tables.scopes.get? (number + 1)).map ScopeRow.constantList))

theorem getElem?_runs (tables : Tables) (table : TableId) (rows : Nat) (list : ScopeRow → Nat)
    (i : Nat) :
    (LocalRun.all table rows (tables.scopes.toArray.toList.map list))[i]? =
      tables.scopes.toArray[i]?.map fun row =>
        LocalRun.bounded table rows (i + 1) (list row)
          ((tables.scopes.get? (i + 1 + 1)).map list) := by
  rw [LocalRun.getElem?_all]
  simp only [List.getElem?_map, Array.getElem?_toList, Option.map_map, Rows.get?_succ]
  rfl

theorem scopes_eq_map_entries (tables : Tables) (heaps : Heaps) :
    scopes tables heaps = tables.scopes.entries.map fun entry =>
      (entry.2.method, scopeResult tables heaps entry.1 entry.2) := by
  refine List.ext_getElem? fun i => ?_
  rw [scopes, List.getElem?_map, List.zip, List.getElem?_zipWith, List.zip, List.getElem?_zipWith,
    List.getElem?_map, Rows.getElem?_entries, variableRuns, constantRuns, getElem?_runs,
    getElem?_runs, Array.getElem?_toList]
  cases tables.scopes.toArray[i]? with
  | none => rfl
  | some row => rfl

theorem scopeResult_eq_ok_iff {tables : Tables} {heaps : Heaps} {number : Nat} {row : ScopeRow}
    {scope : Scope} :
    scopeResult tables heaps number row = .ok scope ↔
      ((row.variableRun tables number).InOrder ∧ (row.constantRun tables number).InOrder) ∧
        row.ReadsAs tables heaps number scope := by
  constructor
  · intro hscope
    obtain ⟨variableRun, hvariableRun, hrest⟩ := Except.bind_eq_ok hscope
    obtain ⟨constantRun, hconstantRun, hrest⟩ := Except.bind_eq_ok hrest
    obtain ⟨entries, hentries, hrest⟩ := Except.bind_eq_ok hrest
    obtain ⟨constants, hconstants, hpure⟩ := Except.bind_eq_ok hrest
    cases hpure
    obtain ⟨rfl, hvariableOrder⟩ := LocalRun.bounded_eq_ok_iff.1 hvariableRun
    obtain ⟨rfl, hconstantOrder⟩ := LocalRun.bounded_eq_ok_iff.1 hconstantRun
    refine ⟨⟨hvariableOrder, hconstantOrder⟩, rfl, rfl, ?_, ?_⟩
    · exact (Except.mapM_eq_ok_iff.1 hentries).imp fun _ _ => readVariable_eq_ok_iff.1
    · exact (Except.mapM_eq_ok_iff.1 hconstants).imp fun _ _ => readConstant_eq_ok_iff.1
  · obtain ⟨startOffset, length, entries, constants⟩ := scope
    rintro ⟨⟨hvariableOrder, hconstantOrder⟩, rfl, rfl, hentries, hconstants⟩
    have hvariableRun : LocalRun.bounded .localVariable tables.variables.count number
        row.variableList ((tables.scopes.get? (number + 1)).map ScopeRow.variableList) =
          .ok (row.variableRun tables number) :=
      LocalRun.bounded_eq_ok_iff.2 ⟨rfl, hvariableOrder⟩
    have hconstantRun : LocalRun.bounded .localConstant tables.constants.count number
        row.constantList ((tables.scopes.get? (number + 1)).map ScopeRow.constantList) =
          .ok (row.constantRun tables number) :=
      LocalRun.bounded_eq_ok_iff.2 ⟨rfl, hconstantOrder⟩
    have hvariables := Except.mapM_eq_ok_iff.2 (hentries.imp fun _ _ => readVariable_eq_ok_iff.2)
    have hconstants := Except.mapM_eq_ok_iff.2 (hconstants.imp fun _ _ => readConstant_eq_ok_iff.2)
    simp only [scopeResult, scopeOfRow, hvariableRun, hconstantRun, bind, Except.bind, hvariables,
      hconstants]
    rfl

theorem exists_scopeResult_iff {tables : Tables} {heaps : Heaps} {number : Nat} {row : ScopeRow} :
    (∃ scope, scopeResult tables heaps number row = .ok scope) ↔
      row.Readable tables heaps number := by
  constructor
  · rintro ⟨scope, hscope⟩
    obtain ⟨⟨hvariableOrder, hconstantOrder⟩, hreads⟩ := scopeResult_eq_ok_iff.1 hscope
    have hvariables := exists_forall₂_iff.1 ⟨_, hreads.variables⟩
    have hconstants := exists_forall₂_iff.1 ⟨_, hreads.constants⟩
    exact {
      variables_inOrder := hvariableOrder
      constants_inOrder := hconstantOrder
      variable_names := fun entry hentry =>
        (hvariables entry hentry).imp' LocalVariable.name fun _ hread => hread.name
      constant_names := fun constant hconstant =>
        (hconstants constant hconstant).imp' LocalConstant.name fun _ hread => hread.name
      constant_signatures := fun constant hconstant =>
        (hconstants constant hconstant).imp' LocalConstant.signature fun _ hread =>
          hread.signature }
  · intro hreadable
    have hentries : ∀ entry ∈ tables.variables.slice (row.variableRun tables number).start
        (row.variableRun tables number).stop, ∃ value, entry.ReadsAs heaps value := by
      intro entry hentry
      obtain ⟨name, hname⟩ := hreadable.variable_names entry hentry
      exact ⟨⟨entry.index, entry.attributes, name⟩, rfl, rfl, hname⟩
    have hconstants : ∀ constant ∈ tables.constants.slice (row.constantRun tables number).start
        (row.constantRun tables number).stop, ∃ value, constant.ReadsAs heaps value := by
      intro constant hconstant
      obtain ⟨name, hname⟩ := hreadable.constant_names constant hconstant
      obtain ⟨signature, hsignature⟩ := hreadable.constant_signatures constant hconstant
      exact ⟨⟨name, signature⟩, hname, hsignature⟩
    obtain ⟨entries, hentries⟩ := exists_forall₂_iff.2 hentries
    obtain ⟨constants, hconstants⟩ := exists_forall₂_iff.2 hconstants
    exact ⟨⟨row.startOffset, row.length, entries, constants⟩, scopeResult_eq_ok_iff.2
      ⟨⟨hreadable.variables_inOrder, hreadable.constants_inOrder⟩, rfl, rfl, hentries, hconstants⟩⟩

/-! ## The scopes of a method -/

/-- The scope rows that name a method, with their numbers. -/
def scopeRowsOf (tables : Tables) (method : Nat) : List (Nat × ScopeRow) :=
  tables.scopes.entries.filter fun entry => entry.2.method = method

theorem scopesNaming_eq (tables : Tables) (heaps : Heaps) (method : Nat) :
    scopesNaming tables heaps method = (scopeRowsOf tables method).map fun entry =>
      scopeResult tables heaps entry.1 entry.2 := by
  rw [scopesNaming, scopes_eq_map_entries, List.filter_map, List.map_map]
  rfl

theorem mapM_scopesNaming_eq_ok_iff {tables : Tables} {heaps : Heaps} {method : Nat}
    {scopes : List Scope} :
    (scopesNaming tables heaps method).mapM id = .ok scopes ↔
      List.Forall₂ (fun entry scope => scopeResult tables heaps entry.1 entry.2 = .ok scope)
        (scopeRowsOf tables method) scopes := by
  rw [scopesNaming_eq, Except.mapM_eq_ok_iff, List.forall₂_map_left_iff]
  rfl

/-! ## The points of a method -/

theorem pointsOfRow_eq_ok_iff {tables : Tables} {heaps : Heaps} {row : MethodRow}
    {points : List SequencePoint} :
    pointsOfRow tables heaps row = .ok points ↔
      (∃ blob, heaps.blob row.sequencePoints = .ok blob ∧
        SequencePoint.decode blob row.document = .ok points) ∧
      ∀ point ∈ points, (tables.documents.get? point.document).isSome := by
  constructor
  · intro hpoints
    obtain ⟨blob, hblob, hrest⟩ := Except.bind_eq_ok hpoints
    obtain ⟨decoded, hdecoded, hrest⟩ := Except.bind_eq_ok hrest
    cases hmissing : decoded.find? fun point => (tables.documents.get? point.document).isNone with
    | some point =>
        rw [hmissing] at hrest
        cases hrest
    | none =>
        rw [hmissing] at hrest
        cases hrest
        refine ⟨⟨blob, hblob, hdecoded⟩, fun point hpoint => ?_⟩
        have hnone := List.find?_eq_none.1 hmissing point hpoint
        exact Option.isSome_iff_ne_none.2 (by simpa using hnone)
  · rintro ⟨⟨blob, hblob, hdecoded⟩, hdocuments⟩
    have hmissing : (points.find? fun point =>
        (tables.documents.get? point.document).isNone) = none := by
      rw [List.find?_eq_none]
      intro point hpoint
      rw [← Option.not_isSome, hdocuments point hpoint]
      exact Bool.false_ne_true
    simp only [pointsOfRow, hblob, bind, Except.bind, hdecoded, hmissing]
    rfl

theorem methodOfRow_eq_ok_iff {tables : Tables} {heaps : Heaps} {number : Nat} {row : MethodRow}
    {parts : List (Nat × MethodInfo)} :
    methodOfRow tables heaps number row (scopesNaming tables heaps number) = .ok parts ↔
      ∃ scopes, List.Forall₂ (fun entry scope =>
          scopeResult tables heaps entry.1 entry.2 = .ok scope) (scopeRowsOf tables number) scopes ∧
        (row.sequencePoints = 0 ∧ parts = [] ∨
          ∃ points, row.HasPoints heaps points ∧
            (∀ point ∈ points, (tables.documents.get? point.document).isSome) ∧
            parts = partsOfMethod number points scopes) := by
  constructor
  · intro hparts
    obtain ⟨scopes, hscopes, hrest⟩ := Except.bind_eq_ok hparts
    refine ⟨scopes, mapM_scopesNaming_eq_ok_iff.1 hscopes, ?_⟩
    by_cases hzero : row.sequencePoints = 0
    · rw [if_pos hzero] at hrest
      cases hrest
      exact .inl ⟨hzero, rfl⟩
    · rw [if_neg hzero] at hrest
      obtain ⟨points, hpoints, hpure⟩ := Except.bind_eq_ok hrest
      cases hpure
      obtain ⟨hblob, hdocuments⟩ := pointsOfRow_eq_ok_iff.1 hpoints
      exact .inr ⟨points, ⟨hzero, hblob⟩, hdocuments, rfl⟩
  · rintro ⟨scopes, hscopes, hpoints⟩
    have hscopes := mapM_scopesNaming_eq_ok_iff.2 hscopes
    rcases hpoints with ⟨hzero, rfl⟩ | ⟨points, ⟨hzero, hblob⟩, hdocuments, rfl⟩
    · simp only [methodOfRow, hscopes, bind, Except.bind, if_pos hzero]
      rfl
    · have hpoints := pointsOfRow_eq_ok_iff.2 ⟨hblob, hdocuments⟩
      simp only [methodOfRow, hscopes, bind, Except.bind, if_neg hzero, hpoints]
      rfl

theorem isOk_methodOfRow_iff {tables : Tables} {heaps : Heaps} {number : Nat} {row : MethodRow} :
    (methodOfRow tables heaps number row (scopesNaming tables heaps number)).isOk ↔
      row.Good tables heaps number := by
  have hscopes : (∃ scopes, List.Forall₂ (fun entry scope =>
      scopeResult tables heaps entry.1 entry.2 = .ok scope) (scopeRowsOf tables number) scopes) ↔
      ∀ entry ∈ tables.scopes.entries, entry.2.method = number →
        entry.2.Readable tables heaps entry.1 := by
    rw [exists_forall₂_iff]
    simp only [exists_scopeResult_iff, scopeRowsOf, List.mem_filter, decide_eq_true_eq, and_imp]
  rw [Except.isOk_iff]
  constructor
  · rintro ⟨parts, hparts⟩
    obtain ⟨scopes, hread, hpoints⟩ := methodOfRow_eq_ok_iff.1 hparts
    refine ⟨hscopes.1 ⟨scopes, hread⟩, ?_⟩
    rcases hpoints with ⟨hzero, -⟩ | ⟨points, hpoints, hdocuments, -⟩
    · exact .inl hzero
    · exact .inr ⟨points, hpoints, hdocuments⟩
  · intro hgood
    obtain ⟨scopes, hread⟩ := hscopes.2 hgood.scopes
    rcases hgood.points with hzero | ⟨points, hpoints, hdocuments⟩
    · exact ⟨[], methodOfRow_eq_ok_iff.2 ⟨scopes, hread, .inl ⟨hzero, rfl⟩⟩⟩
    · exact ⟨_, methodOfRow_eq_ok_iff.2 ⟨scopes, hread, .inr ⟨points, hpoints, hdocuments, rfl⟩⟩⟩

/-! ## Documents -/

theorem ofRow_eq_ok_iff {heaps : Heaps} {number : Nat} {row : DocumentRow} {info : DocumentInfo} :
    DocumentInfo.ofRow heaps number row = .ok info ↔
      row.ReadsAs heaps number info ∧ info.methods = [] := by
  constructor
  · intro hinfo
    obtain ⟨path, hpath, hrest⟩ := Except.bind_eq_ok hinfo
    obtain ⟨language, hlanguage, hrest⟩ := Except.bind_eq_ok hrest
    obtain ⟨algorithm, halgorithm, hrest⟩ := Except.bind_eq_ok hrest
    obtain ⟨hash, hhash, hpure⟩ := Except.bind_eq_ok hrest
    cases hpure
    exact ⟨⟨rfl, hpath, ⟨language, hlanguage, rfl⟩, ⟨algorithm, halgorithm, rfl⟩, hhash⟩, rfl⟩
  · obtain ⟨document, filePath, kind, hashAlgorithm, hash, methods⟩ := info
    rintro ⟨⟨rfl, hpath, ⟨language, hlanguage, rfl⟩, ⟨algorithm, halgorithm, rfl⟩, hhash⟩, rfl⟩
    simp only [DocumentInfo.ofRow, hpath, bind, Except.bind, hlanguage, halgorithm, hhash]
    rfl

theorem isOk_ofRow_iff {heaps : Heaps} (number : Nat) {row : DocumentRow} :
    (DocumentInfo.ofRow heaps number row).isOk ↔ row.Readable heaps := by
  rw [Except.isOk_iff]
  constructor
  · rintro ⟨info, hinfo⟩
    obtain ⟨hreads, -⟩ := ofRow_eq_ok_iff.1 hinfo
    obtain ⟨language, hlanguage, -⟩ := hreads.language
    obtain ⟨algorithm, halgorithm, -⟩ := hreads.hashAlgorithm
    exact ⟨⟨_, hreads.filePath⟩, ⟨language, hlanguage⟩, ⟨algorithm, halgorithm⟩, ⟨_, hreads.hash⟩⟩
  · rintro ⟨⟨path, hpath⟩, ⟨language, hlanguage⟩, ⟨algorithm, halgorithm⟩, ⟨hash, hhash⟩⟩
    exact ⟨⟨number, path, .ofGuid language, .ofGuid algorithm, hash, []⟩, ofRow_eq_ok_iff.2
      ⟨⟨rfl, hpath, ⟨language, hlanguage, rfl⟩, ⟨algorithm, halgorithm, rfl⟩, hhash⟩, rfl⟩⟩

end DocumentIndex

/-! ## Deciding it -/

instance (tables : Tables) (heaps : Heaps) (number : Nat) (row : MethodRow) :
    Decidable (row.Good tables heaps number) :=
  decidable_of_iff _ DocumentIndex.isOk_methodOfRow_iff

instance (heaps : Heaps) (row : DocumentRow) : Decidable (row.Readable heaps) :=
  decidable_of_iff _ (DocumentIndex.isOk_ofRow_iff 0)

end PortablePdb
