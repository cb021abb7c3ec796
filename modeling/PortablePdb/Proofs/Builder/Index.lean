import PortablePdb.Proofs.Builder.Parse
import PortablePdb.Proofs.Index.Partition

/-!
# The index of a built file

Each scope's run of locals starts where the run before it stops, so every scope gets back its own
locals, every method its own scopes, and every document the parts of methods that lie in it.
Nothing is left out.
-/

namespace PortablePdb

/-! ## Runs of locals -/

section Runs

variable {Local : Type}

/-- The runs of the locals of scopes, of which the first starts at `start`. -/
def runsFrom (locals : ScopeRequest → List Local) (start : Nat) :
    List ScopeRequest → List LocalRun
  | [] => []
  | request :: rest =>
      ⟨start, start + (locals request).length⟩ ::
        runsFrom locals (start + (locals request).length) rest

theorem map_variableList_scopeRows (variableStart constantStart : Nat)
    (requests : List ScopeRequest) :
    (scopeRows variableStart constantStart requests).map ScopeRow.variableList =
      (runsFrom ScopeRequest.slots variableStart requests).map LocalRun.start := by
  induction requests generalizing variableStart constantStart with
  | nil => rfl
  | cons request rest ih => simp only [scopeRows, runsFrom, List.map_cons, ih]

theorem map_constantList_scopeRows (variableStart constantStart : Nat)
    (requests : List ScopeRequest) :
    (scopeRows variableStart constantStart requests).map ScopeRow.constantList =
      (runsFrom ScopeRequest.constants constantStart requests).map LocalRun.start := by
  induction requests generalizing variableStart constantStart with
  | nil => rfl
  | cons request rest ih => simp only [scopeRows, runsFrom, List.map_cons, ih]

theorem head?_starts {locals : ScopeRequest → List Local} {rows start : Nat}
    {requests : List ScopeRequest}
    (hrows : start + (requests.flatMap locals).length = rows + 1) :
    ((runsFrom locals start requests).map LocalRun.start).head?.getD (rows + 1) = start := by
  cases requests with
  | nil => simpa [runsFrom] using hrows.symm
  | cons request rest => rfl

theorem add_length_flatMap_cons (start : Nat) (locals : ScopeRequest → List Local)
    (request : ScopeRequest) (rest : List ScopeRequest) :
    start + ((request :: rest).flatMap locals).length =
      start + (locals request).length + (rest.flatMap locals).length := by
  rw [List.flatMap_cons, List.length_append, Nat.add_assoc]

theorem startsInOrder_runsFrom {rows start : Nat} {locals : ScopeRequest → List Local}
    {requests : List ScopeRequest} (hstart : 1 ≤ start)
    (hrows : start + (requests.flatMap locals).length = rows + 1) :
    LocalRun.StartsInOrder rows ((runsFrom locals start requests).map LocalRun.start) := by
  induction requests generalizing start with
  | nil => exact LocalRun.startsInOrder_nil rows
  | cons request rest ih =>
      rw [add_length_flatMap_cons] at hrows
      have hlater := ih (Nat.le_add_right_of_le hstart) hrows
      refine LocalRun.startsInOrder_cons.2 ⟨?_, hlater⟩
      rw [hlater.between_eq, head?_starts hrows]
      exact ⟨hstart, Nat.le_add_right start _⟩

theorem sideBySide_runsFrom {rows start : Nat} {locals : ScopeRequest → List Local}
    {requests : List ScopeRequest}
    (hrows : start + (requests.flatMap locals).length = rows + 1) :
    LocalRun.sideBySide rows ((runsFrom locals start requests).map LocalRun.start) =
      runsFrom locals start requests := by
  induction requests generalizing start with
  | nil => rfl
  | cons request rest ih =>
      rw [add_length_flatMap_cons] at hrows
      rw [runsFrom, List.map_cons, LocalRun.sideBySide, head?_starts hrows, ih hrows]

theorem all_runsFrom (table : TableId) (locals : ScopeRequest → List Local)
    (requests : List ScopeRequest) :
    LocalRun.all table (requests.flatMap locals).length
        ((runsFrom locals 1 requests).map LocalRun.start) =
      (runsFrom locals 1 requests).map Except.ok := by
  have hrows := Nat.add_comm 1 (requests.flatMap locals).length
  rw [LocalRun.all_of_startsInOrder (startsInOrder_runsFrom (Nat.le_refl 1) hrows),
    sideBySide_runsFrom hrows]

end Runs

/-! ## Scopes -/

theorem slice_eq_take_drop {Row : Type} (rows : Rows Row) {start length : Nat}
    (hstart : 1 ≤ start) :
    rows.slice start (start + length) = (rows.toArray.toList.drop (start - 1)).take length := by
  have hlength : start + length - 1 - (start - 1) = length := by omega
  rw [Rows.slice, Array.toList_extract, List.extract_eq_take_drop, hlength]

theorem mapM_slice {α Row γ : Type} {read : Row → Except ReadError γ} {value : α → γ}
    {rows : Rows Row} {start : Nat} {first rest : List α} (hstart : 1 ≤ start)
    (hrows : List.Forall₂ (fun request row => read row = .ok (value request)) (first ++ rest)
      (rows.toArray.toList.drop (start - 1))) :
    (rows.slice start (start + first.length)).mapM read = .ok (first.map value) := by
  have hfirst := List.forall₂_take first.length hrows
  rw [List.take_left, ← slice_eq_take_drop rows hstart] at hfirst
  exact Except.mapM_eq_ok_iff.2 (List.forall₂_map_right_iff.2 hfirst.flip)

theorem forall₂_drop_slice {α Row : Type} {relation : α → Row → Prop} {rows : List Row}
    {start : Nat} {first rest : List α} (hstart : 1 ≤ start)
    (hrows : List.Forall₂ relation (first ++ rest) (rows.drop (start - 1))) :
    List.Forall₂ relation rest (rows.drop (start + first.length - 1)) := by
  have hrest := List.forall₂_drop first.length hrows
  have hlength : start - 1 + first.length = start + first.length - 1 := by omega
  rwa [List.drop_left, List.drop_drop, hlength] at hrest

theorem map_zip_scopeRows {tables : Tables} {heaps : Heaps} {variableStart constantStart : Nat}
    {requests : List ScopeRequest} (hvariableStart : 1 ≤ variableStart)
    (hconstantStart : 1 ≤ constantStart)
    (hslots : List.Forall₂ (fun declaration row =>
      DocumentIndex.readVariable heaps row = .ok declaration.toVariable)
      (requests.flatMap ScopeRequest.slots)
      (tables.variables.toArray.toList.drop (variableStart - 1)))
    (hconstants : List.Forall₂ (fun constant row =>
      DocumentIndex.readConstant heaps row = .ok ⟨constant.1, constant.2⟩)
      (requests.flatMap ScopeRequest.constants)
      (tables.constants.toArray.toList.drop (constantStart - 1))) :
    ((scopeRows variableStart constantStart requests).zip
        (((runsFrom ScopeRequest.slots variableStart requests).map Except.ok).zip
          ((runsFrom ScopeRequest.constants constantStart requests).map Except.ok))).map
        (fun entry => (entry.1.method,
          DocumentIndex.scopeOfRow tables heaps entry.1 entry.2.1 entry.2.2)) =
      requests.map fun request => (request.method, .ok request.scope) := by
  induction requests generalizing variableStart constantStart with
  | nil => rfl
  | cons request rest ih =>
      -- The locals of the first scope are the front of what is left of both tables.
      rw [List.flatMap_cons] at hslots hconstants
      have hrest := ih (Nat.le_add_right_of_le hvariableStart)
        (Nat.le_add_right_of_le hconstantStart) (forall₂_drop_slice hvariableStart hslots)
        (forall₂_drop_slice hconstantStart hconstants)
      have hvariableRows := mapM_slice hvariableStart hslots
      have hconstantRows := mapM_slice hconstantStart hconstants
      simp only [scopeRows, runsFrom, List.map_cons, List.zip_cons_cons, hrest]
      congr 2
      simp only [DocumentIndex.scopeOfRow, bind, Except.bind, hvariableRows, hconstantRows]
      rfl

namespace Builder

variable {builder : Builder} {request : FileRequest}

theorem Holds.scopes_tables (hholds : builder.Holds request) {heaps : Heaps}
    (hwithin : builder.heapBytes.Within heaps) :
    DocumentIndex.scopes builder.tables heaps =
      request.scopes.map fun scope => (scope.method, .ok scope.scope) := by
  have hvariables : DocumentIndex.variableRuns builder.tables =
      (runsFrom ScopeRequest.slots 1 request.scopes).map Except.ok := by
    rw [← all_runsFrom .localVariable, hholds.slots.length_eq, ← map_variableList_scopeRows 1 1,
      ← hholds.scopes]
    rfl
  have hconstants : DocumentIndex.constantRuns builder.tables =
      (runsFrom ScopeRequest.constants 1 request.scopes).map Except.ok := by
    rw [← all_runsFrom .localConstant, hholds.constants.length_eq,
      ← map_constantList_scopeRows 1 1, ← hholds.scopes]
    rfl
  have hrows : builder.tables.scopes.toArray.toList = scopeRows 1 1 request.scopes :=
    hholds.scopes
  rw [DocumentIndex.scopes, hvariables, hconstants, hrows]
  refine map_zip_scopeRows (Nat.le_refl 1) (Nat.le_refl 1) ?_ ?_
  · exact hholds.slots.imp fun _ _ hstored => hstored.read heaps hwithin
  · exact hholds.constants.imp fun _ _ hstored => hstored.read heaps hwithin

theorem Holds.scopesNaming_tables (hholds : builder.Holds request) {heaps : Heaps}
    (hwithin : builder.heapBytes.Within heaps) (method : Nat) :
    DocumentIndex.scopesNaming builder.tables heaps method =
      (request.scopesOf method).map Except.ok := by
  rw [DocumentIndex.scopesNaming, hholds.scopes_tables hwithin, List.filter_map, List.map_map,
    FileRequest.scopesOf, List.map_map]
  rfl

end Builder

/-! ## Methods and documents -/

namespace FileRequest

variable (request : FileRequest)

/-- The parts that a reader makes of the methods in the document with a row number. -/
def partsIn (document : Nat) : List MethodInfo :=
  (request.methods.zipIdx 1).filterMap fun entry =>
    MethodInfo.ofPoints? entry.2 (entry.1.points.filter fun point => point.document = document)
      (request.scopesOf entry.2)

def documentInfos : List DocumentInfo :=
  (request.documents.zipIdx 1).map fun entry =>
    { entry.1.info entry.2 with methods := request.partsIn entry.2 }

variable {request}

theorem forall₂_partsIn (hmethods : request.methods.length < 0x1000000) (document : Nat) :
    List.Forall₂ (request.PartAs document) (request.methodsIn document)
      (request.partsIn document) := by
  have hparts := forall₂_filterMap (fun entry : MethodRequest × Nat =>
    MethodInfo.ofPoints? entry.2 (entry.1.points.filter fun point => point.document = document)
      (request.scopesOf entry.2)) (request.methods.zipIdx 1)
  simp only [MethodInfo.isSome_ofPoints?, List.any_filter] at hparts
  -- The token of a method tells its row only if the number is small.
  have hrows : ∀ entry ∈ request.methodsIn document, entry.2 < 0x1000000 := by
    intro entry hentry
    have hlast := List.snd_lt_add_of_mem_zipIdx (List.mem_of_mem_filter hentry)
    omega
  refine ((List.forall₂_and_left _ _).2 ⟨hrows, hparts⟩).imp ?_
  rintro entry part ⟨hrow, hpart⟩
  exact ⟨MethodInfo.row_of_ofPoints? hrow hpart, MethodInfo.builtFrom_of_ofPoints? hpart⟩

theorem forall₂_documentInfos (hmethods : request.methods.length < 0x1000000) :
    List.Forall₂ request.FoundAs (request.documents.zipIdx 1) request.documentInfos := by
  rw [documentInfos, List.forall₂_map_right_iff, List.forall₂_same]
  intro entry _
  exact {
    document_eq := rfl
    filePath_eq := rfl
    language := Language.standsFor_ofGuid entry.1.language
    hashAlgorithm := HashAlgorithm.standsFor_ofGuid entry.1.hashAlgorithm
    hash_eq := rfl
    methods := forall₂_partsIn hmethods entry.2 }

end FileRequest

theorem map_zipIdx_of_forall₂ {α β γ : Type} {relation : α → β → Prop} {first : α × Nat → γ}
    {second : β × Nat → γ} {lefts : List α} {rights : List β}
    (hrelated : List.Forall₂ relation lefts rights)
    (hvalues : ∀ left right number, relation left right →
      second (right, number) = first (left, number)) (start : Nat) :
    (rights.zipIdx start).map second = (lefts.zipIdx start).map first := by
  induction hrelated generalizing start with
  | nil => rfl
  | cons hhead _ ih =>
      simp only [List.zipIdx_cons, List.map_cons, hvalues _ _ start hhead, ih]

theorem get?_ne_none {Row : Type} {rows : Rows Row} {number : Nat} (hlow : 1 ≤ number)
    (hhigh : number ≤ rows.count) : (rows.get? number).isNone = false := by
  have hinside : number - 1 < rows.toArray.size := Nat.lt_of_lt_of_le (by omega) hhigh
  rw [Rows.get?, if_neg (by omega), Array.getElem?_eq_getElem hinside]
  rfl

theorem MethodRequest.document_of_mem_points {documents : Nat} {method : MethodRequest}
    (hvalid : method.Valid documents) {point : SequencePoint} (hpoint : point ∈ method.points) :
    1 ≤ point.document ∧ point.document ≤ documents := by
  have hmarks : method.marks ≠ [] := by
    intro hnone
    rw [points, hnone] at hpoint
    cases hpoint
  rcases (hvalid.encodable hmarks).document_of_mem hpoint with hsame | hmem
  · have hle := hvalid.document_le
    omega
  · exact hvalid.marks_documents point.document hmem

namespace Builder

variable {builder : Builder} {request : FileRequest} {heaps : Heaps}

theorem Holds.documentResults_tables (hholds : builder.Holds request)
    (hwithin : builder.heapBytes.Within heaps) :
    DocumentIndex.documentResults builder.tables heaps =
      (request.documents.zipIdx 1).map fun entry =>
        (entry.2, .ok (entry.1.info entry.2)) := by
  rw [DocumentIndex.documentResults, Rows.entries, List.map_map]
  refine map_zipIdx_of_forall₂ hholds.documents (fun document row number hstored => ?_) 1
  simp only [Function.comp_apply, hstored.read heaps hwithin]

theorem Holds.pointsOfRow_tables (hholds : builder.Holds request)
    (hwithin : builder.heapBytes.Within heaps) {method : MethodRequest} {row : MethodRow}
    (hvalid : method.Valid request.documents.length)
    (hstored : method.StoredIn builder.heapBytes row) (hmarks : method.marks ≠ []) :
    DocumentIndex.pointsOfRow builder.tables heaps row = .ok method.points := by
  obtain ⟨blob, hblob, hdecode⟩ := hstored.read hmarks heaps hwithin
  have hcount : builder.tables.documents.count = request.documents.length := by
    rw [hholds.documents.length_eq]
    rfl
  have hrows : (method.points.find? fun point =>
      (builder.tables.documents.get? point.document).isNone) = none := by
    rw [List.find?_eq_none]
    intro point hpoint
    obtain ⟨hlow, hhigh⟩ := method.document_of_mem_points hvalid hpoint
    rw [get?_ne_none hlow (by rw [hcount]; exact hhigh)]
    exact Bool.false_ne_true
  simp only [DocumentIndex.pointsOfRow, hblob, hstored.document_eq, hdecode, bind, Except.bind,
    hrows]
  rfl

theorem Holds.methodOfRow_tables (hholds : builder.Holds request)
    (hwithin : builder.heapBytes.Within heaps) {method : MethodRequest} {row : MethodRow}
    (hvalid : method.Valid request.documents.length)
    (hstored : method.StoredIn builder.heapBytes row) (number : Nat) (scopes : List Scope) :
    DocumentIndex.methodOfRow builder.tables heaps number row (scopes.map Except.ok) =
      .ok (DocumentIndex.partsOfMethod number method.points scopes) := by
  have hscopes : (scopes.map Except.ok).mapM id = (.ok scopes : Except ReadError (List Scope)) :=
    Except.mapM_id_map_ok scopes
  by_cases hmarks : method.marks = []
  · have hzero := hstored.zero_iff.2 hmarks
    simp only [DocumentIndex.methodOfRow, hscopes, bind, Except.bind, hzero, if_true]
    rw [MethodRequest.points, hmarks]
    rfl
  · have hnonzero : row.sequencePoints ≠ 0 := fun hzero => hmarks (hstored.zero_iff.1 hzero)
    have hpoints := hholds.pointsOfRow_tables hwithin hvalid hstored hmarks
    simp only [DocumentIndex.methodOfRow, hscopes, bind, Except.bind, hnonzero, if_false, hpoints]
    rfl

theorem Holds.methodResults_tables (hholds : builder.Holds request) (hvalid : request.Valid)
    (hwithin : builder.heapBytes.Within heaps) :
    DocumentIndex.methodResults builder.tables heaps =
      (request.methods.zipIdx 1).map fun entry =>
        (entry.2, .ok (DocumentIndex.partsOfMethod entry.2 entry.1.points
          (request.scopesOf entry.2))) := by
  have hmethods := (List.forall₂_and_left _ _).2 ⟨hvalid.methods, hholds.methods⟩
  rw [DocumentIndex.methodResults_eq, Rows.entries, List.map_map]
  refine map_zipIdx_of_forall₂ hmethods (fun method row number hmethod => ?_) 1
  simp only [Function.comp_apply, hholds.scopesNaming_tables hwithin,
    hholds.methodOfRow_tables hwithin hmethod.1 hmethod.2]

theorem Holds.partsIn_tables (hholds : builder.Holds request) (hvalid : request.Valid)
    (hwithin : builder.heapBytes.Within heaps) (document : Nat) :
    DocumentIndex.partsIn builder.tables heaps document = request.partsIn document := by
  rw [DocumentIndex.partsIn, hholds.methodResults_tables hvalid hwithin,
    DocumentIndex.successes_map_ok, FileRequest.partsIn, List.filterMap_eq_flatMap_toList,
    List.filter_flatten, List.map_flatten, List.flatMap_def, List.map_map, List.map_map]
  simp only [Function.comp_def, DocumentIndex.filter_partsOfMethod]

/-- The index of a built file is what was asked for, and nothing was skipped. -/
theorem Holds.ofTables_tables (hholds : builder.Holds request) (hvalid : request.Valid)
    (hwithin : builder.heapBytes.Within heaps) :
    DocumentIndex.ofTables builder.tables heaps =
      { documents := request.documentInfos, malformedDocuments := [], malformedMethods := [] } := by
  have hdocuments : (DocumentIndex.ofTables builder.tables heaps).documents =
      request.documentInfos := by
    rw [DocumentIndex.documents_ofTables, hholds.documentResults_tables hwithin,
      DocumentIndex.successes_map_ok, List.map_map]
    refine List.map_congr_left fun entry _ => ?_
    simp only [Function.comp_apply, hholds.partsIn_tables hvalid hwithin]
    rfl
  have hmalformedDocuments :
      DocumentIndex.failures (DocumentIndex.documentResults builder.tables heaps) = [] := by
    rw [hholds.documentResults_tables hwithin, DocumentIndex.failures_map_ok]
  have hmalformedMethods :
      DocumentIndex.failures (DocumentIndex.methodResults builder.tables heaps) = [] := by
    rw [hholds.methodResults_tables hvalid hwithin, DocumentIndex.failures_map_ok]
  calc DocumentIndex.ofTables builder.tables heaps
      = { documents := (DocumentIndex.ofTables builder.tables heaps).documents
          malformedDocuments :=
            DocumentIndex.failures (DocumentIndex.documentResults builder.tables heaps)
          malformedMethods :=
            DocumentIndex.failures (DocumentIndex.methodResults builder.tables heaps) } := rfl
    _ = { documents := request.documentInfos
          malformedDocuments := []
          malformedMethods := [] } := by
        rw [hdocuments, hmalformedDocuments, hmalformedMethods]

end Builder

end PortablePdb
