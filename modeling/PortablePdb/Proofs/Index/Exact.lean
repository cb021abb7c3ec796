import PortablePdb.Proofs.Index.Readable
import PortablePdb.Proofs.Method

/-!
# The index holds exactly what can be read

Main statement: `ofTables_joins`.  The documents of the index are the document rows that can be
read, and the methods of a document are the good method rows with a visible point there, both in
the order of the rows and each once.  What is counted as skipped are the other rows.
-/

namespace PortablePdb

namespace DocumentIndex

/-- The part in a document of the method with the entry's number and row, if it has one. -/
def partIn? (tables : Tables) (heaps : Heaps) (document : Nat) (entry : Nat × MethodRow) :
    Option MethodInfo :=
  (methodOfRow tables heaps entry.1 entry.2 (scopesNaming tables heaps entry.1)).toOption.bind
    fun parts => (parts.find? fun part => part.1 = document).map Prod.snd

theorem find?_partsOfMethod (row : Nat) (points : List SequencePoint) (scopes : List Scope)
    (document : Nat) :
    ((partsOfMethod row points scopes).find? fun part => part.1 = document).map Prod.snd =
      MethodInfo.ofPoints? row (points.filter fun point => point.document = document) scopes := by
  rw [← List.head?_filter, ← List.head?_map, filter_partsOfMethod, Option.head?_toList]

theorem map_filter_parts {tables : Tables} {heaps : Heaps} {document : Nat}
    {entry : Nat × MethodRow} {parts : List (Nat × MethodInfo)}
    (hparts : methodOfRow tables heaps entry.1 entry.2 (scopesNaming tables heaps entry.1) =
      .ok parts) :
    (parts.filter fun part => part.1 = document).map Prod.snd =
      (partIn? tables heaps document entry).toList := by
  rw [partIn?, hparts]
  obtain ⟨scopes, -, ⟨-, rfl⟩ | ⟨points, -, -, rfl⟩⟩ := methodOfRow_eq_ok_iff.1 hparts
  · rfl
  · rw [filter_partsOfMethod, ← find?_partsOfMethod]
    rfl

theorem partsIn_eq_filterMap (tables : Tables) (heaps : Heaps) (document : Nat) :
    partsIn tables heaps document =
      tables.methods.entries.filterMap (partIn? tables heaps document) := by
  rw [partsIn, methodResults_eq, successes_map]
  induction tables.methods.entries with
  | nil => rfl
  | cons entry entries ih =>
      rw [List.filterMap_cons, List.filterMap_cons]
      cases hparts : methodOfRow tables heaps entry.1 entry.2
          (scopesNaming tables heaps entry.1) with
      | error error =>
          have hnone : partIn? tables heaps document entry = none := by
            rw [partIn?, hparts]
            rfl
          rw [hnone]
          exact ih
      | ok parts =>
          change ((parts ++ _).filter _).map _ = _
          rw [List.filter_append, List.map_append, ih, map_filter_parts hparts]
          cases partIn? tables heaps document entry <;> rfl

theorem partIn?_eq_some_iff {tables : Tables} {heaps : Heaps} {document number : Nat}
    {row : MethodRow} {info : MethodInfo} :
    partIn? tables heaps document (number, row) = some info ↔
      ∃ scopes points,
        List.Forall₂ (fun entry scope => scopeResult tables heaps entry.1 entry.2 = .ok scope)
          (scopeRowsOf tables number) scopes ∧
        row.HasPoints heaps points ∧
        (∀ point ∈ points, (tables.documents.get? point.document).isSome) ∧
        MethodInfo.ofPoints? number (points.filter fun point => point.document = document) scopes =
          some info := by
  rw [partIn?, Option.bind_eq_some_iff]
  constructor
  · rintro ⟨parts, hparts, hinfo⟩
    rw [Except.toOption_eq_some_iff, methodOfRow_eq_ok_iff] at hparts
    obtain ⟨scopes, hscopes, ⟨-, rfl⟩ | ⟨points, hpoints, hdocuments, rfl⟩⟩ := hparts
    · cases hinfo
    · rw [find?_partsOfMethod] at hinfo
      exact ⟨scopes, points, hscopes, hpoints, hdocuments, hinfo⟩
  · rintro ⟨scopes, points, hscopes, hpoints, hdocuments, hinfo⟩
    refine ⟨partsOfMethod number points scopes, ?_, ?_⟩
    · rw [Except.toOption_eq_some_iff, methodOfRow_eq_ok_iff]
      exact ⟨scopes, hscopes, .inr ⟨points, hpoints, hdocuments, rfl⟩⟩
    · rw [find?_partsOfMethod, hinfo]

end DocumentIndex

/-! ## What a method row contributes to a document -/

theorem MethodRow.HasPoints.unique {heaps : Heaps} {row : MethodRow}
    {first second : List SequencePoint} (hfirst : row.HasPoints heaps first)
    (hsecond : row.HasPoints heaps second) : first = second := by
  obtain ⟨-, blob, hblob, hdecode⟩ := hfirst
  obtain ⟨-, other, hother, hdecodeOther⟩ := hsecond
  rw [hblob] at hother
  cases hother
  rw [hdecode] at hdecodeOther
  cases hdecodeOther
  rfl

/-- The good rows with a visible point in the document. -/
structure MethodRow.HasPartIn (tables : Tables) (heaps : Heaps) (document number : Nat)
    (row : MethodRow) : Prop where
  good : row.Good tables heaps number
  visible : row.VisibleIn heaps document

/-- The part in a document of the method with row number `number`. -/
structure MethodInfo.PartOf (tables : Tables) (heaps : Heaps) (document number : Nat)
    (row : MethodRow) (info : MethodInfo) : Prop where
  row_eq : info.row = number
  built : ∃ points scopes, row.HasPoints heaps points ∧
    List.Forall₂ (fun entry scope => entry.2.ReadsAs tables heaps entry.1 scope)
      (DocumentIndex.scopeRowsOf tables number) scopes ∧
    info.BuiltFrom number (points.filter fun point => point.document = document) scopes

namespace DocumentIndex

theorem isSome_partIn?_iff {tables : Tables} {heaps : Heaps} {document number : Nat}
    {row : MethodRow} :
    (partIn? tables heaps document (number, row)).isSome ↔
      row.HasPartIn tables heaps document number := by
  rw [Option.isSome_iff_exists]
  constructor
  · rintro ⟨info, hinfo⟩
    obtain ⟨scopes, points, hscopes, hpoints, hdocuments, hinfo⟩ := partIn?_eq_some_iff.1 hinfo
    have hvisible := MethodInfo.isSome_ofPoints? number
      (points.filter fun point => point.document = document) scopes
    rw [hinfo, Option.isSome_some, eq_comm, List.any_eq_true] at hvisible
    obtain ⟨point, hpoint, hvisible⟩ := hvisible
    rw [List.mem_filter, decide_eq_true_eq] at hpoint
    refine ⟨isOk_methodOfRow_iff.1 (Except.isOk_iff.2 ⟨_, methodOfRow_eq_ok_iff.2
      ⟨scopes, hscopes, .inr ⟨points, hpoints, hdocuments, rfl⟩⟩⟩), ?_⟩
    exact ⟨points, hpoints, point, hpoint.1, hvisible, hpoint.2⟩
  · rintro ⟨hgood, points, hpoints, point, hpoint, hvisible, hdocument⟩
    obtain ⟨parts, hparts⟩ := Except.isOk_iff.1 (isOk_methodOfRow_iff.2 hgood)
    obtain ⟨scopes, hscopes, ⟨hzero, -⟩ | ⟨others, hothers, hdocuments, -⟩⟩ :=
      methodOfRow_eq_ok_iff.1 hparts
    · exact absurd hzero hpoints.1
    · cases hpoints.unique hothers
      have hsome := MethodInfo.isSome_ofPoints? number
        (points.filter fun point => point.document = document) scopes
      rw [List.any_eq_true.2 ⟨point, List.mem_filter.2 ⟨hpoint, by simpa using hdocument⟩,
        hvisible⟩] at hsome
      obtain ⟨info, hinfo⟩ := Option.isSome_iff_exists.1 hsome
      exact ⟨info, partIn?_eq_some_iff.2 ⟨scopes, points, hscopes, hpoints, hdocuments, hinfo⟩⟩

theorem partOf_of_partIn? {tables : Tables} {heaps : Heaps} {document number : Nat}
    {row : MethodRow} {info : MethodInfo} (hnumber : number < 0x1000000)
    (hinfo : partIn? tables heaps document (number, row) = some info) :
    info.PartOf tables heaps document number row := by
  obtain ⟨scopes, points, hscopes, hpoints, -, hinfo⟩ := partIn?_eq_some_iff.1 hinfo
  refine ⟨MethodInfo.row_of_ofPoints? hnumber hinfo, points, scopes, hpoints, ?_,
    MethodInfo.builtFrom_of_ofPoints? hinfo⟩
  exact hscopes.imp fun _ _ hscope => (scopeResult_eq_ok_iff.1 hscope).2

end DocumentIndex

instance (tables : Tables) (heaps : Heaps) (document number : Nat) (row : MethodRow) :
    Decidable (row.HasPartIn tables heaps document number) :=
  decidable_of_iff _ DocumentIndex.isSome_partIn?_iff

/-! ## The whole index -/

namespace DocumentIndex

/-- The index of the tables, said row by row. -/
structure Joins (tables : Tables) (heaps : Heaps) (index : DocumentIndex) : Prop where
  documents : List.Forall₂ (fun entry info => entry.2.ReadsAs heaps entry.1 info)
    (tables.documents.entries.filter fun entry => entry.2.Readable heaps) index.documents
  skippedDocuments : index.skippedDocuments =
    tables.documents.entries.countP fun entry => ¬entry.2.Readable heaps
  skippedMethods : index.skippedMethods =
    tables.methods.entries.countP fun entry => ¬entry.2.Good tables heaps entry.1
  methods : ∀ info ∈ index.documents,
    List.Forall₂ (fun entry method =>
        method.PartOf tables heaps info.document entry.1 entry.2)
      (tables.methods.entries.filter fun entry =>
        entry.2.HasPartIn tables heaps info.document entry.1) info.methods
  documents_increase : (index.documents.map DocumentInfo.document).Pairwise (· < ·)
  methods_increase : ∀ info ∈ index.documents,
    (info.methods.map MethodInfo.row).Pairwise (· < ·)

theorem pairwise_numbers {α Row : Type} {rows : Rows Row} {select : Nat × Row → Bool}
    {values : List α} {number : α → Nat}
    (hrelated : List.Forall₂ (fun entry value => number value = entry.1)
      (rows.entries.filter select) values) : (values.map number).Pairwise (· < ·) := by
  have hnumbers : (rows.entries.filter select).map Prod.fst = values.map number := by
    rw [← List.forall₂_eq_eq_eq, List.forall₂_map_left_iff, List.forall₂_map_right_iff]
    exact hrelated.imp fun _ _ hsame => hsame.symm
  rw [← hnumbers]
  exact rows.entries_increase.sublist (List.filter_sublist.map Prod.fst)

theorem forall₂_documents (tables : Tables) (heaps : Heaps) :
    List.Forall₂ (fun entry info => entry.2.ReadsAs heaps entry.1 info)
      (tables.documents.entries.filter fun entry => entry.2.Readable heaps)
      (ofTables tables heaps).documents := by
  have hreadable : (tables.documents.entries.filter fun entry => entry.2.Readable heaps) =
      tables.documents.entries.filter fun entry =>
        (DocumentInfo.ofRow heaps entry.1 entry.2).isOk := by
    refine List.filter_congr fun entry _ => ?_
    rw [Bool.eq_iff_iff, decide_eq_true_eq, isOk_ofRow_iff]
  have hread := forall₂_successes tables.documents.entries fun entry =>
    DocumentInfo.ofRow heaps entry.1 entry.2
  rw [documents_ofTables, List.forall₂_map_right_iff, hreadable]
  refine hread.imp fun entry info hinfo => ?_
  obtain ⟨hreads, -⟩ := ofRow_eq_ok_iff.1 hinfo
  exact { hreads with }

theorem forall₂_partsIn {tables : Tables} {heaps : Heaps}
    (hmethods : tables.methods.count < 0x1000000) (document : Nat) :
    List.Forall₂ (fun entry method => method.PartOf tables heaps document entry.1 entry.2)
      (tables.methods.entries.filter fun entry =>
        entry.2.HasPartIn tables heaps document entry.1)
      (partsIn tables heaps document) := by
  have hparts : (tables.methods.entries.filter fun entry =>
      entry.2.HasPartIn tables heaps document entry.1) =
      tables.methods.entries.filter fun entry => (partIn? tables heaps document entry).isSome := by
    refine List.filter_congr fun entry _ => ?_
    rw [Bool.eq_iff_iff, decide_eq_true_eq, isSome_partIn?_iff]
  rw [hparts, partsIn_eq_filterMap]
  have hselected := forall₂_filterMap (partIn? tables heaps document) tables.methods.entries
  have hboth := (List.forall₂_and_left _ _).2 ⟨fun entry hentry =>
    Rows.mem_entries (List.mem_of_mem_filter hentry), hselected⟩
  refine hboth.imp fun entry method hmethod => ?_
  exact partOf_of_partIn? (Nat.lt_of_le_of_lt hmethod.1.2 hmethods) hmethod.2

theorem skippedDocuments_ofTables (tables : Tables) (heaps : Heaps) :
    (ofTables tables heaps).skippedDocuments =
      tables.documents.entries.countP fun entry => ¬entry.2.Readable heaps := by
  have hlength := length_failures tables.documents.entries fun entry =>
    DocumentInfo.ofRow heaps entry.1 entry.2
  refine hlength.trans (List.countP_congr fun entry _ => ?_)
  rw [decide_eq_true_eq, ← isOk_ofRow_iff entry.1, Bool.not_eq_true', Bool.not_eq_true]

theorem skippedMethods_ofTables (tables : Tables) (heaps : Heaps) :
    (ofTables tables heaps).skippedMethods =
      tables.methods.entries.countP fun entry => ¬entry.2.Good tables heaps entry.1 := by
  have hlength := length_failures tables.methods.entries fun entry =>
    methodOfRow tables heaps entry.1 entry.2 (scopesNaming tables heaps entry.1)
  rw [← methodResults_eq] at hlength
  refine hlength.trans (List.countP_congr fun entry _ => ?_)
  rw [decide_eq_true_eq, ← isOk_methodOfRow_iff, Bool.not_eq_true', Bool.not_eq_true]

/-- The index is the join of the tables: no row is lost, taken twice, or taken for another. -/
theorem ofTables_joins {tables : Tables} {heaps : Heaps}
    (hmethods : tables.methods.count < 0x1000000) :
    Joins tables heaps (ofTables tables heaps) := by
  have hparts : ∀ info ∈ (ofTables tables heaps).documents,
      List.Forall₂ (fun entry method =>
          method.PartOf tables heaps info.document entry.1 entry.2)
        (tables.methods.entries.filter fun entry =>
          entry.2.HasPartIn tables heaps info.document entry.1) info.methods := by
    intro info hinfo
    rw [documents_ofTables] at hinfo
    obtain ⟨found, -, rfl⟩ := List.mem_map.1 hinfo
    exact forall₂_partsIn hmethods found.document
  have hdocuments := forall₂_documents tables heaps
  exact {
    documents := hdocuments
    skippedDocuments := skippedDocuments_ofTables tables heaps
    skippedMethods := skippedMethods_ofTables tables heaps
    methods := hparts
    documents_increase := pairwise_numbers (hdocuments.imp fun _ _ hreads => hreads.document)
    methods_increase := fun info hinfo =>
      pairwise_numbers ((hparts info hinfo).imp fun _ _ hpart => hpart.row_eq) }

/-- Three documents of which the second has no name, and six methods: in two documents, with an
overlapping run of locals, in the document without a name, without points, hidden, and with points
that end too early. -/
def scatteredTables : Tables where
  documents := ⟨#[⟨1, 0, 0, 0⟩, ⟨200, 0, 0, 0⟩, ⟨1, 0, 0, 0⟩]⟩
  methods := ⟨#[⟨0, 6⟩, ⟨1, 21⟩, ⟨2, 21⟩, ⟨3, 0⟩, ⟨1, 28⟩, ⟨1, 33⟩]⟩
  scopes := ⟨#[⟨3, 0, 1, 1, 0, 5⟩, ⟨1, 0, 1, 1, 2, 3⟩, ⟨2, 0, 3, 1, 0, 9⟩, ⟨1, 0, 2, 1, 0, 9⟩]⟩
  «variables» := ⟨#[⟨0, 0, 1⟩, ⟨0, 1, 3⟩]⟩
  constants := .empty

def scatteredHeaps : Heaps where
  strings := [0, 0x78, 0, 0x79, 0].toByteArray
  blobs := [0, 2, 0x2F, 4, 1, 0x61,
    14, 0, 1, 0, 0, 4, 1, 1, 0, 3, 2, 0, 4, 2, 0,
    6, 0, 0, 0, 4, 1, 1,
    4, 0, 1, 0, 0,
    2, 0, 1].toByteArray
  guids := ByteArray.empty
  guids_whole := rfl

theorem ofTables_joins_scattered :
    scatteredTables.methods.count < 0x1000000 ∧
      Joins scatteredTables scatteredHeaps (ofTables scatteredTables scatteredHeaps) ∧
      (ofTables scatteredTables scatteredHeaps).documents.map
          (fun info => (info.document, info.methods.map MethodInfo.row)) =
        [(1, [1]), (3, [1])] ∧
      (ofTables scatteredTables scatteredHeaps).malformedDocuments.map Prod.fst = [2] ∧
      (ofTables scatteredTables scatteredHeaps).malformedMethods.map Prod.fst = [2, 6] := by
  have hmethods : scatteredTables.methods.count < 0x1000000 := by decide
  exact ⟨hmethods, ofTables_joins hmethods, by decide +kernel, by decide +kernel,
    by decide +kernel⟩

end DocumentIndex

end PortablePdb
