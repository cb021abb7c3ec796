import PortablePdb.Proofs.Index.Exact

/-!
# A row affects only what is made of it

Main statement: `ofTables_isolates`.  Two runs of the index are compared, on tables that differ in
one row of methods, or in one row of documents.  The numbered rows split at that row into the same
rows before and behind it; every pass over them splits with them, because a pass makes at most one
item of a row and carries nothing from one row to the next.
-/

namespace PortablePdb

/-! ## Lists that differ in the item of one number -/

section SameBesides

variable {α β : Type} {first second : List α} {number : Nat}

/-- The lists agree but for at most one item of each, made for `number`; the items before it were
made for smaller numbers and those behind it for larger ones. -/
def SameBesides (number : Nat) (madeFor : Nat → α → Prop) (first second : List α) : Prop :=
  ∃ (before after : List α) (own other : Option α),
    first = before ++ own.toList ++ after ∧
    second = before ++ other.toList ++ after ∧
    (∀ item ∈ before, ∃ id, id < number ∧ madeFor id item) ∧
    (∀ item ∈ own.toList ++ other.toList, madeFor number item) ∧
    ∀ item ∈ after, ∃ id, number < id ∧ madeFor id item

theorem filterMap_toList (select : α → Option β) (item : Option α) :
    item.toList.filterMap select = (item.bind select).toList := by
  cases item with
  | none => rfl
  | some item =>
      rw [Option.toList_some, Option.bind_some, List.filterMap_cons]
      cases select item <;> rfl

theorem SameBesides.filterMap {madeFor : Nat → α → Prop} {resultFor : Nat → β → Prop}
    {select : α → Option β}
    (hselect : ∀ item, item ∈ first ∨ item ∈ second → ∀ id value, madeFor id item →
      select item = some value → resultFor id value)
    (hsame : SameBesides number madeFor first second) :
    SameBesides number resultFor (first.filterMap select) (second.filterMap select) := by
  obtain ⟨before, after, own, other, rfl, rfl, hbefore, hown, hafter⟩ := hsame
  simp only [List.mem_append] at hselect
  refine ⟨before.filterMap select, after.filterMap select, own.bind select, other.bind select,
    ?_, ?_, fun value hvalue => ?_, fun value hvalue => ?_, fun value hvalue => ?_⟩
  · rw [List.filterMap_append, List.filterMap_append, filterMap_toList]
  · rw [List.filterMap_append, List.filterMap_append, filterMap_toList]
  · obtain ⟨item, hitem, hsome⟩ := List.mem_filterMap.1 hvalue
    obtain ⟨id, hid, hmade⟩ := hbefore item hitem
    exact ⟨id, hid, hselect item (.inl (.inl (.inl hitem))) id value hmade hsome⟩
  · rw [← filterMap_toList, ← filterMap_toList, ← List.filterMap_append] at hvalue
    obtain ⟨item, hitem, hsome⟩ := List.mem_filterMap.1 hvalue
    have hmade := hown item hitem
    rcases List.mem_append.1 hitem with hitem | hitem
    · exact hselect item (.inl (.inl (.inr hitem))) number value hmade hsome
    · exact hselect item (.inr (.inl (.inr hitem))) number value hmade hsome
  · obtain ⟨item, hitem, hsome⟩ := List.mem_filterMap.1 hvalue
    obtain ⟨id, hid, hmade⟩ := hafter item hitem
    exact ⟨id, hid, hselect item (.inl (.inr hitem)) id value hmade hsome⟩

theorem SameBesides.symm {madeFor : Nat → α → Prop}
    (hsame : SameBesides number madeFor first second) :
    SameBesides number madeFor second first := by
  obtain ⟨before, after, own, other, hfirst, hsecond, hbefore, hown, hafter⟩ := hsame
  refine ⟨before, after, other, own, hsecond, hfirst, hbefore, fun item hitem => ?_, hafter⟩
  exact hown item (List.mem_append.2 (List.mem_append.1 hitem).symm)

theorem SameBesides.length_le {madeFor : Nat → α → Prop}
    (hsame : SameBesides number madeFor first second) : first.length ≤ second.length + 1 := by
  obtain ⟨before, after, own, other, rfl, rfl, -, -, -⟩ := hsame
  have hown : own.toList.length ≤ 1 := by cases own <;> simp
  simp only [List.length_append]
  omega

end SameBesides

/-! ## Tables that differ in one row -/

namespace Rows

variable {Row : Type} {first second : Rows Row} {number : Nat}

structure AgreeBesides (number : Nat) (first second : Rows Row) : Prop where
  count : first.count = second.count
  rows : ∀ other, other ≠ number → first.get? other = second.get? other

theorem getElem?_entries_eq_get? (rows : Rows Row) (i : Nat) :
    rows.entries[i]? = (rows.get? (i + 1)).map fun row => (i + 1, row) := by
  rw [getElem?_entries, get?_succ]

theorem number_of_getElem?_entries {rows : Rows Row} {i : Nat} {entry : Nat × Row}
    (hentry : rows.entries[i]? = some entry) : entry.1 = i + 1 := by
  rw [getElem?_entries] at hentry
  obtain ⟨row, -, rfl⟩ := Option.map_eq_some_iff.1 hentry
  rfl

theorem AgreeBesides.getElem?_entries (hagree : AgreeBesides number first second) {i : Nat}
    (hi : i + 1 ≠ number) : first.entries[i]? = second.entries[i]? := by
  rw [getElem?_entries_eq_get?, getElem?_entries_eq_get?, hagree.rows (i + 1) hi]

theorem lt_of_mem_take_entries {rows : Rows Row} {k : Nat} {entry : Nat × Row}
    (hentry : entry ∈ rows.entries.take k) : entry.1 < k + 1 := by
  obtain ⟨i, hi⟩ := List.mem_iff_getElem?.1 hentry
  rw [List.getElem?_take] at hi
  split at hi
  case isTrue hlt =>
      rw [number_of_getElem?_entries hi]
      omega
  case isFalse => cases hi

theorem lt_of_mem_drop_entries {rows : Rows Row} {k : Nat} {entry : Nat × Row}
    (hentry : entry ∈ rows.entries.drop (k + 1)) : k + 1 < entry.1 := by
  obtain ⟨i, hi⟩ := List.mem_iff_getElem?.1 hentry
  rw [List.getElem?_drop] at hi
  rw [number_of_getElem?_entries hi]
  omega

theorem entries_eq_split (rows : Rows Row) (k : Nat) :
    rows.entries = rows.entries.take k ++ rows.entries[k]?.toList ++ rows.entries.drop (k + 1) := by
  rw [← List.take_add_one, List.take_append_drop]

theorem AgreeBesides.sameBesides (hagree : AgreeBesides number first second) :
    SameBesides number (fun id entry => entry.1 = id) first.entries second.entries := by
  cases number with
  | zero =>
      -- No row has the number zero.
      have hentries : first.entries = second.entries :=
        List.ext_getElem? fun i => hagree.getElem?_entries (Nat.succ_ne_zero i)
      refine ⟨[], first.entries, none, none, rfl, hentries.symm, by simp, by simp,
        fun entry hentry => ⟨entry.1, (mem_entries hentry).1, rfl⟩⟩
  | succ k =>
      have hbefore : first.entries.take k = second.entries.take k := by
        refine List.ext_getElem? fun i => ?_
        rw [List.getElem?_take, List.getElem?_take]
        split
        case isTrue hlt => exact hagree.getElem?_entries (by omega)
        case isFalse => rfl
      have hafter : first.entries.drop (k + 1) = second.entries.drop (k + 1) := by
        refine List.ext_getElem? fun i => ?_
        rw [List.getElem?_drop, List.getElem?_drop]
        exact hagree.getElem?_entries (by omega)
      refine ⟨first.entries.take k, first.entries.drop (k + 1), first.entries[k]?,
        second.entries[k]?, entries_eq_split first k, ?_, fun entry hentry => ?_,
        fun entry hentry => ?_, fun entry hentry => ?_⟩
      · rw [hbefore, hafter]
        exact entries_eq_split second k
      · exact ⟨entry.1, lt_of_mem_take_entries hentry, rfl⟩
      · rw [List.mem_append, Option.mem_toList, Option.mem_toList] at hentry
        exact hentry.elim number_of_getElem?_entries number_of_getElem?_entries
      · exact ⟨entry.1, lt_of_mem_drop_entries hentry, rfl⟩

theorem agreeBesides_set (rows : Rows Row) (k : Nat) (row : Row) :
    AgreeBesides (k + 1) rows ⟨rows.toArray.setIfInBounds k row⟩ where
  count := (Array.size_setIfInBounds).symm
  rows other hother := by
    cases other with
    | zero => rfl
    | succ i =>
        rw [get?_succ, get?_succ, Array.getElem?_setIfInBounds_ne (by omega)]

theorem isNone_get? (rows : Rows Row) (id : Nat) :
    (rows.get? id).isNone = decide (id = 0 ∨ rows.count < id) := by
  cases id with
  | zero => simp [get?]
  | succ i =>
      rw [get?_succ, Bool.eq_iff_iff, decide_eq_true_eq, Option.isNone_iff_eq_none,
        Array.getElem?_eq_none_iff, count]
      omega

end Rows

structure Tables.AgreeBesidesMethod (number : Nat) (first second : Tables) : Prop where
  documents : first.documents = second.documents
  methods : first.methods.AgreeBesides number second.methods
  scopes : first.scopes = second.scopes
  «variables» : first.variables = second.variables
  constants : first.constants = second.constants

structure Tables.AgreeBesidesDocument (number : Nat) (first second : Tables) : Prop where
  documents : first.documents.AgreeBesides number second.documents
  methods : first.methods = second.methods
  scopes : first.scopes = second.scopes
  «variables» : first.variables = second.variables
  constants : first.constants = second.constants

/-! ## What two indices share -/

/-- The method was built for the row with number `id`, of `rows` rows. -/
structure MethodInfo.MadeFor (rows id : Nat) (method : MethodInfo) : Prop where
  low : 1 ≤ id
  high : id ≤ rows
  methodDef : method.methodDef = token ||| id

def DocumentInfo.withoutMethods (info : DocumentInfo) : DocumentInfo :=
  { info with methods := [] }

theorem DocumentInfo.withoutMethods_with (info : DocumentInfo) (methods : List MethodInfo) :
    { info with methods }.withoutMethods = info.withoutMethods :=
  rfl

namespace DocumentIndex

/-- All documents agree, and their methods but for those made for the method row `number`. -/
structure SameBesidesMethod (rows number : Nat) (first second : DocumentIndex) : Prop where
  documents : List.Forall₂ (fun info other => info.withoutMethods = other.withoutMethods ∧
    SameBesides number (MethodInfo.MadeFor rows) info.methods other.methods)
    first.documents second.documents
  malformedDocuments : first.malformedDocuments = second.malformedDocuments
  skippedDocuments : first.skippedDocuments = second.skippedDocuments
  malformedMethods : SameBesides number (fun id failure => failure.1 = id)
    first.malformedMethods second.malformedMethods
  skippedMethods_le : first.skippedMethods ≤ second.skippedMethods + 1
  le_skippedMethods : second.skippedMethods ≤ first.skippedMethods + 1

/-- All documents but that of the document row `number` agree with their methods. -/
structure SameBesidesDocument (number : Nat) (first second : DocumentIndex) : Prop where
  documents : SameBesides number (fun id info => info.document = id)
    first.documents second.documents
  malformedDocuments : SameBesides number (fun id failure => failure.1 = id)
    first.malformedDocuments second.malformedDocuments
  skippedDocuments_le : first.skippedDocuments ≤ second.skippedDocuments + 1
  le_skippedDocuments : second.skippedDocuments ≤ first.skippedDocuments + 1
  malformedMethods : first.malformedMethods = second.malformedMethods
  skippedMethods : first.skippedMethods = second.skippedMethods

/-! ## Passes over the rows -/

section Passes

variable {α Row : Type} {first second : Rows Row} {number : Nat}

theorem failures_map (entries : List (Nat × Row)) (read : Nat × Row → Except ReadError α) :
    failures (entries.map fun entry => (entry.1, read entry)) =
      entries.filterMap fun entry =>
        match read entry with
        | .error error => some (entry.1, error)
        | .ok _ => none := by
  rw [failures, List.filterMap_map]
  refine List.filterMap_congr fun entry _ => ?_
  rw [Function.comp_apply]
  cases read entry <;> rfl

theorem sameBesides_failures (hagree : first.AgreeBesides number second)
    (read : Nat × Row → Except ReadError α) :
    SameBesides number (fun id failure => failure.1 = id)
      (failures (first.entries.map fun entry => (entry.1, read entry)))
      (failures (second.entries.map fun entry => (entry.1, read entry))) := by
  rw [failures_map, failures_map]
  refine hagree.sameBesides.filterMap fun entry _ id failure hid hfailure => ?_
  split at hfailure
  · cases hfailure
    exact hid
  · cases hfailure

end Passes

/-! ## A row of methods -/

section Method

variable {first second : Tables} {number : Nat}

theorem partIn?_eq_of_agree (hagree : first.AgreeBesidesMethod number second) (heaps : Heaps) :
    partIn? first heaps = partIn? second heaps := by
  obtain ⟨documents, methods, scopes, entries, constants⟩ := first
  obtain ⟨others, others, others, others, others⟩ := second
  obtain ⟨rfl, -, rfl, rfl, rfl⟩ := hagree
  rfl

theorem sameBesides_partsIn (hagree : first.AgreeBesidesMethod number second) (heaps : Heaps)
    (document : Nat) :
    SameBesides number (MethodInfo.MadeFor first.methods.count) (partsIn first heaps document)
      (partsIn second heaps document) := by
  rw [partsIn_eq_filterMap, partsIn_eq_filterMap, ← partIn?_eq_of_agree hagree]
  refine hagree.methods.sameBesides.filterMap fun entry hentry id method hid hmethod => ?_
  have hrow : 1 ≤ entry.1 ∧ entry.1 ≤ first.methods.count := by
    rcases hentry with hentry | hentry
    · exact Rows.mem_entries hentry
    · rw [hagree.methods.count]
      exact Rows.mem_entries hentry
  obtain ⟨scopes, points, -, -, -, hinfo⟩ := partIn?_eq_some_iff.1 hmethod
  rw [← hid]
  exact ⟨hrow.1, hrow.2, (MethodInfo.builtFrom_of_ofPoints? hinfo).methodDef⟩

theorem methodResult_eq_of_agree (hagree : first.AgreeBesidesMethod number second)
    (heaps : Heaps) (entry : Nat × MethodRow) :
    methodOfRow first heaps entry.1 entry.2 (scopesNaming first heaps entry.1) =
      methodOfRow second heaps entry.1 entry.2 (scopesNaming second heaps entry.1) := by
  obtain ⟨documents, methods, scopes, entries, constants⟩ := first
  obtain ⟨others, others, others, others, others⟩ := second
  obtain ⟨rfl, -, rfl, rfl, rfl⟩ := hagree
  rfl

theorem sameBesidesMethod_ofTables (hagree : first.AgreeBesidesMethod number second)
    (heaps : Heaps) :
    SameBesidesMethod first.methods.count number (ofTables first heaps)
      (ofTables second heaps) := by
  have hresults : documentResults first heaps = documentResults second heaps := by
    rw [documentResults, documentResults, hagree.documents]
  have hmalformed : SameBesides number (fun id failure => failure.1 = id)
      (ofTables first heaps).malformedMethods (ofTables second heaps).malformedMethods := by
    change SameBesides number _ (failures (methodResults first heaps))
      (failures (methodResults second heaps))
    rw [methodResults_eq, methodResults_eq]
    simp only [methodResult_eq_of_agree hagree]
    exact sameBesides_failures hagree.methods _
  have hmalformedDocuments : (ofTables first heaps).malformedDocuments =
      (ofTables second heaps).malformedDocuments := congrArg failures hresults
  refine ⟨?_, hmalformedDocuments, congrArg List.length hmalformedDocuments, hmalformed,
    hmalformed.length_le, hmalformed.symm.length_le⟩
  rw [documents_ofTables, documents_ofTables, hresults, List.forall₂_map_left_iff,
    List.forall₂_map_right_iff, List.forall₂_same]
  intro info _
  exact ⟨(info.withoutMethods_with _).trans (info.withoutMethods_with _).symm,
    sameBesides_partsIn hagree heaps info.document⟩

end Method

/-! ## A row of documents -/

section Document

variable {first second : Tables} {number : Nat}

/-- Of the documents, the methods read only how many there are. -/
theorem methodResults_eq_of_agree (hagree : first.AgreeBesidesDocument number second)
    (heaps : Heaps) : methodResults first heaps = methodResults second heaps := by
  obtain ⟨documents, methods, scopes, entries, constants⟩ := first
  obtain ⟨otherDocuments, others, others, others, others⟩ := second
  obtain ⟨hdocuments, rfl, rfl, rfl, rfl⟩ := hagree
  have hpoints : ∀ row, pointsOfRow ⟨documents, methods, scopes, entries, constants⟩ heaps row =
      pointsOfRow ⟨otherDocuments, methods, scopes, entries, constants⟩ heaps row := by
    intro row
    simp only [pointsOfRow, Rows.isNone_get?, hdocuments.count]
  rw [methodResults_eq, methodResults_eq]
  simp only [methodOfRow, hpoints]
  rfl

theorem sameBesidesDocument_ofTables (hagree : first.AgreeBesidesDocument number second)
    (heaps : Heaps) :
    SameBesidesDocument number (ofTables first heaps) (ofTables second heaps) := by
  have hresults := methodResults_eq_of_agree hagree heaps
  have hparts : partsIn first heaps = partsIn second heaps := by
    funext document
    rw [partsIn, partsIn, hresults]
  have hmalformed : SameBesides number (fun id failure => failure.1 = id)
      (ofTables first heaps).malformedDocuments (ofTables second heaps).malformedDocuments :=
    sameBesides_failures hagree.documents fun entry => DocumentInfo.ofRow heaps entry.1 entry.2
  have hmalformedMethods : (ofTables first heaps).malformedMethods =
      (ofTables second heaps).malformedMethods := congrArg failures hresults
  refine ⟨?_, hmalformed, hmalformed.length_le, hmalformed.symm.length_le, hmalformedMethods,
    congrArg List.length hmalformedMethods⟩
  have hread (tables : Tables) : successes (documentResults tables heaps) =
      tables.documents.entries.filterMap fun entry =>
        (DocumentInfo.ofRow heaps entry.1 entry.2).toOption :=
    successes_map tables.documents.entries fun entry => DocumentInfo.ofRow heaps entry.1 entry.2
  rw [documents_ofTables, documents_ofTables, hparts, hread, hread, List.map_filterMap,
    List.map_filterMap]
  refine hagree.documents.sameBesides.filterMap fun entry _ id info hid hinfo => ?_
  obtain ⟨found, hfound, rfl⟩ := Option.map_eq_some_iff.1 hinfo
  rw [Except.toOption_eq_some_iff] at hfound
  exact (document_of_ofRow hfound).trans hid

end Document

theorem ofTables_isolates (heaps : Heaps) (number : Nat) (first second : Tables) :
    (first.AgreeBesidesMethod number second → SameBesidesMethod first.methods.count number
      (ofTables first heaps) (ofTables second heaps)) ∧
    (first.AgreeBesidesDocument number second → SameBesidesDocument number
      (ofTables first heaps) (ofTables second heaps)) :=
  ⟨fun hagree => sameBesidesMethod_ofTables hagree heaps,
    fun hagree => sameBesidesDocument_ofTables hagree heaps⟩

/-- The first method is given points that end too early. -/
def methodSpoiled : Tables :=
  { scatteredTables with methods := ⟨scatteredTables.methods.toArray.setIfInBounds 0 ⟨0, 33⟩⟩ }

/-- The first document is given a name behind the end of the heap. -/
def documentSpoiled : Tables :=
  { scatteredTables with
    documents := ⟨scatteredTables.documents.toArray.setIfInBounds 0 ⟨200, 0, 0, 0⟩⟩ }

def rowsOfDocuments (index : DocumentIndex) : List (Nat × List Nat) :=
  index.documents.map fun info => (info.document, info.methods.map MethodInfo.row)

theorem ofTables_isolates_spoiled :
    scatteredTables.AgreeBesidesMethod 1 methodSpoiled ∧
    scatteredTables.AgreeBesidesDocument 1 documentSpoiled ∧
    SameBesidesMethod scatteredTables.methods.count 1 (ofTables scatteredTables scatteredHeaps)
      (ofTables methodSpoiled scatteredHeaps) ∧
    SameBesidesDocument 1 (ofTables scatteredTables scatteredHeaps)
      (ofTables documentSpoiled scatteredHeaps) ∧
    rowsOfDocuments (ofTables scatteredTables scatteredHeaps) = [(1, [1]), (3, [1])] ∧
    rowsOfDocuments (ofTables methodSpoiled scatteredHeaps) = [(1, []), (3, [])] ∧
    rowsOfDocuments (ofTables documentSpoiled scatteredHeaps) = [(3, [1])] := by
  have hmethod : scatteredTables.AgreeBesidesMethod 1 methodSpoiled :=
    ⟨rfl, scatteredTables.methods.agreeBesides_set 0 ⟨0, 33⟩, rfl, rfl, rfl⟩
  have hdocument : scatteredTables.AgreeBesidesDocument 1 documentSpoiled :=
    ⟨scatteredTables.documents.agreeBesides_set 0 ⟨200, 0, 0, 0⟩, rfl, rfl, rfl, rfl⟩
  exact ⟨hmethod, hdocument,
    (ofTables_isolates scatteredHeaps 1 scatteredTables methodSpoiled).1 hmethod,
    (ofTables_isolates scatteredHeaps 1 scatteredTables documentSpoiled).2 hdocument,
    by decide +kernel, by decide +kernel, by decide +kernel⟩

end DocumentIndex

end PortablePdb
