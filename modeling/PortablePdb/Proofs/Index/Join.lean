import PortablePdb.DocumentIndex
import PortablePdb.Proofs.Except
import PortablePdb.Proofs.Method

/-!
# The index as a join

The index collects scopes by method, and parts of methods by document, in one pass each.  Here both
passes are read as what they select: the scopes of a method are those that name it, and the methods
of a document are the parts that lie in it, in the order of their rows.
-/

namespace PortablePdb

theorem filter_eraseDups (numbers : List Nat) (number : Nat) :
    numbers.eraseDups.filter (fun other => other = number) =
      if number ∈ numbers then [number] else [] := by
  match numbers with
  | [] => simp
  | first :: rest =>
      have hrest := filter_eraseDups (rest.filter fun other => !other == first) number
      rw [List.eraseDups_cons]
      by_cases hfirst : first = number
      · subst hfirst
        simp [hrest]
      · have hother : number ≠ first := Ne.symm hfirst
        simp [hrest, hfirst, hother]
  termination_by numbers.length
  decreasing_by
    have hlength := List.length_filter_le (fun other => !other == first) rest
    simp only [List.length_cons]
    omega

/-! ## Rows with their numbers -/

theorem Rows.mem_entries {Row : Type} {rows : Rows Row} {entry : Nat × Row}
    (hentry : entry ∈ rows.entries) : 1 ≤ entry.1 ∧ entry.1 ≤ rows.count := by
  obtain ⟨⟨row, number⟩, hrow, rfl⟩ := List.mem_map.1 hentry
  have hlow := List.le_snd_of_mem_zipIdx hrow
  have hhigh := List.snd_lt_add_of_mem_zipIdx hrow
  rw [Array.length_toList] at hhigh
  simp only [Rows.count]
  omega

namespace DocumentIndex

/-! ## Results -/

theorem failures_map_ok {α β : Type} (values : List α) (number : α → Nat) (result : α → β) :
    failures (values.map fun value => (number value, .ok (result value))) = [] := by
  simp [failures]

theorem successes_map_ok {α β : Type} (values : List α) (number : α → Nat) (result : α → β) :
    successes (values.map fun value => (number value, .ok (result value))) =
      values.map result := by
  simp [successes, List.filterMap_map]

/-! ## Parts of methods -/

/-- The part of a method in a document, if it has one there. -/
theorem filter_partsOfMethod (row : Nat) (points : List SequencePoint) (scopes : List Scope)
    (document : Nat) :
    ((partsOfMethod row points scopes).filter fun part => part.1 = document).map Prod.snd =
      (MethodInfo.ofPoints? row (points.filter fun point => point.document = document)
        scopes).toList := by
  have hselect : ((partsOfMethod row points scopes).filter fun part => part.1 = document) =
      ((documentNumbers points).filter fun number => number = document).filterMap fun number =>
        (MethodInfo.ofPoints? row (points.filter fun point => point.document = number)
          scopes).map fun info => (number, info) := by
    rw [partsOfMethod, List.filter_filterMap, List.filterMap_filter]
    congr 1
    funext number
    by_cases hnumber : number = document
    · cases MethodInfo.ofPoints? row (points.filter fun point => point.document = number)
        scopes <;> simp [hnumber]
    · cases MethodInfo.ofPoints? row (points.filter fun point => point.document = number)
        scopes <;> simp [hnumber]
  -- Of the numbers without repetitions at most one is the document's.
  rw [hselect, documentNumbers, filter_eraseDups]
  by_cases hdocument : document ∈ points.map SequencePoint.document
  · rw [if_pos hdocument]
    simp only [List.filterMap_cons, List.filterMap_nil]
    cases MethodInfo.ofPoints? row (points.filter fun point => point.document = document)
      scopes <;> simp
  · have hnone : (points.filter fun point => point.document = document) = [] := by
      rw [List.filter_eq_nil_iff]
      intro point hpoint hsame
      exact hdocument (List.mem_map.2 ⟨point, hpoint, by simpa using hsame⟩)
    rw [if_neg hdocument, hnone, MethodInfo.ofPoints?_nil]
    rfl

/-! ## Selecting -/

/-- The scopes that name a method. -/
def scopesNaming (tables : Tables) (heaps : Heaps) (method : Nat) :
    List (Except ReadError Scope) :=
  ((scopes tables heaps).filter fun entry => entry.1 = method).map Prod.snd

/-- The parts of methods that lie in a document. -/
def partsIn (tables : Tables) (heaps : Heaps) (document : Nat) : List MethodInfo :=
  ((successes (methodResults tables heaps)).flatten.filter fun part =>
    part.1 = document).map Prod.snd

theorem methodResults_eq (tables : Tables) (heaps : Heaps) :
    methodResults tables heaps = tables.methods.entries.map fun entry =>
      (entry.1, methodOfRow tables heaps entry.1 entry.2 (scopesNaming tables heaps entry.1)) := by
  refine List.map_congr_left fun entry hentry => ?_
  have hnumber := (Rows.mem_entries hentry).2
  have hgroup := group_groupByNumber (Nat.lt_succ_of_le hnumber) (scopes tables heaps)
  simp only [hgroup, scopesNaming]

theorem document_of_ofRow {heaps : Heaps} {number : Nat} {row : DocumentRow}
    {info : DocumentInfo} (hinfo : DocumentInfo.ofRow heaps number row = .ok info) :
    info.document = number := by
  obtain ⟨path, -, hrest⟩ := Except.bind_eq_ok hinfo
  obtain ⟨language, -, hrest⟩ := Except.bind_eq_ok hrest
  obtain ⟨algorithm, -, hrest⟩ := Except.bind_eq_ok hrest
  obtain ⟨hash, -, hlast⟩ := Except.bind_eq_ok hrest
  cases hlast
  rfl

theorem document_le_of_mem {tables : Tables} {heaps : Heaps} {info : DocumentInfo}
    (hinfo : info ∈ successes (documentResults tables heaps)) :
    info.document ≤ tables.documents.count := by
  obtain ⟨result, hresult, hsome⟩ := List.mem_filterMap.1 hinfo
  obtain ⟨entry, hentry, rfl⟩ := List.mem_map.1 hresult
  have hnumber := (Rows.mem_entries hentry).2
  cases hread : DocumentInfo.ofRow heaps entry.1 entry.2 with
  | error error => simp [hread] at hsome
  | ok found =>
      simp only [hread, Option.some.injEq] at hsome
      rw [← hsome, document_of_ofRow hread]
      exact hnumber

theorem documents_ofTables (tables : Tables) (heaps : Heaps) :
    (ofTables tables heaps).documents =
      (successes (documentResults tables heaps)).map fun info =>
        { info with methods := partsIn tables heaps info.document } := by
  refine List.map_congr_left fun info hinfo => ?_
  have hdocument := document_le_of_mem hinfo
  rw [group_groupByNumber (Nat.lt_succ_of_le hdocument)]
  rfl

end DocumentIndex

end PortablePdb
