import PortablePdb.Proofs.Breakpoint.Resolution

/-!
# Nested methods

A method that lies inside another usually starts behind it, and then it is the one that a line of
both resolves to.  Where the two start on the same line, the one with the earlier row is taken, be
it the outer one: `Location.exists_outer_resolved`.  That is the only way for it to be taken:
`Location.outer_starts_with_inner`.
-/

namespace PortablePdb

/-- The lines of the outer method hold those of the inner one, and others. -/
structure MethodInfo.Encloses (outer inner : MethodInfo) : Prop where
  firstLine_le : outer.firstLine ≤ inner.firstLine
  le_lastLine : inner.lastLine ≤ outer.lastLine
  proper : outer.firstLine < inner.firstLine ∨ inner.lastLine < outer.lastLine

instance (outer inner : MethodInfo) : Decidable (outer.Encloses inner) :=
  decidable_of_iff
    (outer.firstLine ≤ inner.firstLine ∧ inner.lastLine ≤ outer.lastLine ∧
      (outer.firstLine < inner.firstLine ∨ inner.lastLine < outer.lastLine))
    ⟨fun ⟨hfirst, hlast, hproper⟩ => ⟨hfirst, hlast, hproper⟩,
      fun ⟨hfirst, hlast, hproper⟩ => ⟨hfirst, hlast, hproper⟩⟩

theorem DocumentIndex.rows_increase {tables : Tables} {heaps : Heaps}
    (hmethods : tables.methods.count < 0x1000000) {document : DocumentInfo}
    (hdocument : document ∈ (ofTables tables heaps).documents) :
    (document.methods.map MethodInfo.row).Pairwise (· < ·) := by
  rw [documents_ofTables] at hdocument
  obtain ⟨found, -, rfl⟩ := List.mem_map.1 hdocument
  exact pairwise_numbers ((forall₂_partsIn hmethods found.document).imp
    fun _ _ hpart => hpart.row_eq)

namespace Location

variable {file : SymbolFile} {path : String} {line : Nat}

theorem eq_of_row_eq {methods : List MethodInfo} {first second : MethodInfo}
    (hincrease : (methods.map MethodInfo.row).Pairwise (· < ·)) (hfirst : first ∈ methods)
    (hsecond : second ∈ methods) (hsame : first.row = second.row) : first = second := by
  have hmem : first ∈ methods.filter fun other => other.row = second.row :=
    List.mem_filter.2 ⟨hfirst, decide_eq_true hsame⟩
  rw [filter_key_eq_singleton hincrease hsecond] at hmem
  exact List.mem_singleton.1 hmem

/-- A line that the outer of two nested methods and the inner one cover resolves to the outer one
only if both start on the same line and the outer one has the earlier row. -/
theorem outer_starts_with_inner {data : ByteArray} (hparse : SymbolFile.parse data = .ok file)
    (hmethods : file.tables.methods.count < 0x1000000) {document : DocumentInfo}
    (hdocument : file.findDocuments path = [document]) {outer inner : MethodInfo}
    (houter : outer ∈ document.methods) (hinner : inner ∈ document.methods)
    (hcovers : inner.covers line = true) (hencloses : outer.Encloses inner)
    {location : Location} (hlocation : resolve file path line = some location)
    (hwins : location.methodDef = outer.methodDef) :
    outer.firstLine = inner.firstLine ∧ outer.row < inner.row := by
  obtain ⟨heaps, -, hindex⟩ := (SymbolFile.parse_eq_ok_iff.1 hparse).index
  have hmem : document ∈ file.documents := by
    have hmem : document ∈ file.findDocuments path := by simp [hdocument]
    exact List.mem_of_mem_filter hmem
  have hincrease : (document.methods.map MethodInfo.row).Pairwise (· < ·) := by
    rw [SymbolFile.documents, hindex] at hmem
    exact DocumentIndex.rows_increase hmethods hmem
  obtain ⟨found, method, ⟨before, after, hmatching, hlargest⟩, hfirst⟩ :=
    bestMatch_of_resolve (inRowOrder_of_parse hparse) hlocation
  have hall : methodsMatching file path =
      document.methods.map fun method => (document, method) := by
    simp [methodsMatching, hdocument]
  rw [hall] at hmatching
  obtain ⟨earlier, rest, hsplit, rfl, hrest⟩ := List.map_eq_append_iff.1 hmatching
  obtain ⟨winner, later, rfl, hwinner, rfl⟩ := List.map_eq_cons_iff.1 hrest
  cases hwinner
  have hrow : method.row = outer.row := by
    rw [MethodInfo.row, MethodInfo.row, ← hwins, hfirst.methodDef]
  have hsame : method = outer :=
    eq_of_row_eq hincrease (by simp [hsplit]) houter hrow
  subst hsame
  have hle := hencloses.firstLine_le
  have hproper := hencloses.proper
  rw [hsplit, List.mem_append, List.mem_cons] at hinner
  rcases hinner with hearlier | rfl | hlater
  · have hlt := hlargest.before_lt (document, inner)
      (List.mem_map_of_mem hearlier) hcovers
    dsimp only at hlt
    omega
  · omega
  · have hge := hlargest.after_le (document, inner) (List.mem_map_of_mem hlater) hcovers
    dsimp only at hge
    rw [hsplit, List.map_append, List.map_cons, List.pairwise_append, List.pairwise_cons]
      at hincrease
    exact ⟨Nat.le_antisymm hle hge, hincrease.2.1.1 _ (List.mem_map_of_mem hlater)⟩

theorem resolve_of_ordered (hordered : (candidates file path line).Pairwise fun first second =>
    triedBefore first second) :
    resolve file path line = (candidates file path line).findSome? fun candidate =>
      inMethod? candidate.1 candidate.2 line := by
  rw [resolve, List.mergeSort_of_pairwise hordered]

/-- Two methods that start on the same line, the first of which goes on longer. -/
def nestedImage : ByteArray :=
  [0x42, 0x53, 0x4A, 0x42, 1, 0, 1, 0, 0, 0, 0, 0, 0, 0, 0, 0, 0, 0, 2, 0,
    48, 0, 0, 0, 48, 0, 0, 0, 0x23, 0x7E, 0, 0,
    96, 0, 0, 0, 20, 0, 0, 0, 0x23, 0x42, 0x6C, 0x6F, 0x62, 0, 0, 0,
    0, 0, 0, 0, 2, 0, 0, 1, 0, 0, 0, 0, 0, 0, 3, 0, 0, 0, 0, 0, 0, 0, 0, 0,
    1, 0, 0, 0, 2, 0, 0, 0,
    3, 0, 0, 0, 0, 0, 0, 0,
    1, 0, 6, 0, 1, 0, 13, 0,
    0, 1, 0x61, 2, 0x2F, 1,
    6, 0, 0, 10, 2, 10, 1,
    6, 0, 0, 5, 2, 10, 1].toByteArray

/-- The methods of a file with one document `a` that holds two, of which line 12, which both cover,
resolves to the outer one. -/
structure OuterTaken (file : SymbolFile) (document : DocumentInfo) (outer inner : MethodInfo) :
    Prop where
  few : file.tables.methods.count < 0x1000000
  found : file.findDocuments "a" = [document]
  methods : document.methods = [outer, inner]
  outer_covers : outer.covers 12 = true
  inner_covers : inner.covers 12 = true
  encloses : outer.Encloses inner
  taken : (resolve file "a" 12).map Location.methodDef = some outer.methodDef

/-- What `OuterTaken` says, as far as it can be computed without sorting. -/
def takesOuter (file : SymbolFile) : Bool :=
  match file.findDocuments "a" with
  | [document] =>
      match document.methods with
      | [outer, inner] => decide (
          file.tables.methods.count < 0x1000000 ∧ outer.covers 12 = true ∧
          inner.covers 12 = true ∧ outer.Encloses inner ∧
          ((candidates file "a" 12).Pairwise fun first second => triedBefore first second) ∧
          ((candidates file "a" 12).findSome? fun candidate =>
            inMethod? candidate.1 candidate.2 12).map Location.methodDef = some outer.methodDef)
      | _ => false
  | _ => false

theorem outerTaken_nestedImage : ∃ file document outer inner,
    SymbolFile.parse nestedImage = .ok file ∧ OuterTaken file document outer inner := by
  obtain ⟨file, hparse, hcheck⟩ := SymbolFile.exists_parse_of_any takesOuter
    (show (SymbolFile.parse nestedImage).toOption.any _ = true by decide +kernel)
  unfold takesOuter at hcheck
  split at hcheck
  case h_1 document hdocument =>
      split at hcheck
      case h_1 outer inner hmethods =>
          obtain ⟨hfew, houter, hinner, hencloses, hordered, htaken⟩ := of_decide_eq_true hcheck
          rw [← resolve_of_ordered hordered] at htaken
          exact ⟨file, document, outer, inner, hparse, hfew, hdocument, hmethods, houter, hinner,
            hencloses, htaken⟩
      case h_2 => cases hcheck
  case h_2 => cases hcheck

theorem outer_starts_with_inner_nestedImage : ∃ file document outer inner location,
    SymbolFile.parse nestedImage = .ok file ∧ file.tables.methods.count < 0x1000000 ∧
      file.findDocuments "a" = [document] ∧ outer ∈ document.methods ∧
      inner ∈ document.methods ∧ inner.covers 12 = true ∧ outer.Encloses inner ∧
      resolve file "a" 12 = some location ∧ location.methodDef = outer.methodDef ∧
      outer.firstLine = inner.firstLine ∧ outer.row < inner.row := by
  obtain ⟨file, document, outer, inner, hparse, htaken⟩ := outerTaken_nestedImage
  obtain ⟨location, hlocation, hwins⟩ := Option.map_eq_some_iff.1 htaken.taken
  have houter : outer ∈ document.methods := by simp [htaken.methods]
  have hinner : inner ∈ document.methods := by simp [htaken.methods]
  exact ⟨file, document, outer, inner, location, hparse, htaken.few, htaken.found, houter, hinner,
    htaken.inner_covers, htaken.encloses, hlocation, hwins,
    outer_starts_with_inner hparse htaken.few htaken.found houter hinner htaken.inner_covers
      htaken.encloses hlocation hwins⟩

/-- The innermost of nested methods is not always the one that a line resolves to. -/
theorem exists_outer_resolved : ∃ file document outer inner,
    SymbolFile.parse nestedImage = .ok file ∧ file.findDocuments "a" = [document] ∧
      outer ∈ document.methods ∧ inner ∈ document.methods ∧
      outer.covers 12 = true ∧ inner.covers 12 = true ∧ outer.Encloses inner ∧
      (resolve file "a" 12).map Location.methodDef = some outer.methodDef := by
  obtain ⟨file, document, outer, inner, hparse, htaken⟩ := outerTaken_nestedImage
  exact ⟨file, document, outer, inner, hparse, htaken.found, by simp [htaken.methods],
    by simp [htaken.methods], htaken.outer_covers, htaken.inner_covers, htaken.encloses,
    htaken.taken⟩

end Location

end PortablePdb
