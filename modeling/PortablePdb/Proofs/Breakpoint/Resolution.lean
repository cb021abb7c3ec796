import PortablePdb.Breakpoint.Location
import PortablePdb.Proofs.Index.Indexed
import PortablePdb.Proofs.StableSort
import PortablePdb.Proofs.SymbolFile.Parsed

/-!
# The code that a line resolves to

Main statement: `Location.resolve_best`.  A line resolves if a visible point of a method of a
matching document covers it, to the covering method whose lines start last, and there to the first
of its covering points in code.

The methods are preselected by the range of their lines.  No covering method is lost, because the
range is that of the visible points.  The point is looked up by its offset.  No other point is
found, because the offsets of a method's points increase.
-/

namespace PortablePdb

theorem filter_key_eq_singleton {α : Type} {key : α → Nat} {items : List α} {item : α}
    (hincrease : (items.map key).Pairwise (· < ·)) (hitem : item ∈ items) :
    (items.filter fun other => key other = key item) = [item] := by
  induction items with
  | nil => cases hitem
  | cons first rest ih =>
      rw [List.map_cons, List.pairwise_cons] at hincrease
      obtain ⟨hfirst, hrest⟩ := hincrease
      rcases List.mem_cons.1 hitem with rfl | hmem
      · rw [List.filter_cons_of_pos (by simp), List.filter_eq_nil_iff.2]
        intro other hother hsame
        have hlt := hfirst _ (List.mem_map_of_mem hother)
        rw [decide_eq_true_eq] at hsame
        omega
      · have hlt := hfirst _ (List.mem_map_of_mem hmem)
        rw [List.filter_cons_of_neg (by rw [decide_eq_true_eq]; omega), ih hrest hmem]

namespace MethodInfo

/-- Whether a visible point of the method covers the line. -/
def covers (method : MethodInfo) (line : Nat) : Bool :=
  method.sequencePoints.any fun point => point.containsLine line

variable {method : MethodInfo} {line number : Nat}

theorem covers_iff : method.covers line = true ↔
    ∃ point ∈ method.sequencePoints, point.containsLine line = true :=
  List.any_eq_true

/-- Preselecting by the range of lines loses no method that covers the line. -/
theorem Indexed.containsLine_of_covers (hindexed : method.Indexed number)
    (hcovers : method.covers line = true) : method.containsLine line = true := by
  obtain ⟨point, hpoint, hline⟩ := covers_iff.1 hcovers
  simp only [SequencePoint.containsLine, Bool.and_eq_true, decide_eq_true_eq] at hline
  obtain ⟨⟨hvisible, hstart⟩, hend⟩ := hline
  have hfirst := hindexed.firstLine_le point hpoint hvisible
  have hlast := hindexed.le_lastLine point hpoint hvisible
  simp only [MethodInfo.containsLine, Bool.and_eq_true, decide_eq_true_eq]
  omega

theorem ilOffsetForLine_eq_some_iff {ilOffset : Nat} :
    method.ilOffsetForLine line = some ilOffset ↔
      (∃ point ∈ method.sequencePoints, point.containsLine line = true ∧
        point.ilOffset = ilOffset) ∧
      ∀ point ∈ method.sequencePoints, point.containsLine line = true →
        ilOffset ≤ point.ilOffset := by
  rw [ilOffsetForLine, List.min?_eq_some_iff, List.forall_mem_map]
  simp only [List.mem_map, List.mem_filter, and_assoc, and_imp]

theorem exists_ilOffsetForLine (hcovers : method.covers line = true) :
    ∃ ilOffset, method.ilOffsetForLine line = some ilOffset := by
  obtain ⟨point, hpoint, hline⟩ := covers_iff.1 hcovers
  rw [← Option.isSome_iff_exists, Option.isSome_iff_ne_none, ilOffsetForLine, ne_eq,
    List.min?_eq_none_iff]
  exact List.ne_nil_of_mem (List.mem_map_of_mem (List.mem_filter.2 ⟨hpoint, hline⟩))

end MethodInfo

namespace Location

variable {file : SymbolFile} {path : String} {line : Nat}

/-- The location is the first of the method's points in code that cover the line. -/
structure FirstIn (document : DocumentInfo) (method : MethodInfo) (line : Nat)
    (location : Location) : Prop where
  methodDef : location.methodDef = method.methodDef
  filePath : location.filePath = document.filePath
  smallest : ∀ point ∈ method.sequencePoints, point.containsLine line = true →
    location.ilOffset ≤ point.ilOffset
  span : ∃ point,
    (method.sequencePoints.filter fun other => other.ilOffset = location.ilOffset) = [point] ∧
      point.containsLine line = true ∧ point.startLine = location.startLine ∧
      point.endLine = location.endLine
  startLine_le : location.startLine ≤ line
  le_endLine : line ≤ location.endLine

theorem firstIn_of_inMethod? {document : DocumentInfo} {method : MethodInfo} {number : Nat}
    {location : Location} (hindexed : method.Indexed number)
    (hlocation : inMethod? document method line = some location) :
    location.FirstIn document method line := by
  obtain ⟨ilOffset, hoffset, hrest⟩ := Option.bind_eq_some_iff.1 hlocation
  obtain ⟨point, hpoint, hpure⟩ := Option.bind_eq_some_iff.1 hrest
  cases hpure
  obtain ⟨-, hsmallest⟩ := MethodInfo.ilOffsetForLine_eq_some_iff.1 hoffset
  have hmem := List.mem_of_find?_eq_some hpoint
  have hfound := List.find?_some hpoint
  simp only [Bool.and_eq_true, beq_iff_eq] at hfound
  obtain ⟨rfl, hline⟩ := hfound
  have hspan := hline
  simp only [SequencePoint.containsLine, Bool.and_eq_true, decide_eq_true_eq] at hspan
  exact ⟨rfl, rfl, hsmallest,
    ⟨point, filter_key_eq_singleton hindexed.offsets_increase hmem, hline, rfl, rfl⟩,
    hspan.1.2, hspan.2⟩

theorem isSome_inMethod? (document : DocumentInfo) (method : MethodInfo) (line : Nat) :
    (inMethod? document method line).isSome = method.covers line := by
  rw [Bool.eq_iff_iff, Option.isSome_iff_exists]
  constructor
  · rintro ⟨location, hlocation⟩
    obtain ⟨ilOffset, hoffset, -⟩ := Option.bind_eq_some_iff.1 hlocation
    obtain ⟨⟨point, hpoint, hline, -⟩, -⟩ := MethodInfo.ilOffsetForLine_eq_some_iff.1 hoffset
    exact MethodInfo.covers_iff.2 ⟨point, hpoint, hline⟩
  · intro hcovers
    obtain ⟨ilOffset, hoffset⟩ := MethodInfo.exists_ilOffsetForLine hcovers
    obtain ⟨⟨point, hpoint, hline, rfl⟩, -⟩ := MethodInfo.ilOffsetForLine_eq_some_iff.1 hoffset
    obtain ⟨found, hfound⟩ : ∃ found, (method.sequencePoints.find? fun other =>
        other.ilOffset == point.ilOffset && other.containsLine line) = some found := by
      rw [← Option.isSome_iff_exists, List.find?_isSome]
      exact ⟨point, hpoint, by simp [hline]⟩
    exact ⟨_, by rw [inMethod?, hoffset, Option.bind_eq_bind, Option.bind_some, hfound]; rfl⟩

/-! ## All methods that a path leads to -/

/-- The methods of the matching documents in the order of their rows, each with its document. -/
def methodsMatching (file : SymbolFile) (path : String) : List (DocumentInfo × MethodInfo) :=
  (file.findDocuments path).flatMap fun document =>
    document.methods.map fun method => (document, method)

theorem mem_methodsMatching {document : DocumentInfo} {method : MethodInfo} :
    (document, method) ∈ methodsMatching file path ↔
      document ∈ file.documents ∧ document.matchesPath path = true ∧ method ∈ document.methods := by
  simp only [methodsMatching, SymbolFile.findDocuments, List.mem_flatMap, List.mem_filter,
    List.mem_map, Prod.mk.injEq]
  constructor
  · rintro ⟨_, ⟨hdocument, hmatches⟩, _, hmethod, rfl, rfl⟩
    exact ⟨hdocument, hmatches, hmethod⟩
  · rintro ⟨hdocument, hmatches, hmethod⟩
    exact ⟨document, ⟨hdocument, hmatches⟩, method, hmethod, rfl, rfl⟩

theorem candidates_eq_filter (file : SymbolFile) (path : String) (line : Nat) :
    candidates file path line =
      (methodsMatching file path).filter fun candidate => candidate.2.containsLine line := by
  rw [candidates, methodsMatching, List.filter_flatMap]
  refine List.flatMap_congr fun document _ => ?_
  rw [List.filter_map]
  rfl

/-- The method is the first of those that cover the line and whose lines start last. -/
def BestMatch (file : SymbolFile) (path : String) (line : Nat) (document : DocumentInfo)
    (method : MethodInfo) : Prop :=
  ∃ before after, methodsMatching file path = before ++ (document, method) :: after ∧
    FirstLargest (fun candidate => candidate.2.firstLine)
      (fun candidate => candidate.2.covers line) before (document, method) after

theorem containsLine_of_covers (horder : file.index.InRowOrder)
    {candidate : DocumentInfo × MethodInfo} (hcandidate : candidate ∈ methodsMatching file path)
    (hcovers : candidate.2.covers line = true) : candidate.2.containsLine line = true := by
  obtain ⟨hdocument, -, hmethod⟩ := mem_methodsMatching.1 hcandidate
  obtain ⟨number, hindexed⟩ := horder.exists_indexed hdocument hmethod
  exact hindexed.containsLine_of_covers hcovers

theorem bestMatch_of_resolve (horder : file.index.InRowOrder) {location : Location}
    (hlocation : resolve file path line = some location) :
    ∃ document method, BestMatch file path line document method ∧
      location.FirstIn document method line := by
  obtain ⟨front, ⟨document, method⟩, back, hsplit, hselect, hlargest⟩ :=
    findSome?_mergeSort_eq_some hlocation
  simp only [isSome_inMethod?] at hlargest
  rw [candidates_eq_filter] at hsplit
  obtain ⟨before, after, hmatching, hfirst⟩ := hlargest.of_filter
    (fun other hother hcovers => containsLine_of_covers horder hother hcovers) hsplit
  have hmem : (document, method) ∈ methodsMatching file path := by simp [hmatching]
  obtain ⟨hdocument, -, hmethod⟩ := mem_methodsMatching.1 hmem
  obtain ⟨number, hindexed⟩ := horder.exists_indexed hdocument hmethod
  exact ⟨document, method, ⟨before, after, hmatching, hfirst⟩,
    firstIn_of_inMethod? hindexed hselect⟩

theorem resolve_eq_none_iff (horder : file.index.InRowOrder) :
    resolve file path line = none ↔
      ∀ document ∈ file.documents, document.matchesPath path = true →
        ∀ method ∈ document.methods, method.covers line = false := by
  have hnone (candidate : DocumentInfo × MethodInfo) :
      inMethod? candidate.1 candidate.2 line = none ↔ candidate.2.covers line = false := by
    rw [← isSome_inMethod? candidate.1, Option.isSome_eq_false_iff, Option.isNone_iff_eq_none]
  rw [resolve, findSome?_mergeSort_eq_none_iff, candidates_eq_filter]
  simp only [hnone]
  constructor
  · intro hall document hdocument hmatches method hmethod
    rw [← Bool.not_eq_true]
    intro hcovers
    have hmem : (document, method) ∈ methodsMatching file path :=
      mem_methodsMatching.2 ⟨hdocument, hmatches, hmethod⟩
    have hfalse := hall (document, method)
      (List.mem_filter.2 ⟨hmem, containsLine_of_covers horder hmem hcovers⟩)
    exact absurd hcovers (Bool.eq_false_iff.1 hfalse)
  · intro hall candidate hcandidate
    obtain ⟨hdocument, hmatches, hmethod⟩ :=
      mem_methodsMatching.1 (List.mem_of_mem_filter hcandidate)
    exact hall candidate.1 hdocument hmatches candidate.2 hmethod

theorem inRowOrder_of_parse {data : ByteArray} (hparse : SymbolFile.parse data = .ok file) :
    file.index.InRowOrder := by
  obtain ⟨heaps, -, hindex⟩ := (SymbolFile.parse_eq_ok_iff.1 hparse).index
  rw [hindex]
  exact DocumentIndex.inRowOrder_ofTables file.tables heaps

/-- A line of a parsed file resolves exactly if it is covered, and then to the best match. -/
theorem resolve_best {data : ByteArray} (hparse : SymbolFile.parse data = .ok file)
    (path : String) (line : Nat) :
    file.index.InRowOrder ∧
      (resolve file path line = none ↔
        ∀ document ∈ file.documents, document.matchesPath path = true →
          ∀ method ∈ document.methods, method.covers line = false) ∧
      ∀ location, resolve file path line = some location →
        ∃ document method, BestMatch file path line document method ∧
          location.FirstIn document method line := by
  have horder := inRowOrder_of_parse hparse
  exact ⟨horder, resolve_eq_none_iff horder, fun location => bestMatch_of_resolve horder⟩

/-- Two documents whose paths differ in case and separators.  The method whose lines start last has
lines around line 15, and the one before it has code there. -/
def twinImage : ByteArray :=
  [0x42, 0x53, 0x4A, 0x42, 1, 0, 1, 0, 0, 0, 0, 0, 0, 0, 0, 0, 0, 0, 2, 0,
    48, 0, 0, 0, 60, 0, 0, 0, 0x23, 0x7E, 0, 0,
    108, 0, 0, 0, 53, 0, 0, 0, 0x23, 0x42, 0x6C, 0x6F, 0x62, 0, 0, 0,
    0, 0, 0, 0, 2, 0, 0, 1, 0, 0, 0, 0, 0, 0, 3, 0, 0, 0, 0, 0, 0, 0, 0, 0,
    2, 0, 0, 0, 3, 0, 0, 0,
    9, 0, 0, 0, 0, 0, 0, 0, 13, 0, 0, 0, 0, 0, 0, 0,
    1, 0, 17, 0, 2, 0, 29, 0, 2, 0, 41, 0,
    0, 1, 0x73, 1, 0x61, 1, 0x53, 1, 0x41, 3, 0x2F, 1, 3, 3, 0x5C, 5, 7,
    11, 0, 0, 10, 2, 10, 1, 4, 0, 3, 6, 0,
    11, 0, 0, 0, 5, 12, 1, 3, 2, 2, 4, 0,
    11, 0, 0, 0, 5, 14, 1, 2, 0, 5, 6, 0].toByteArray

theorem resolve_best_twinImage :
    ∃ file location document method, SymbolFile.parse twinImage = .ok file ∧
      file.index.InRowOrder ∧ resolve file "S/a" 15 = some location ∧
      BestMatch file "S/a" 15 document method ∧ location.FirstIn document method 15 := by
  obtain ⟨file, hfile, hcovered⟩ := SymbolFile.exists_parse_of_any (fun file =>
    file.documents.any fun document => document.matchesPath "S/a" &&
      document.methods.any fun method => method.covers 15)
    (show (SymbolFile.parse twinImage).toOption.any _ = true by decide +kernel)
  obtain ⟨horder, hnone, hbest⟩ := resolve_best hfile "S/a" 15
  cases hlocation : resolve file "S/a" 15 with
  | none =>
      have huncovered := hnone.1 hlocation
      simp only [List.any_eq_true, Bool.and_eq_true] at hcovered
      obtain ⟨document, hdocument, hmatches, method, hmethod, hcovers⟩ := hcovered
      rw [huncovered document hdocument hmatches method hmethod] at hcovers
      cases hcovers
  | some location =>
      obtain ⟨document, method, hmatch, hfirst⟩ := hbest location hlocation
      exact ⟨file, location, document, method, hfile, horder, hlocation, hmatch, hfirst⟩

end Location

end PortablePdb
