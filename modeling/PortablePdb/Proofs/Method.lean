import PortablePdb.Method
import PortablePdb.Proofs.StableSort

/-!
# Methods built from points and scopes

A built method keeps its points but for the document changes, spans the lines of the visible ones
exactly, and orders its scopes: an earlier start stands first, the longer of two with one start
stands first, and scopes with the same range keep their order.
-/

namespace PortablePdb

namespace Scope

theorem precedes_iff (first second : Scope) :
    first.precedes second ↔ first.startOffset < second.startOffset ∨
      first.startOffset = second.startOffset ∧ second.length ≤ first.length := by
  simp [precedes]

theorem precedes_trans (first second third : Scope) (hfirst : first.precedes second)
    (hsecond : second.precedes third) : first.precedes third := by
  rw [precedes_iff] at *
  omega

theorem precedes_total (first second : Scope) :
    (first.precedes second || second.precedes first) = true := by
  rw [Bool.or_eq_true, precedes_iff, precedes_iff]
  omega

def hasRange (startOffset length : Nat) (scope : Scope) : Bool :=
  scope.startOffset == startOffset && scope.length == length

/-- The same scopes in their order, and in the order they had where their range is the same. -/
structure SortedFrom (scopes sorted : List Scope) : Prop where
  perm : sorted.Perm scopes
  ordered : sorted.Pairwise fun first second => first.precedes second
  stable : ∀ startOffset length, sorted.filter (hasRange startOffset length) =
    scopes.filter (hasRange startOffset length)

theorem sortedFrom_mergeSort (scopes : List Scope) :
    SortedFrom scopes (scopes.mergeSort precedes) where
  perm := List.mergeSort_perm scopes precedes
  ordered := List.pairwise_mergeSort precedes_trans precedes_total scopes
  stable startOffset length := by
    refine filter_mergeSort precedes_trans precedes_total ?_
    -- Scopes of one range are in order among themselves.
    refine List.pairwise_of_forall_mem_list fun first hfirst second hsecond => ?_
    have hfirst := (List.mem_filter.1 hfirst).2
    have hsecond := (List.mem_filter.1 hsecond).2
    simp only [hasRange, Bool.and_eq_true, beq_iff_eq] at hfirst hsecond
    rw [precedes_iff]
    omega

end Scope

namespace MethodInfo

theorem ofPoints?_nil (row : Nat) (scopes : List Scope) :
    ofPoints? row [] scopes = none := by
  rfl

theorem row_of_ofPoints? {row : Nat} {points : List SequencePoint} {scopes : List Scope}
    {info : MethodInfo} (hrow : row < 0x1000000)
    (hinfo : ofPoints? row points scopes = some info) : info.row = row := by
  obtain ⟨firstLine, -, hrest⟩ := Option.bind_eq_some_iff.1 hinfo
  obtain ⟨lastLine, -, hlast⟩ := Option.bind_eq_some_iff.1 hrest
  cases hlast
  have hlow : row &&& 0xFFFFFF = row :=
    Nat.and_two_pow_sub_one_of_lt_two_pow (n := 24) hrow
  have hmask : row &&& rowMask = row := by
    rw [← hlow, Nat.and_assoc]
    rfl
  have htoken : token &&& rowMask = 0 := by decide
  rw [MethodInfo.row, Nat.and_or_distrib_right, htoken, hmask, Nat.zero_or]

theorem isSome_ofPoints? (row : Nat) (points : List SequencePoint) (scopes : List Scope) :
    (ofPoints? row points scopes).isSome = points.any SequencePoint.isVisible := by
  have hvisible : ((points.filter fun point => !point.isDocumentChange).filter
      SequencePoint.isVisible) = points.filter SequencePoint.isVisible := by
    rw [List.filter_filter]
    refine List.filter_congr fun point _ => ?_
    simp only [SequencePoint.isVisible, SequencePoint.isDocumentChange]
    cases point.kind <;> rfl
  rw [ofPoints?, hvisible]
  cases hpoints : points.filter SequencePoint.isVisible with
  | nil =>
      have hnone : points.any SequencePoint.isVisible = false :=
        List.any_eq_false.2 (List.filter_eq_nil_iff.1 hpoints)
      rw [hnone]
      rfl
  | cons point rest =>
      have hmem : point ∈ points.filter SequencePoint.isVisible := by
        rw [hpoints]
        exact List.mem_cons_self
      have hsome : points.any SequencePoint.isVisible = true :=
        List.any_eq_true.2 ⟨point, List.mem_filter.1 hmem⟩
      rw [hsome]
      rfl

structure BuiltFrom (row : Nat) (points : List SequencePoint) (scopes : List Scope)
    (info : MethodInfo) : Prop where
  methodDef : info.methodDef = token ||| row
  sequencePoints : info.sequencePoints = points.filter fun point => !point.isDocumentChange
  firstLine_attained : ∃ point ∈ info.sequencePoints, point.isVisible ∧
    point.startLine = info.firstLine
  firstLine_le : ∀ point ∈ info.sequencePoints, point.isVisible → info.firstLine ≤ point.startLine
  lastLine_attained : ∃ point ∈ info.sequencePoints, point.isVisible ∧
    point.endLine = info.lastLine
  le_lastLine : ∀ point ∈ info.sequencePoints, point.isVisible → point.endLine ≤ info.lastLine
  scopes : Scope.SortedFrom scopes info.scopes

theorem builtFrom_of_ofPoints? {row : Nat} {points : List SequencePoint} {scopes : List Scope}
    {info : MethodInfo} (hinfo : ofPoints? row points scopes = some info) :
    info.BuiltFrom row points scopes := by
  obtain ⟨firstLine, hfirst, hrest⟩ := Option.bind_eq_some_iff.1 hinfo
  obtain ⟨lastLine, hlast, hpure⟩ := Option.bind_eq_some_iff.1 hrest
  cases hpure
  obtain ⟨hfirstMem, hfirstLe⟩ := List.min?_eq_some_iff.1 hfirst
  obtain ⟨hlastMem, hleLast⟩ := List.max?_eq_some_iff.1 hlast
  obtain ⟨first, hfirstPoint, hfirstLine⟩ := List.mem_map.1 hfirstMem
  obtain ⟨last, hlastPoint, hlastLine⟩ := List.mem_map.1 hlastMem
  rw [List.mem_filter] at hfirstPoint hlastPoint
  refine ⟨rfl, rfl, ⟨first, hfirstPoint.1, hfirstPoint.2, hfirstLine⟩, fun point hpoint hvisible =>
    ?_, ⟨last, hlastPoint.1, hlastPoint.2, hlastLine⟩, fun point hpoint hvisible => ?_,
    Scope.sortedFrom_mergeSort scopes⟩
  · exact hfirstLe _ (List.mem_map_of_mem (List.mem_filter.2 ⟨hpoint, hvisible⟩))
  · exact hleLast _ (List.mem_map_of_mem (List.mem_filter.2 ⟨hpoint, hvisible⟩))

end MethodInfo

end PortablePdb
