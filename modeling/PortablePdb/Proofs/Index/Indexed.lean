import PortablePdb.Proofs.Index.Exact
import PortablePdb.Proofs.SequencePoint.WellFormed

/-!
# What every method of an index fulfils

The methods of a document come from rows that follow one another.  The lines of each are those of
its visible points, and the offsets of its points increase, because they do in the blob that the
points were read from.
-/

namespace PortablePdb

/-- What can be relied on in the part of the method with row number `number`. -/
structure MethodInfo.Indexed (number : Nat) (method : MethodInfo) : Prop where
  methodDef : method.methodDef = token ||| number
  firstLine_le : ∀ point ∈ method.sequencePoints, point.isVisible →
    method.firstLine ≤ point.startLine
  le_lastLine : ∀ point ∈ method.sequencePoints, point.isVisible →
    point.endLine ≤ method.lastLine
  offsets_increase : (method.sequencePoints.map SequencePoint.ilOffset).Pairwise (· < ·)

namespace DocumentIndex

variable {tables : Tables} {heaps : Heaps}

theorem indexed_of_partIn? {document number : Nat} {row : MethodRow} {method : MethodInfo}
    (hpart : partIn? tables heaps document (number, row) = some method) :
    method.Indexed number := by
  obtain ⟨scopes, points, -, hpoints, -, hmethod⟩ := partIn?_eq_some_iff.1 hpart
  obtain ⟨-, blob, -, hdecode⟩ := hpoints
  obtain ⟨marks, hencodable, rfl⟩ := SequencePoint.exists_encodable_of_decode hdecode
  have hbuilt := MethodInfo.builtFrom_of_ofPoints? hmethod
  refine ⟨hbuilt.methodDef, hbuilt.firstLine_le, hbuilt.le_lastLine, ?_⟩
  rw [hbuilt.sequencePoints, List.filter_comm]
  exact hencodable.wellFormed.offsets_increase.sublist (List.filter_sublist.map _)

theorem forall₂_indexed (tables : Tables) (heaps : Heaps) (document : Nat) :
    ∃ numbers : List Nat, numbers.Pairwise (· < ·) ∧
      List.Forall₂ MethodInfo.Indexed numbers (partsIn tables heaps document) := by
  have hselected := forall₂_filterMap (partIn? tables heaps document) tables.methods.entries
  refine ⟨(tables.methods.entries.filter fun entry =>
    (partIn? tables heaps document entry).isSome).map Prod.fst, ?_, ?_⟩
  · exact tables.methods.entries_increase.sublist (List.filter_sublist.map Prod.fst)
  · rw [partsIn_eq_filterMap, List.forall₂_map_left_iff]
    exact hselected.imp fun entry method hpart => indexed_of_partIn? hpart

/-- Documents stand in the order of their rows, and so do the methods of each. -/
structure InRowOrder (index : DocumentIndex) : Prop where
  documents : (index.documents.map DocumentInfo.document).Pairwise (· < ·)
  methods : ∀ document ∈ index.documents, ∃ numbers : List Nat, numbers.Pairwise (· < ·) ∧
    List.Forall₂ MethodInfo.Indexed numbers document.methods

theorem inRowOrder_ofTables (tables : Tables) (heaps : Heaps) :
    (ofTables tables heaps).InRowOrder where
  documents := pairwise_numbers
    ((forall₂_documents tables heaps).imp fun _ _ hreads => hreads.document)
  methods document hdocument := by
    rw [documents_ofTables] at hdocument
    obtain ⟨found, -, rfl⟩ := List.mem_map.1 hdocument
    exact forall₂_indexed tables heaps found.document

theorem InRowOrder.exists_indexed {index : DocumentIndex} (horder : index.InRowOrder)
    {document : DocumentInfo} (hdocument : document ∈ index.documents) {method : MethodInfo}
    (hmethod : method ∈ document.methods) : ∃ number, method.Indexed number := by
  obtain ⟨numbers, -, hindexed⟩ := horder.methods document hdocument
  obtain ⟨number, -, hnumber⟩ := exists_of_mem_forall₂ hindexed hmethod
  exact ⟨number, hnumber⟩

end DocumentIndex

end PortablePdb
