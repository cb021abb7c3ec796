import PortablePdb.Proofs.Builder.Index

/-!
# Parsing undoes building

Whatever documents, methods and scopes a builder was asked to hold, in whatever order, its image
parses, and the file answers with all of them and nothing else.
-/

namespace PortablePdb

/-- The file answers with what was asked for, and skips nothing. -/
structure SymbolFile.Answers (file : SymbolFile) (request : FileRequest) : Prop where
  skippedDocuments : file.index.skippedDocuments = 0
  skippedMethods : file.index.skippedMethods = 0
  documents : List.Forall₂ request.FoundAs (request.documents.zipIdx 1) file.documents
  extraRows : ∀ table, 0x35 ≤ table →
    file.tableHeader.rows.get table = lastRowCount request.extraRows table
  hasPdbHeader : file.pdbHeader.isSome = request.hasPdbStream
  pdbHeader : ∀ header ∈ file.pdbHeader,
    (header.id, header.entryPoint) = request.identity ∧
      ∀ table, header.referencedRows.get table = lastRowCount request.referencedRows table

/-- Reading the image of a builder gives back all that went into it: the rows and the streams as
they are in the builder, and the documents with their methods, points and locals as they were
asked for. -/
theorem Builder.parse_image_ofSteps {steps : List BuildStep} {builder : Builder}
    (hvalid : ∀ step ∈ steps, step.Valid (FileRequest.ofSteps steps).documents.length
      (FileRequest.ofSteps steps).methods.length)
    (hbuilt : ofSteps steps = .ok builder)
    (hmethods : (FileRequest.ofSteps steps).methods.length < 0x1000000)
    (hsize : builder.image.size < Bytes.limit 4) (hruns : builder.RunsFit) :
    ∃ file, SymbolFile.parse builder.image = .ok file ∧
      file.Answers (.ofSteps steps) ∧ file.tables = builder.tables ∧
      ∀ kind, streamIn file.data file.streamHeaders kind = builder.streamOf kind := by
  have hholds := holds_ofSteps hvalid hbuilt
  have hrequest := FileRequest.valid_ofSteps hvalid
  have hindex := hholds.ofTables_tables hrequest (within_heaps hholds.sound)
  refine ⟨builder.symbolFile hholds.sound, hholds.parse_image hrequest hsize hruns, ?_, rfl,
    streamIn_eq_streamOf hholds.extraStreams⟩
  have hdocuments : (builder.symbolFile hholds.sound).documents =
      (FileRequest.ofSteps steps).documentInfos := congrArg DocumentIndex.documents hindex
  constructor
  · exact congrArg DocumentIndex.skippedDocuments hindex
  · exact congrArg DocumentIndex.skippedMethods hindex
  · rw [hdocuments]
    exact FileRequest.forall₂_documentInfos hmethods
  · intro table htable
    exact hholds.get_rowCounts_extra ((hholds.settingsFit hrequest).bounded hsize) htable
  · rw [← hholds.hasPdbStream, symbolFile]
    cases builder.hasPdbStream <;> rfl
  · intro header hheader
    have hsame : header = builder.pdbHeader := by
      rw [symbolFile] at hheader
      cases hpdb : builder.hasPdbStream with
      | false => simp [hpdb] at hheader
      | true => simpa [hpdb] using hheader.symm
    rw [hsame]
    exact ⟨hholds.identity, hholds.get_referencedRowCounts hrequest⟩

/-- Methods and scopes that are asked for before and after their documents, a method in two
documents, one without points, and a scope without locals at the end. -/
def mixedSteps : List BuildStep := [
  .method ⟨0, [.document 2, .visible 0 10 5 10 9, .hidden 4, .document 1, .visible 9 3 1 4 2]⟩,
  .document ⟨"src/a.cs", ⟨1⟩, none⟩,
  .scope ⟨1, 0, 20, [⟨"x", 0, 0⟩, ⟨"y", 1, 1⟩], [("k", [7, 1].toByteArray)]⟩,
  .document ⟨"C:\\b.cs", ⟨1⟩, some (⟨2⟩, [1, 2, 3].toByteArray)⟩,
  .method ⟨1, []⟩,
  .extraRows 0x35 70000,
  .pdbId (List.replicate 20 7).toByteArray 0x06000001,
  .referencedRows 0x06 2,
  .scope ⟨1, 2, 3, [], []⟩]

theorem Builder.parse_image_mixedSteps :
    ∃ builder file, ofSteps mixedSteps = .ok builder ∧
      SymbolFile.parse builder.image = .ok file ∧ file.Answers (.ofSteps mixedSteps) ∧
      file.tables = builder.tables ∧
      ∀ kind, streamIn file.data file.streamHeaders kind = builder.streamOf kind := by
  have hcheck : ((ofSteps mixedSteps).toOption.any fun builder =>
      decide (builder.streamStart + (paddedStreams builder.streams).length < Bytes.limit 4 ∧
        builder.RunsFit)) = true := by
    decide +kernel
  cases hbuilt : ofSteps mixedSteps with
  | error error =>
      rw [hbuilt] at hcheck
      cases hcheck
  | ok builder =>
      rw [hbuilt] at hcheck
      obtain ⟨hsize, hruns⟩ := of_decide_eq_true hcheck
      rw [← size_image] at hsize
      obtain ⟨file, hfile⟩ :=
        parse_image_ofSteps (by decide +kernel) hbuilt (by decide) hsize hruns
      exact ⟨builder, file, rfl, hfile⟩

end PortablePdb
