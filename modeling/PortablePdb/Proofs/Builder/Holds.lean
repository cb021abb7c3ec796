import Mathlib.Data.List.Forall2
import PortablePdb.Proofs.Builder.Growth
import PortablePdb.Proofs.Builder.Request
import PortablePdb.Proofs.SequencePoint.RoundTrip

/-!
# What a builder holds

After any steps a builder has one row for each document, method, variable and constant that it was
asked for, and each row reads as what was asked for in all heaps that start with the builder's.
This is kept by every step: heaps only grow, and a row is pushed when its entries have been added.
-/

namespace PortablePdb

/-- What a document's row is read as, without its methods. -/
def DocumentRequest.info (request : DocumentRequest) (number : Nat) : DocumentInfo where
  document := number
  filePath := request.path
  language := .ofGuid request.language
  hashAlgorithm := .ofGuid request.hashAlgorithm
  hash := request.hashBytes
  methods := []

/-- The row reads as the document that was asked for. -/
structure DocumentRequest.StoredIn (bytes : HeapBytes) (request : DocumentRequest)
    (row : DocumentRow) : Prop where
  read : ∀ heaps, bytes.Within heaps → ∀ number,
    DocumentInfo.ofRow heaps number row = .ok (request.info number)
  name_lt : row.name < bytes.blobs.size
  hash_lt : row.hash < bytes.blobs.size
  language_le : row.language ≤ bytes.guids.size / 16
  hashAlgorithm_le : row.hashAlgorithm ≤ bytes.guids.size / 16

/-- The row has a blob for the points exactly if there are some, and it decodes to them. -/
structure MethodRequest.StoredIn (bytes : HeapBytes) (request : MethodRequest)
    (row : MethodRow) : Prop where
  document_eq : row.document = request.document
  zero_iff : row.sequencePoints = 0 ↔ request.marks = []
  read : request.marks ≠ [] → ∀ heaps, bytes.Within heaps →
    ∃ blob, heaps.blob row.sequencePoints = .ok blob ∧
      SequencePoint.decode blob request.document = .ok request.points
  sequencePoints_lt : row.sequencePoints < bytes.blobs.size

structure LocalDeclaration.StoredIn (bytes : HeapBytes) (declaration : LocalDeclaration)
    (row : VariableRow) : Prop where
  read : ∀ heaps, bytes.Within heaps →
    DocumentIndex.readVariable heaps row = .ok declaration.toVariable
  index_eq : row.index = declaration.index
  attributes_eq : row.attributes = declaration.attributes
  name_lt : row.name < bytes.strings.size

structure ConstantStoredIn (bytes : HeapBytes) (constant : String × ByteArray)
    (row : ConstantRow) : Prop where
  read : ∀ heaps, bytes.Within heaps →
    DocumentIndex.readConstant heaps row = .ok ⟨constant.1, constant.2⟩
  name_lt : row.name < bytes.strings.size
  signature_lt : row.signature < bytes.blobs.size

/-- The rows of the scopes, of which the first one's locals start at the given rows. -/
def scopeRows : (variableStart constantStart : Nat) → List ScopeRequest → List ScopeRow
  | _, _, [] => []
  | variableStart, constantStart, request :: rest =>
      { method := request.method
        importScope := 0
        variableList := variableStart
        constantList := constantStart
        startOffset := request.startOffset
        length := request.length } ::
      scopeRows (variableStart + request.slots.length)
        (constantStart + request.constants.length) rest

/-- The rows and heaps of the builder hold what the file is asked to hold, and nothing else. -/
structure Builder.Holds (builder : Builder) (request : FileRequest) : Prop where
  sound : builder.heapBytes.Sound
  documents : List.Forall₂ (DocumentRequest.StoredIn builder.heapBytes) request.documents
    builder.documents.toList
  methods : List.Forall₂ (MethodRequest.StoredIn builder.heapBytes) request.methods
    builder.methods.toList
  slots : List.Forall₂ (LocalDeclaration.StoredIn builder.heapBytes)
    (request.scopes.flatMap ScopeRequest.slots) builder.localVariables.toList
  constants : List.Forall₂ (ConstantStoredIn builder.heapBytes)
    (request.scopes.flatMap ScopeRequest.constants) builder.constants.toList
  scopes : builder.scopes.toList = scopeRows 1 1 request.scopes
  identity : (builder.pdbId, builder.entryPoint) = request.identity
  referencedRows : builder.referencedRows = request.referencedRows
  extraRows : builder.extraRows = request.extraRows
  hasPdbStream : builder.hasPdbStream = request.hasPdbStream
  extraStreams : builder.extraStreams = []

/-! ## Growing -/

variable {bytes next : HeapBytes}

theorem DocumentRequest.StoredIn.grow {request : DocumentRequest} {row : DocumentRow}
    (hgrows : bytes.GrowsTo next) (hstored : request.StoredIn bytes row) :
    request.StoredIn next row where
  read heaps hwithin := hstored.read heaps (hgrows.within hwithin)
  name_lt := Nat.lt_of_lt_of_le hstored.name_lt hgrows.blobs_size_le
  hash_lt := Nat.lt_of_lt_of_le hstored.hash_lt hgrows.blobs_size_le
  language_le := Nat.le_trans hstored.language_le (Nat.div_le_div_right hgrows.guids_size_le)
  hashAlgorithm_le :=
    Nat.le_trans hstored.hashAlgorithm_le (Nat.div_le_div_right hgrows.guids_size_le)

theorem MethodRequest.StoredIn.grow {request : MethodRequest} {row : MethodRow}
    (hgrows : bytes.GrowsTo next) (hstored : request.StoredIn bytes row) :
    request.StoredIn next row where
  document_eq := hstored.document_eq
  zero_iff := hstored.zero_iff
  read hmarks heaps hwithin := hstored.read hmarks heaps (hgrows.within hwithin)
  sequencePoints_lt := Nat.lt_of_lt_of_le hstored.sequencePoints_lt hgrows.blobs_size_le

theorem LocalDeclaration.StoredIn.grow {declaration : LocalDeclaration} {row : VariableRow}
    (hgrows : bytes.GrowsTo next) (hstored : declaration.StoredIn bytes row) :
    declaration.StoredIn next row where
  read heaps hwithin := hstored.read heaps (hgrows.within hwithin)
  index_eq := hstored.index_eq
  attributes_eq := hstored.attributes_eq
  name_lt := Nat.lt_of_lt_of_le hstored.name_lt hgrows.strings_size_le

theorem ConstantStoredIn.grow {constant : String × ByteArray} {row : ConstantRow}
    (hgrows : bytes.GrowsTo next) (hstored : ConstantStoredIn bytes constant row) :
    ConstantStoredIn next constant row where
  read heaps hwithin := hstored.read heaps (hgrows.within hwithin)
  name_lt := Nat.lt_of_lt_of_le hstored.name_lt hgrows.strings_size_le
  signature_lt := Nat.lt_of_lt_of_le hstored.signature_lt hgrows.blobs_size_le

namespace Builder

def withHeaps (builder : Builder) (bytes : HeapBytes) : Builder :=
  { builder with strings := bytes.strings, blobs := bytes.blobs, guids := bytes.guids }

theorem Holds.grow {builder : Builder} {request : FileRequest} (hholds : builder.Holds request)
    (hgrows : builder.heapBytes.GrowsTo bytes) (hsound : bytes.Sound) :
    (builder.withHeaps bytes).Holds request :=
  { hholds with
    sound := hsound
    documents := hholds.documents.imp fun _ _ hstored => hstored.grow hgrows
    methods := hholds.methods.imp fun _ _ hstored => hstored.grow hgrows
    slots := hholds.slots.imp fun _ _ hstored => hstored.grow hgrows
    constants := hholds.constants.imp fun _ _ hstored => hstored.grow hgrows }

def appendVariables (builder : Builder) (rows : List VariableRow) : Builder :=
  { builder with localVariables := builder.localVariables ++ rows.toArray }

def appendConstants (builder : Builder) (rows : List ConstantRow) : Builder :=
  { builder with constants := builder.constants ++ rows.toArray }

theorem empty_holds : Builder.empty.Holds (.ofSteps []) where
  sound := ⟨by decide, by decide, by decide⟩
  documents := .nil
  methods := .nil
  slots := .nil
  constants := .nil
  scopes := rfl
  identity := rfl
  referencedRows := rfl
  extraRows := rfl
  hasPdbStream := rfl
  extraStreams := rfl

end Builder

/-! ## Documents -/

theorem ofRow_of_reads {heaps : Heaps} {row : DocumentRow} {request : DocumentRequest}
    (hname : DocumentInfo.name heaps row.name = .ok request.path)
    (hlanguage : heaps.guid row.language = .ok request.language)
    (halgorithm : heaps.guid row.hashAlgorithm = .ok request.hashAlgorithm)
    (hhash : heaps.blob row.hash = .ok request.hashBytes) (number : Nat) :
    DocumentInfo.ofRow heaps number row = .ok (request.info number) := by
  rw [DocumentInfo.ofRow, hname, hlanguage, halgorithm, hhash]
  rfl

namespace Building

variable {builder after : Builder} {number : Nat}

theorem pushDocument_spec {row : DocumentRow}
    (hpush : pushDocument row builder = .ok (number, after)) :
    after = { builder with documents := builder.documents.push row } := by
  cases hpush
  rfl

theorem addDocument_spec {path : String} {language : Guid}
    (hadd : addDocument path language builder = .ok (number, after))
    (hsound : builder.heapBytes.Sound) (hlanguage : language.value < Bytes.limit 16) :
    ∃ bytes row, builder.heapBytes.GrowsTo bytes ∧ bytes.Sound ∧
      DocumentRequest.StoredIn bytes ⟨path, language, none⟩ row ∧
      after = { builder.withHeaps bytes with documents := builder.documents.push row } := by
  obtain ⟨name, named, hname, hrest⟩ := bind_eq_ok hadd
  obtain ⟨index, last, hguid, hpush⟩ := bind_eq_ok hrest
  obtain ⟨added, rfl, hnameLt, hreadName⟩ := addDocumentName_spec hname
  obtain ⟨more, rfl, hmore, rfl, hreadGuid⟩ := addGuid_spec hguid
  have hnamed := Builder.sound_appendBlobs hsound added
  have hgrowsName := Builder.growsTo_appendBlobs builder added
  have hgrowsGuid := Builder.growsTo_appendGuids (builder.appendBlobs added) more
  refine ⟨((builder.appendBlobs added).appendGuids more).heapBytes,
    { name, hashAlgorithm := 0, hash := 0, language := _ }, hgrowsName.trans hgrowsGuid,
    Builder.sound_appendGuids hnamed hmore, ?_, pushDocument_spec hpush⟩
  refine ⟨fun heaps hwithin number => ?_, hnameLt, ?_, Nat.le_refl _, Nat.zero_le _⟩
  · have hnone : heaps.blob 0 = .ok (DocumentRequest.hashBytes ⟨path, language, none⟩) :=
      blobAt_zero heaps.blobs
    exact ofRow_of_reads (hreadName hsound heaps (hgrowsGuid.within hwithin))
      (hreadGuid hnamed hlanguage heaps hwithin) rfl hnone number
  · exact hnamed.blobs_pos

theorem addDocumentWithHash_spec {path : String} {language algorithm : Guid} {hash : ByteArray}
    (hadd : addDocumentWithHash path language algorithm hash builder = .ok (number, after))
    (hsound : builder.heapBytes.Sound) (hlanguage : language.value < Bytes.limit 16)
    (halgorithm : algorithm.value < Bytes.limit 16) :
    ∃ bytes row, builder.heapBytes.GrowsTo bytes ∧ bytes.Sound ∧
      DocumentRequest.StoredIn bytes ⟨path, language, some (algorithm, hash)⟩ row ∧
      after = { builder.withHeaps bytes with documents := builder.documents.push row } := by
  obtain ⟨name, named, hname, hrest⟩ := bind_eq_ok hadd
  obtain ⟨algorithmIndex, withAlgorithm, halgorithmAdd, hrest⟩ := bind_eq_ok hrest
  obtain ⟨hashOffset, withHash, hhashAdd, hrest⟩ := bind_eq_ok hrest
  obtain ⟨index, last, hguid, hpush⟩ := bind_eq_ok hrest
  obtain ⟨addedName, rfl, hnameLt, hreadName⟩ := addDocumentName_spec hname
  obtain ⟨addedAlgorithm, rfl, hsizeAlgorithm, rfl, hreadAlgorithm⟩ := addGuid_spec halgorithmAdd
  obtain ⟨addedHash, rfl, rfl, hhashPos, hreadHash⟩ := addBlob_spec hhashAdd
  obtain ⟨addedGuid, rfl, hsizeGuid, rfl, hreadGuid⟩ := addGuid_spec hguid
  have hsoundName := Builder.sound_appendBlobs hsound addedName
  have hsoundAlgorithm := Builder.sound_appendGuids hsoundName hsizeAlgorithm
  have hsoundHash := Builder.sound_appendBlobs hsoundAlgorithm addedHash
  have hgrowsName := Builder.growsTo_appendBlobs builder addedName
  have hgrowsAlgorithm :=
    Builder.growsTo_appendGuids (builder.appendBlobs addedName) addedAlgorithm
  have hgrowsHash := Builder.growsTo_appendBlobs
    ((builder.appendBlobs addedName).appendGuids addedAlgorithm) addedHash
  have hgrowsGuid := Builder.growsTo_appendGuids
    (((builder.appendBlobs addedName).appendGuids addedAlgorithm).appendBlobs addedHash) addedGuid
  have hgrowsLast := hgrowsHash.trans hgrowsGuid
  refine ⟨_, { name, hashAlgorithm := _, hash := _, language := _ },
    hgrowsName.trans (hgrowsAlgorithm.trans hgrowsLast),
    Builder.sound_appendGuids hsoundHash hsizeGuid, ?_, pushDocument_spec hpush⟩
  refine ⟨fun heaps hwithin number => ?_, ?_, ?_, Nat.le_refl _, ?_⟩
  · exact ofRow_of_reads
      (hreadName hsound heaps ((hgrowsAlgorithm.trans hgrowsLast).within hwithin))
      (hreadGuid hsoundHash hlanguage heaps hwithin)
      (hreadAlgorithm hsoundName halgorithm heaps (hgrowsLast.within hwithin))
      (hreadHash hsoundAlgorithm heaps (hgrowsGuid.within hwithin)) number
  · exact Nat.lt_of_lt_of_le hnameLt (hgrowsAlgorithm.trans hgrowsLast).blobs_size_le
  · refine Nat.lt_of_lt_of_le ?_ hgrowsGuid.blobs_size_le
    simp only [Builder.appendBlobs, Builder.appendGuids, Builder.heapBytes, ByteArray.size_append]
    omega
  · exact Nat.div_le_div_right hgrowsLast.guids_size_le

/-! ## Methods -/

theorem addMethod_spec {document : Nat} {marks : List SequencePoint.Mark}
    (hadd : addMethod document marks builder = .ok (number, after))
    (hsound : builder.heapBytes.Sound)
    (hencodable : marks ≠ [] → SequencePoint.Encodable document marks) :
    ∃ bytes row, builder.heapBytes.GrowsTo bytes ∧ bytes.Sound ∧
      MethodRequest.StoredIn bytes ⟨document, marks⟩ row ∧
      after = { builder.withHeaps bytes with methods := builder.methods.push row } := by
  cases marks with
  | nil =>
      cases hadd
      refine ⟨builder.heapBytes, { document, sequencePoints := 0 }, HeapBytes.GrowsTo.refl _,
        hsound, ?_, rfl⟩
      exact ⟨rfl, by simp, fun hmarks => absurd rfl hmarks, hsound.blobs_pos⟩
  | cons mark marks =>
      obtain ⟨bytes, hencode, hreads⟩ :=
        SequencePoint.exists_blob (hencodable (List.cons_ne_nil mark marks))
      obtain ⟨encoded, middle, hlift, hblob⟩ := bind_eq_ok hadd
      obtain ⟨hencoded, rfl⟩ := liftM_eq_ok hlift
      obtain rfl : bytes = encoded := Except.ok.inj (hencode.symm.trans hencoded)
      obtain ⟨offset, last, hoffset, hpush⟩ := bind_eq_ok hblob
      obtain ⟨added, rfl, rfl, hadded, hread⟩ := addBlob_spec hoffset
      cases hpush
      have hpos : 0 < middle.blobs.size := hsound.blobs_pos
      refine ⟨(middle.appendBlobs added).heapBytes, { document, sequencePoints := _ },
        Builder.growsTo_appendBlobs middle added, Builder.sound_appendBlobs hsound added, ?_, rfl⟩
      have hzero : middle.blobs.size = 0 ↔ mark :: marks = [] :=
        ⟨fun hzero => absurd hzero (Nat.ne_of_gt hpos), fun hmarks => by cases hmarks⟩
      refine ⟨rfl, hzero, fun _ heaps hwithin => ?_, ?_⟩
      · exact ⟨_, hread hsound heaps hwithin, Reader.run_of_readsAll hreads⟩
      · simp only [Builder.appendBlobs, Builder.heapBytes, ByteArray.size_append]
        omega

/-! ## Scopes and their locals -/

/-- Additions one after the other, each of which appends one row, append one row for each value. -/
theorem forM_spec {α Row : Type} {add : α → Building Unit} {Valid : α → Prop}
    (Stored : HeapBytes → α → Row → Prop) (append : Builder → List Row → Builder)
    (hgrow : ∀ {bytes next value row}, bytes.GrowsTo next → Stored bytes value row →
      Stored next value row)
    (hnil : ∀ builder, append builder [] = builder)
    (happend : ∀ builder rows more, append (append builder rows) more =
      append builder (rows ++ more))
    (hheaps : ∀ builder rows, (append builder rows).heapBytes = builder.heapBytes)
    (hwithHeaps : ∀ builder rows bytes, (append builder rows).withHeaps bytes =
      append (builder.withHeaps bytes) rows)
    (hadd : ∀ {value builder after}, add value builder = .ok ((), after) →
      builder.heapBytes.Sound → Valid value →
        ∃ bytes row, builder.heapBytes.GrowsTo bytes ∧ bytes.Sound ∧ Stored bytes value row ∧
          after = append (builder.withHeaps bytes) [row])
    {values : List α} (hrun : values.forM add builder = .ok ((), after))
    (hsound : builder.heapBytes.Sound) (hvalid : ∀ value ∈ values, Valid value) :
    ∃ bytes rows, builder.heapBytes.GrowsTo bytes ∧ bytes.Sound ∧
      List.Forall₂ (Stored bytes) values rows ∧
      after = append (builder.withHeaps bytes) rows := by
  induction values generalizing builder with
  | nil =>
      cases hrun
      refine ⟨after.heapBytes, [], HeapBytes.GrowsTo.refl _, hsound, .nil, ?_⟩
      rw [hnil]
      rfl
  | cons value values ih =>
      obtain ⟨_, middle, hfirst, hrest⟩ := bind_eq_ok hrun
      obtain ⟨bytes, row, hgrows, hsoundFirst, hstored, rfl⟩ :=
        hadd hfirst hsound (hvalid value List.mem_cons_self)
      have hbytes : (append (builder.withHeaps bytes) [row]).heapBytes = bytes := hheaps _ _
      have hsoundMiddle : (append (builder.withHeaps bytes) [row]).heapBytes.Sound := by
        rw [hbytes]
        exact hsoundFirst
      obtain ⟨last, rows, hmore, hsoundLast, hrows, rfl⟩ := ih hrest hsoundMiddle
        fun other hother => hvalid other (List.mem_cons_of_mem value hother)
      rw [hbytes] at hmore
      refine ⟨last, row :: rows, hgrows.trans hmore, hsoundLast,
        .cons (hgrow hmore hstored) hrows, ?_⟩
      rw [hwithHeaps, happend]
      rfl

theorem addVariable_spec {declaration : LocalDeclaration}
    (hadd : addVariable declaration builder = .ok ((), after))
    (hsound : builder.heapBytes.Sound) (hvalid : declaration.Valid) :
    ∃ bytes row, builder.heapBytes.GrowsTo bytes ∧ bytes.Sound ∧
      declaration.StoredIn bytes row ∧
      after = (builder.withHeaps bytes).appendVariables [row] := by
  obtain ⟨name, middle, hname, hpush⟩ := bind_eq_ok hadd
  obtain ⟨added, rfl, rfl, hadded, hread⟩ := addString_spec hname
  cases hpush
  refine ⟨(builder.appendStrings added).heapBytes,
    { attributes := declaration.attributes, index := declaration.index,
      name := builder.strings.size },
    Builder.growsTo_appendStrings builder added, Builder.sound_appendStrings hsound added, ?_,
    by simp [Builder.appendVariables, Builder.appendStrings, Builder.withHeaps, Builder.heapBytes]⟩
  refine ⟨fun heaps hwithin => ?_, rfl, rfl, ?_⟩
  · rw [DocumentIndex.readVariable, hread hvalid.1 heaps hwithin]
    rfl
  · simp only [Builder.appendStrings, Builder.heapBytes, ByteArray.size_append]
    omega

theorem addConstant_spec {constant : String × ByteArray}
    (hadd : addConstant constant builder = .ok ((), after))
    (hsound : builder.heapBytes.Sound) (hname : Char.ofNat 0 ∉ constant.1.toList) :
    ∃ bytes row, builder.heapBytes.GrowsTo bytes ∧ bytes.Sound ∧
      ConstantStoredIn bytes constant row ∧
      after = (builder.withHeaps bytes).appendConstants [row] := by
  obtain ⟨name, named, hstring, hrest⟩ := bind_eq_ok hadd
  obtain ⟨signature, last, hblob, hpush⟩ := bind_eq_ok hrest
  obtain ⟨added, rfl, rfl, hadded, hreadName⟩ := addString_spec hstring
  obtain ⟨more, rfl, rfl, hmore, hreadBlob⟩ := addBlob_spec hblob
  cases hpush
  have hnamed := Builder.sound_appendStrings hsound added
  have hgrows := Builder.growsTo_appendBlobs (builder.appendStrings added) more
  refine ⟨((builder.appendStrings added).appendBlobs more).heapBytes,
    { name := builder.strings.size, signature := builder.blobs.size },
    (Builder.growsTo_appendStrings builder added).trans hgrows,
    Builder.sound_appendBlobs hnamed more, ?_,
    by simp [Builder.appendConstants, Builder.appendStrings, Builder.appendBlobs,
      Builder.withHeaps, Builder.heapBytes]⟩
  refine ⟨fun heaps hwithin => ?_, ?_, ?_⟩
  · have hsignature : heaps.blob builder.blobs.size = .ok constant.2 :=
      hreadBlob hnamed heaps hwithin
    rw [DocumentIndex.readConstant, hreadName hname heaps (hgrows.within hwithin), hsignature]
    rfl
  · simp only [Builder.appendStrings, Builder.appendBlobs, Builder.heapBytes,
      ByteArray.size_append]
    omega
  · simp only [Builder.appendStrings, Builder.appendBlobs, Builder.heapBytes,
      ByteArray.size_append]
    omega

theorem addScope_spec {request : ScopeRequest} {methods : Nat}
    (hadd : addScope request.method request.startOffset request.length request.slots
      request.constants builder = .ok (number, after))
    (hsound : builder.heapBytes.Sound) (hvalid : request.Valid methods) :
    ∃ bytes variableRows constantRows, builder.heapBytes.GrowsTo bytes ∧ bytes.Sound ∧
      List.Forall₂ (LocalDeclaration.StoredIn bytes) request.slots variableRows ∧
      List.Forall₂ (ConstantStoredIn bytes) request.constants constantRows ∧
      after = { ((builder.withHeaps bytes).appendVariables variableRows).appendConstants
          constantRows with
        scopes := builder.scopes.push {
          method := request.method
          importScope := 0
          variableList := builder.localVariables.size + 1
          constantList := builder.constants.size + 1
          startOffset := request.startOffset
          length := request.length } } := by
  obtain ⟨seen, same, hget, hrest⟩ := bind_eq_ok hadd
  cases hget
  obtain ⟨_, middle, hvariables, hrest⟩ := bind_eq_ok hrest
  obtain ⟨_, last, hconstants, hpush⟩ := bind_eq_ok hrest
  cases hpush
  obtain ⟨bytes, variableRows, hgrows, hsoundMiddle, hvariableRows, rfl⟩ :=
    forM_spec LocalDeclaration.StoredIn Builder.appendVariables LocalDeclaration.StoredIn.grow
      (by simp [Builder.appendVariables]) (by simp [Builder.appendVariables]) (fun _ _ => rfl)
      (fun _ _ _ => rfl) addVariable_spec hvariables hsound hvalid.slots
  obtain ⟨lastBytes, constantRows, hmore, hsoundLast, hconstantRows, rfl⟩ :=
    forM_spec ConstantStoredIn Builder.appendConstants ConstantStoredIn.grow
      (by simp [Builder.appendConstants]) (by simp [Builder.appendConstants]) (fun _ _ => rfl)
      (fun _ _ _ => rfl) addConstant_spec hconstants hsoundMiddle hvalid.constants
  exact ⟨lastBytes, variableRows, constantRows, hgrows.trans hmore, hsoundLast,
    hvariableRows.imp fun _ _ hstored => hstored.grow hmore, hconstantRows, rfl⟩

end Building

/-! ## Steps -/

def FileRequest.record (request : FileRequest) : BuildStep → FileRequest
  | .document document => { request with documents := request.documents ++ [document] }
  | .method method => { request with methods := request.methods ++ [method] }
  | .scope scope => { request with scopes := request.scopes ++ [scope] }
  | .pdbId id entryPoint => { request with identity := (id, entryPoint) }
  | .referencedRows table rows =>
      { request with referencedRows := request.referencedRows ++ [(table, rows)] }
  | .extraRows table rows => { request with extraRows := request.extraRows ++ [(table, rows)] }
  | .withoutPdbStream => { request with hasPdbStream := false }

theorem FileRequest.ofSteps_append (steps : List BuildStep) (step : BuildStep) :
    ofSteps (steps ++ [step]) = (ofSteps steps).record step := by
  cases step <;>
    simp [ofSteps, record, BuildStep.document?, BuildStep.method?, BuildStep.scope?,
      BuildStep.pdbId?, BuildStep.referencedRows?, BuildStep.extraRows?, BuildStep.dropsPdbStream]

theorem scopeRows_append (variableStart constantStart : Nat) (requests : List ScopeRequest)
    (request : ScopeRequest) :
    scopeRows variableStart constantStart (requests ++ [request]) =
      scopeRows variableStart constantStart requests ++
        [{ method := request.method
           importScope := 0
           variableList := variableStart + (requests.flatMap ScopeRequest.slots).length
           constantList := constantStart + (requests.flatMap ScopeRequest.constants).length
           startOffset := request.startOffset
           length := request.length }] := by
  induction requests generalizing variableStart constantStart with
  | nil => rfl
  | cons first rest ih =>
      simp only [List.cons_append, scopeRows, ih, List.flatMap_cons, List.length_append,
        Nat.add_assoc]

namespace Builder

variable {builder next : Builder} {request : FileRequest}

theorem Holds.addDocument {row : DocumentRow} {document : DocumentRequest}
    (hholds : builder.Holds request) (hgrows : builder.heapBytes.GrowsTo bytes)
    (hsound : bytes.Sound) (hstored : document.StoredIn bytes row) :
    Holds { builder.withHeaps bytes with documents := builder.documents.push row }
      (request.record (.document document)) :=
  { hholds.grow hgrows hsound with
    documents := by
      rw [Array.toList_push]
      exact List.rel_append (hholds.grow hgrows hsound).documents (.cons hstored .nil) }

theorem Holds.addMethod {row : MethodRow} {method : MethodRequest}
    (hholds : builder.Holds request) (hgrows : builder.heapBytes.GrowsTo bytes)
    (hsound : bytes.Sound) (hstored : method.StoredIn bytes row) :
    Holds { builder.withHeaps bytes with methods := builder.methods.push row }
      (request.record (.method method)) :=
  { hholds.grow hgrows hsound with
    methods := by
      rw [Array.toList_push]
      exact List.rel_append (hholds.grow hgrows hsound).methods (.cons hstored .nil) }

theorem Holds.addScope {scope : ScopeRequest} {variableRows : List VariableRow}
    {constantRows : List ConstantRow}
    (hholds : builder.Holds request) (hgrows : builder.heapBytes.GrowsTo bytes)
    (hsound : bytes.Sound)
    (hvariables : List.Forall₂ (LocalDeclaration.StoredIn bytes) scope.slots variableRows)
    (hconstants : List.Forall₂ (ConstantStoredIn bytes) scope.constants constantRows) :
    Holds
      { ((builder.withHeaps bytes).appendVariables variableRows).appendConstants
          constantRows with
        scopes := builder.scopes.push {
          method := scope.method
          importScope := 0
          variableList := builder.localVariables.size + 1
          constantList := builder.constants.size + 1
          startOffset := scope.startOffset
          length := scope.length } }
      (request.record (.scope scope)) :=
  { hholds.grow hgrows hsound with
    slots := by
      simp only [FileRequest.record, List.flatMap_append, List.flatMap_singleton]
      change List.Forall₂ _ _ (builder.localVariables ++ variableRows.toArray).toList
      rw [Array.toList_append]
      exact List.rel_append (hholds.grow hgrows hsound).slots hvariables
    constants := by
      simp only [FileRequest.record, List.flatMap_append, List.flatMap_singleton]
      change List.Forall₂ _ _ (builder.constants ++ constantRows.toArray).toList
      rw [Array.toList_append]
      exact List.rel_append (hholds.grow hgrows hsound).constants hconstants
    scopes := by
      have hslots := hholds.slots.length_eq
      have hconstantCount := hholds.constants.length_eq
      simp only [Array.length_toList] at hslots hconstantCount
      rw [Array.toList_push, hholds.scopes]
      simp only [FileRequest.record, scopeRows_append, hslots, hconstantCount, Nat.add_comm 1] }

/-- Each valid step keeps the rows that are there and adds what it asks for. -/
theorem Holds.perform {step : BuildStep} {documents methods : Nat}
    (hholds : builder.Holds request) (hvalid : step.Valid documents methods)
    (hperform : step.perform builder = .ok ((), next)) : next.Holds (request.record step) := by
  cases step with
  | document document =>
      obtain ⟨path, language, hash⟩ := document
      cases hash with
      | none =>
          obtain ⟨_, middle, hadd, hlast⟩ := Building.bind_eq_ok hperform
          cases hlast
          obtain ⟨bytes, row, hgrows, hsound, hstored, rfl⟩ :=
            Building.addDocument_spec hadd hholds.sound hvalid.1
          exact hholds.addDocument hgrows hsound hstored
      | some hash =>
          obtain ⟨_, middle, hadd, hlast⟩ := Building.bind_eq_ok hperform
          cases hlast
          obtain ⟨bytes, row, hgrows, hsound, hstored, rfl⟩ :=
            Building.addDocumentWithHash_spec hadd hholds.sound hvalid.1 (hvalid.2 hash rfl)
          exact hholds.addDocument hgrows hsound hstored
  | method method =>
      obtain ⟨_, middle, hadd, hlast⟩ := Building.bind_eq_ok hperform
      cases hlast
      obtain ⟨bytes, row, hgrows, hsound, hstored, rfl⟩ :=
        Building.addMethod_spec hadd hholds.sound hvalid.encodable
      exact hholds.addMethod hgrows hsound hstored
  | scope scope =>
      obtain ⟨_, middle, hadd, hlast⟩ := Building.bind_eq_ok hperform
      cases hlast
      obtain ⟨bytes, variableRows, constantRows, hgrows, hsound, hvariables, hconstants, rfl⟩ :=
        Building.addScope_spec hadd hholds.sound hvalid
      exact hholds.addScope hgrows hsound hvariables hconstants
  | pdbId id entryPoint =>
      cases hperform
      exact { hholds with identity := rfl }
  | referencedRows table rows =>
      cases hperform
      exact { hholds with
        referencedRows := congrArg (· ++ [(table, rows)]) hholds.referencedRows }
  | extraRows table rows =>
      cases hperform
      exact { hholds with extraRows := congrArg (· ++ [(table, rows)]) hholds.extraRows }
  | withoutPdbStream =>
      cases hperform
      exact { hholds with hasPdbStream := rfl }

theorem holds_forM {before steps : List BuildStep} {documents methods : Nat}
    (hholds : builder.Holds (.ofSteps before))
    (hvalid : ∀ step ∈ steps, step.Valid documents methods)
    (hrun : steps.forM BuildStep.perform builder = .ok ((), next)) :
    next.Holds (.ofSteps (before ++ steps)) := by
  induction steps generalizing before builder with
  | nil =>
      cases hrun
      rw [List.append_nil]
      exact hholds
  | cons step steps ih =>
      obtain ⟨_, middle, hperform, hrest⟩ := Building.bind_eq_ok hrun
      have hmiddle := hholds.perform (hvalid step List.mem_cons_self) hperform
      rw [← FileRequest.ofSteps_append] at hmiddle
      have hnext := ih hmiddle
        (fun other hother => hvalid other (List.mem_cons_of_mem step hother)) hrest
      rwa [List.append_assoc] at hnext

theorem run_of_ofSteps {steps : List BuildStep} (hbuilt : ofSteps steps = .ok builder) :
    steps.forM BuildStep.perform Builder.empty = .ok ((), builder) := by
  unfold ofSteps at hbuilt
  cases hrun : steps.forM BuildStep.perform Builder.empty with
  | error error =>
      rw [hrun] at hbuilt
      cases hbuilt
  | ok found =>
      rw [hrun] at hbuilt
      cases hbuilt
      rfl

theorem holds_ofSteps {steps : List BuildStep} {documents methods : Nat}
    (hvalid : ∀ step ∈ steps, step.Valid documents methods)
    (hbuilt : ofSteps steps = .ok builder) : builder.Holds (.ofSteps steps) :=
  holds_forM empty_holds hvalid (run_of_ofSteps hbuilt)

end Builder

end PortablePdb
