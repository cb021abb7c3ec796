import PortablePdb.Builder.Image
import PortablePdb.DocumentIndex
import PortablePdb.Proofs.Method
import PortablePdb.Proofs.SequencePoint.Marks

/-!
# What a built file is asked to hold

A builder is filled step by step.  The steps, taken as a whole, say what documents, methods and
scopes the file is asked for, each in the order of its kind, and what stands in its `#Pdb` stream.
From them follows which documents a reader of the file should find, with which methods, without a
word about heaps, rows or bytes.
-/

namespace PortablePdb

structure DocumentRequest where
  path : String
  language : Guid
  /-- The hash and its algorithm. -/
  hash : Option (Guid × ByteArray)

structure MethodRequest where
  document : Nat
  marks : List SequencePoint.Mark

structure ScopeRequest where
  method : Nat
  startOffset : Nat
  length : Nat
  slots : List LocalDeclaration
  constants : List (String × ByteArray)

inductive BuildStep where
  | document (request : DocumentRequest)
  | method (request : MethodRequest)
  | scope (request : ScopeRequest)
  | pdbId (id : ByteArray) (entryPoint : Nat)
  | referencedRows (table rows : Nat)
  | extraRows (table rows : Nat)
  | withoutPdbStream

namespace BuildStep

def perform : BuildStep → Building Unit
  | document request => do
      let _ ← match request.hash with
        | none => Building.addDocument request.path request.language
        | some (algorithm, hash) =>
            Building.addDocumentWithHash request.path request.language algorithm hash
  | method request => do
      let _ ← Building.addMethod request.document request.marks
  | scope request => do
      let _ ← Building.addScope request.method request.startOffset request.length request.slots
        request.constants
  | pdbId id entryPoint => Building.setPdbId id entryPoint
  | referencedRows table rows => Building.setReferencedRows table rows
  | extraRows table rows => Building.setExtraRows table rows
  | withoutPdbStream => Building.withoutPdbStream

def document? : BuildStep → Option DocumentRequest
  | document request => some request
  | _ => none

def method? : BuildStep → Option MethodRequest
  | method request => some request
  | _ => none

def scope? : BuildStep → Option ScopeRequest
  | scope request => some request
  | _ => none

def pdbId? : BuildStep → Option (ByteArray × Nat)
  | pdbId id entryPoint => some (id, entryPoint)
  | _ => none

def referencedRows? : BuildStep → Option (Nat × Nat)
  | referencedRows table rows => some (table, rows)
  | _ => none

def extraRows? : BuildStep → Option (Nat × Nat)
  | extraRows table rows => some (table, rows)
  | _ => none

def dropsPdbStream : BuildStep → Bool
  | withoutPdbStream => true
  | _ => false

end BuildStep

def Builder.ofSteps (steps : List BuildStep) : Except SequencePoint.EncodeError Builder :=
  Prod.snd <$> steps.forM BuildStep.perform Builder.empty

/-! ## Steps that may be asked for -/

/-- Documents that a method names have rows; its own document may also be none. -/
structure MethodRequest.Valid (documents : Nat) (request : MethodRequest) : Prop where
  document_le : request.document ≤ documents
  encodable : request.marks ≠ [] → SequencePoint.Encodable request.document request.marks
  marks_documents : ∀ row ∈ request.marks.filterMap SequencePoint.Mark.document?,
    1 ≤ row ∧ row ≤ documents

def LocalDeclaration.Valid (declaration : LocalDeclaration) : Prop :=
  Char.ofNat 0 ∉ declaration.name.toList ∧ declaration.index < Bytes.limit 2 ∧
    declaration.attributes < Bytes.limit 2

/-- A scope's method has a row whose number fits into two bytes. -/
structure ScopeRequest.Valid (methods : Nat) (request : ScopeRequest) : Prop where
  method_pos : 1 ≤ request.method
  method_le : request.method ≤ methods
  method_lt : request.method < Bytes.limit 2
  startOffset_lt : request.startOffset < Bytes.limit 4
  length_lt : request.length < Bytes.limit 4
  slots : ∀ declaration ∈ request.slots, declaration.Valid
  constants : ∀ constant ∈ request.constants, Char.ofNat 0 ∉ constant.1.toList

/-- What a step must satisfy in a file with so many documents and methods.  Numbers have the width
that the format gives them, and only tables whose rows nobody reads get extra rows. -/
def BuildStep.Valid (documents methods : Nat) : BuildStep → Prop
  | document request =>
      request.language.value < Bytes.limit 16 ∧
        ∀ hash ∈ request.hash, hash.1.value < Bytes.limit 16
  | method request => request.Valid documents
  | scope request => request.Valid methods
  | pdbId id entryPoint => id.size = 20 ∧ entryPoint < Bytes.limit 4
  | referencedRows table rows => table < tableLimit ∧ rows < Bytes.limit 4
  | extraRows table rows => 0x35 ≤ table ∧ table ≤ 0x37 ∧ rows < Bytes.limit 4
  | withoutPdbStream => True

instance (documents : Nat) (request : MethodRequest) : Decidable (request.Valid documents) :=
  decidable_of_iff
    (request.document ≤ documents ∧
      (request.marks ≠ [] → SequencePoint.Encodable request.document request.marks) ∧
      ∀ row ∈ request.marks.filterMap SequencePoint.Mark.document?, 1 ≤ row ∧ row ≤ documents)
    ⟨fun ⟨a, b, c⟩ => ⟨a, b, c⟩, fun ⟨a, b, c⟩ => ⟨a, b, c⟩⟩

instance (declaration : LocalDeclaration) : Decidable declaration.Valid :=
  inferInstanceAs (Decidable (_ ∧ _))

instance (methods : Nat) (request : ScopeRequest) : Decidable (request.Valid methods) :=
  decidable_of_iff
    (1 ≤ request.method ∧ request.method ≤ methods ∧ request.method < Bytes.limit 2 ∧
      request.startOffset < Bytes.limit 4 ∧ request.length < Bytes.limit 4 ∧
      (∀ declaration ∈ request.slots, declaration.Valid) ∧
      ∀ constant ∈ request.constants, Char.ofNat 0 ∉ constant.1.toList)
    ⟨fun ⟨a, b, c, d, e, f, g⟩ => ⟨a, b, c, d, e, f, g⟩,
      fun ⟨a, b, c, d, e, f, g⟩ => ⟨a, b, c, d, e, f, g⟩⟩

instance (documents methods : Nat) :
    (step : BuildStep) → Decidable (step.Valid documents methods)
  | .document _ => inferInstanceAs (Decidable (_ ∧ _))
  | .method request => inferInstanceAs (Decidable (request.Valid documents))
  | .scope request => inferInstanceAs (Decidable (request.Valid methods))
  | .pdbId _ _ => inferInstanceAs (Decidable (_ ∧ _))
  | .referencedRows _ _ => inferInstanceAs (Decidable (_ ∧ _))
  | .extraRows _ _ => inferInstanceAs (Decidable (_ ∧ _ ∧ _))
  | .withoutPdbStream => inferInstanceAs (Decidable True)

/-! ## Known identifiers -/

/-- Whether a language is the one that an identifier is known for. -/
def Language.StandsFor (guid : Guid) : Language → Prop
  | cSharp => guid = cSharpGuid
  | visualBasic => guid = visualBasicGuid
  | fSharp => guid = fSharpGuid
  | unknown => guid ∉ [cSharpGuid, visualBasicGuid, fSharpGuid]

theorem Language.standsFor_ofGuid (guid : Guid) : (ofGuid guid).StandsFor guid := by
  unfold ofGuid
  split
  case isTrue hcSharp => exact hcSharp
  case isFalse hcSharp =>
      split
      case isTrue hvisualBasic => exact hvisualBasic
      case isFalse hvisualBasic =>
          split
          case isTrue hfSharp => exact hfSharp
          case isFalse hfSharp => simp [StandsFor, hcSharp, hvisualBasic, hfSharp]

/-- Whether a hash algorithm is the one that an identifier is known for. -/
def HashAlgorithm.StandsFor (guid : Guid) : HashAlgorithm → Prop
  | none => guid = Guid.nil
  | sha1 => guid = sha1Guid
  | sha256 => guid = sha256Guid
  | other unknown => guid = unknown ∧ guid ∉ [Guid.nil, sha1Guid, sha256Guid]

theorem HashAlgorithm.standsFor_ofGuid (guid : Guid) : (ofGuid guid).StandsFor guid := by
  unfold ofGuid
  split
  case isTrue hnil => exact hnil
  case isFalse hnil =>
      split
      case isTrue hsha1 => exact hsha1
      case isFalse hsha1 =>
          split
          case isTrue hsha256 => exact hsha256
          case isFalse hsha256 => simp [StandsFor, hnil, hsha1, hsha256]

/-! ## What a reader should find -/

def DocumentRequest.hashAlgorithm (request : DocumentRequest) : Guid :=
  request.hash.elim Guid.nil Prod.fst

def DocumentRequest.hashBytes (request : DocumentRequest) : ByteArray :=
  request.hash.elim ByteArray.empty Prod.snd

def MethodRequest.points (request : MethodRequest) : List SequencePoint :=
  SequencePoint.pointsOf request.document request.marks

def LocalDeclaration.toVariable (declaration : LocalDeclaration) : LocalVariable where
  index := declaration.index
  attributes := declaration.attributes
  name := declaration.name

def ScopeRequest.scope (request : ScopeRequest) : Scope where
  startOffset := request.startOffset
  length := request.length
  «variables» := request.slots.map LocalDeclaration.toVariable
  constants := request.constants.map fun constant => ⟨constant.1, constant.2⟩

/-- The row count of a table, of which the last one counts. -/
def lastRowCount (entries : List (Nat × Nat)) (table : Nat) : Nat :=
  ((entries.filter fun entry => entry.1 = table).getLast?.map Prod.snd).getD 0

/-- All that a file is asked to hold. -/
structure FileRequest where
  documents : List DocumentRequest
  methods : List MethodRequest
  scopes : List ScopeRequest
  /-- The identity and the entry point. -/
  identity : ByteArray × Nat
  /-- Row counts of tables of the described module; the last one of a table counts. -/
  referencedRows : List (Nat × Nat)
  extraRows : List (Nat × Nat)
  hasPdbStream : Bool

namespace FileRequest

/-- Documents, methods and scopes are numbered in the order of their steps, and of two identities
the later one counts. -/
def ofSteps (steps : List BuildStep) : FileRequest where
  documents := steps.filterMap BuildStep.document?
  methods := steps.filterMap BuildStep.method?
  scopes := steps.filterMap BuildStep.scope?
  identity :=
    (steps.filterMap BuildStep.pdbId?).getLast?.getD ((List.replicate 20 0).toByteArray, 0)
  referencedRows := steps.filterMap BuildStep.referencedRows?
  extraRows := steps.filterMap BuildStep.extraRows?
  hasPdbStream := !steps.any BuildStep.dropsPdbStream

variable (request : FileRequest)

/-- The scopes of the method with a row number. -/
def scopesOf (method : Nat) : List Scope :=
  (request.scopes.filter fun scope => scope.method = method).map ScopeRequest.scope

/-- The methods with a visible point in the document with a row number, each with its own row
number. -/
def methodsIn (document : Nat) : List (MethodRequest × Nat) :=
  (request.methods.zipIdx 1).filter fun entry =>
    entry.1.points.any fun point => point.document = document && point.isVisible

/-- A method as it shows in a document: with its points there and with all its scopes. -/
structure PartAs (document : Nat) (entry : MethodRequest × Nat) (part : MethodInfo) : Prop where
  row_eq : part.row = entry.2
  builtFrom : part.BuiltFrom entry.2
    (entry.1.points.filter fun point => point.document = document) (request.scopesOf entry.2)

/-- A document as it shows in a file, with the methods that lie in it. -/
structure FoundAs (entry : DocumentRequest × Nat) (info : DocumentInfo) : Prop where
  document_eq : info.document = entry.2
  filePath_eq : info.filePath = entry.1.path
  language : info.language.StandsFor entry.1.language
  hashAlgorithm : info.hashAlgorithm.StandsFor entry.1.hashAlgorithm
  hash_eq : info.hash = entry.1.hashBytes
  methods : List.Forall₂ (request.PartAs entry.2) (request.methodsIn entry.2) info.methods

structure Valid : Prop where
  methods : ∀ method ∈ request.methods, method.Valid request.documents.length
  scopes : ∀ scope ∈ request.scopes, scope.Valid request.methods.length
  identity : request.identity.1.size = 20 ∧ request.identity.2 < Bytes.limit 4
  referencedRows : ∀ entry ∈ request.referencedRows,
    entry.1 < tableLimit ∧ entry.2 < Bytes.limit 4
  extraRows : ∀ entry ∈ request.extraRows,
    0x35 ≤ entry.1 ∧ entry.1 ≤ 0x37 ∧ entry.2 < Bytes.limit 4

theorem exists_valid_of_mem {α : Type} {steps : List BuildStep} {documents methods : Nat}
    {select : BuildStep → Option α} {value : α}
    (hvalid : ∀ step ∈ steps, step.Valid documents methods)
    (hvalue : value ∈ steps.filterMap select) :
    ∃ step : BuildStep, step.Valid documents methods ∧ select step = some value := by
  obtain ⟨step, hstep, hsome⟩ := List.mem_filterMap.1 hvalue
  exact ⟨step, hvalid step hstep, hsome⟩

theorem valid_ofSteps {steps : List BuildStep}
    (hvalid : ∀ step ∈ steps, step.Valid (ofSteps steps).documents.length
      (ofSteps steps).methods.length) : (ofSteps steps).Valid where
  methods method hmethod := by
    obtain ⟨step, hone, hsome⟩ := exists_valid_of_mem hvalid hmethod
    cases step <;> cases hsome
    exact hone
  scopes scope hscope := by
    obtain ⟨step, hone, hsome⟩ := exists_valid_of_mem hvalid hscope
    cases step <;> cases hsome
    exact hone
  identity := by
    cases hlast : (steps.filterMap BuildStep.pdbId?).getLast? with
    | none =>
        simp only [ofSteps, hlast]
        decide
    | some identity =>
        obtain ⟨step, hone, hsome⟩ := exists_valid_of_mem hvalid (List.mem_of_getLast? hlast)
        simp only [ofSteps, hlast]
        cases step <;> cases hsome
        exact hone
  referencedRows entry hentry := by
    obtain ⟨step, hone, hsome⟩ := exists_valid_of_mem hvalid hentry
    cases step <;> cases hsome
    exact hone
  extraRows entry hentry := by
    obtain ⟨step, hone, hsome⟩ := exists_valid_of_mem hvalid hentry
    cases step <;> cases hsome
    exact hone

end FileRequest

end PortablePdb
