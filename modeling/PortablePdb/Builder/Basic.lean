import PortablePdb.Guid
import PortablePdb.SequencePoint.Encode
import PortablePdb.Table.Row

/-!
# Building symbol files

A `Builder` collects heaps and rows; additions answer with the place of what they add.  An addition
fails if a number in it cannot be encoded, and then adds nothing.
-/

namespace PortablePdb

structure Builder where
  strings : ByteArray
  blobs : ByteArray
  guids : ByteArray
  documents : Array DocumentRow
  methods : Array MethodRow
  scopes : Array ScopeRow
  localVariables : Array VariableRow
  constants : Array ConstantRow
  hasPdbStream : Bool
  /-- Twenty bytes. -/
  pdbId : ByteArray
  entryPoint : Nat
  /-- Row counts of the described module, by table number; the last one of a table counts. -/
  referencedRows : List (Nat × Nat)
  /-- Row counts that replace those of the rows that were added. -/
  extraRows : List (Nat × Nat)
  /-- Streams that follow the usual ones, with their names. -/
  extraStreams : List (String × ByteArray)

structure LocalDeclaration where
  name : String
  index : Nat
  attributes : Nat
  deriving DecidableEq, Repr

namespace Builder

/-- Nothing but the first byte of each heap that has one. -/
def empty : Builder where
  strings := [0].toByteArray
  blobs := [0].toByteArray
  guids := ByteArray.empty
  documents := #[]
  methods := #[]
  scopes := #[]
  localVariables := #[]
  constants := #[]
  hasPdbStream := true
  pdbId := (List.replicate 20 0).toByteArray
  entryPoint := 0
  referencedRows := []
  extraRows := []
  extraStreams := []

end Builder

/-- An addition to a builder. -/
abbrev Building (α : Type) := StateT Builder (Except SequencePoint.EncodeError) α

namespace Building

/-- Adds a string and gives its offset. -/
def addString (text : String) : Building Nat :=
  modifyGet fun builder =>
    (builder.strings.size,
      { builder with strings := builder.strings ++ text.toUTF8 ++ [0].toByteArray })

/-- Adds a blob and gives its offset. -/
def addBlob (blob : ByteArray) : Building Nat := do
  let length ← liftM (SequencePoint.unsigned blob.size)
  modifyGet fun builder =>
    (builder.blobs.size, { builder with blobs := builder.blobs ++ length.toByteArray ++ blob })

/-- Adds an identifier and gives its index. -/
def addGuid (guid : Guid) : Building Nat :=
  modifyGet fun builder =>
    let guids := builder.guids ++ guid.toBytes.toByteArray
    (guids.size / 16, { builder with guids })

/-- Adds a part of a document name and gives its encoded offset, which is zero for an empty
part. -/
def addNamePart (part : List Char) : Building (List UInt8) := do
  let offset ← if part.isEmpty then pure 0 else addBlob (String.ofList part).toUTF8
  liftM (SequencePoint.unsigned offset)

/-- Adds a document name and gives its offset.  A path with a backslash is split there, and any
other path at slashes. -/
def addDocumentName (path : String) : Building Nat := do
  let chars := path.toList
  let separator := if '\\' ∈ chars then '\\' else '/'
  let parts ← (chars.splitOn separator).mapM addNamePart
  addBlob (UInt8.ofNat separator.toNat :: parts.flatten).toByteArray

def pushDocument (row : DocumentRow) : Building Nat :=
  modifyGet fun builder =>
    (builder.documents.size + 1, { builder with documents := builder.documents.push row })

def addDocument (path : String) (language : Guid) : Building Nat := do
  let name ← addDocumentName path
  let language ← addGuid language
  pushDocument { name, hashAlgorithm := 0, hash := 0, language }

def addDocumentWithHash (path : String) (language hashAlgorithm : Guid) (hash : ByteArray) :
    Building Nat := do
  let name ← addDocumentName path
  let hashAlgorithm ← addGuid hashAlgorithm
  let hash ← addBlob hash
  let language ← addGuid language
  pushDocument { name, hashAlgorithm, hash, language }

/-- Adds a method row with the given points, already encoded, and gives its number. -/
def addMethodBlob (document : Nat) (blob : Option ByteArray) : Building Nat := do
  let sequencePoints ← match blob with
    | some blob => addBlob blob
    | none => pure 0
  modifyGet fun builder =>
    (builder.methods.size + 1,
      { builder with methods := builder.methods.push { document, sequencePoints } })

/-- Adds a method and gives its row number.  A method without marks has no points at all. -/
def addMethod (document : Nat) (marks : List SequencePoint.Mark) : Building Nat := do
  if marks.isEmpty then addMethodBlob document none
  else
    let blob ← liftM (SequencePoint.encode document marks)
    addMethodBlob document (some blob.toByteArray)

def pushScope (row : ScopeRow) : Building Nat :=
  modifyGet fun builder =>
    (builder.scopes.size + 1, { builder with scopes := builder.scopes.push row })

def addVariable (declaration : LocalDeclaration) : Building Unit := do
  let name ← addString declaration.name
  let row := { attributes := declaration.attributes, index := declaration.index, name }
  modify fun builder => { builder with localVariables := builder.localVariables.push row }

def addConstant (constant : String × ByteArray) : Building Unit := do
  let name ← addString constant.1
  let signature ← addBlob constant.2
  modify fun builder =>
    { builder with constants := builder.constants.push { name, signature } }

/-- Adds a scope with its locals and gives its row number.  Its runs start after the locals that
were added before. -/
def addScope (method startOffset length : Nat) (localVariables : List LocalDeclaration)
    (constants : List (String × ByteArray)) : Building Nat := do
  let builder ← get
  let variableList := builder.localVariables.size + 1
  let constantList := builder.constants.size + 1
  localVariables.forM addVariable
  constants.forM addConstant
  pushScope { method, importScope := 0, variableList, constantList, startOffset, length }

def setPdbId (id : ByteArray) (entryPoint : Nat) : Building Unit :=
  modify fun builder => { builder with pdbId := id, entryPoint }

def setReferencedRows (table rows : Nat) : Building Unit :=
  modify fun builder => { builder with referencedRows := builder.referencedRows ++ [(table, rows)] }

def setExtraRows (table rows : Nat) : Building Unit :=
  modify fun builder => { builder with extraRows := builder.extraRows ++ [(table, rows)] }

def withoutPdbStream : Building Unit :=
  modify fun builder => { builder with hasPdbStream := false }

def addStream (name : String) (bytes : ByteArray) : Building Unit :=
  modify fun builder => { builder with extraStreams := builder.extraStreams ++ [(name, bytes)] }

end Building

end PortablePdb
