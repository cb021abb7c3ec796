/-!
# The metadata tables of a Portable PDB

A table stream numbers its tables from 0 to 63.  This file names the ones that the format gives a
meaning to: `MethodDef`, which only another file can hold rows of, and the eight tables of the
debugging extension.  Five of those eight have a row layout that is decoded; the other three follow
them in the stream and are allowed to hold rows that nobody reads.
-/

namespace PortablePdb

inductive TableId where
  | methodDef
  | document
  | methodDebugInformation
  | localScope
  | localVariable
  | localConstant
  | importScope
  | stateMachineMethod
  | customDebugInformation
  deriving DecidableEq, Repr

namespace TableId

/-- The position of the table in the 64-bit sets and row counts of a stream header. -/
def number : TableId → Nat
  | methodDef => 0x06
  | document => 0x30
  | methodDebugInformation => 0x31
  | localScope => 0x32
  | localVariable => 0x33
  | localConstant => 0x34
  | importScope => 0x35
  | stateMachineMethod => 0x36
  | customDebugInformation => 0x37

def name : TableId → String
  | methodDef => "MethodDef"
  | document => "Document"
  | methodDebugInformation => "MethodDebugInformation"
  | localScope => "LocalScope"
  | localVariable => "LocalVariable"
  | localConstant => "LocalConstant"
  | importScope => "ImportScope"
  | stateMachineMethod => "StateMachineMethod"
  | customDebugInformation => "CustomDebugInformation"

def all : List TableId :=
  [methodDef, document, methodDebugInformation, localScope, localVariable, localConstant,
    importScope, stateMachineMethod, customDebugInformation]

/-- The tables whose rows a table stream may hold, in stream order. -/
def debugging : List TableId :=
  [document, methodDebugInformation, localScope, localVariable, localConstant, importScope,
    stateMachineMethod, customDebugInformation]

/-- Whether the table with this number may hold rows. -/
def mayHoldRows (number : Nat) : Bool :=
  debugging.any fun table => table.number == number

def ofName? (name : String) : Option TableId :=
  all.find? fun table => table.name == name

theorem number_lt (table : TableId) : table.number < 64 := by
  cases table <;> decide

end TableId

end PortablePdb
