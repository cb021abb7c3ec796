import PortablePdb.Guid

/-!
# Source languages and hash algorithms

A document names its language and the algorithm of its hash by well-known identifiers.
-/

namespace PortablePdb

inductive Language where
  | unknown
  | cSharp
  | visualBasic
  | fSharp
  deriving DecidableEq, Repr

namespace Language

def all : List Language :=
  [unknown, cSharp, visualBasic, fSharp]

def number : Language → Nat
  | unknown => 0
  | cSharp => 1
  | visualBasic => 2
  | fSharp => 3

/-- The language of a number; numbers that have none stand for the unknown language. -/
def ofNumber (number : Nat) : Language :=
  (all.find? fun language => language.number == number).getD unknown

/-- The short name, in which a language is also read. -/
def name : Language → String
  | unknown => "unknown"
  | cSharp => "csharp"
  | visualBasic => "vb"
  | fSharp => "fsharp"

def ofName? (name : String) : Option Language :=
  all.find? fun language => language.name == name

/-- The name for people. -/
def title : Language → String
  | unknown => "unknown"
  | cSharp => "C#"
  | visualBasic => "Visual Basic"
  | fSharp => "F#"

/-- The name in serialized data and in listings. -/
def label : Language → String
  | unknown => "Unknown"
  | cSharp => "CSharp"
  | visualBasic => "VisualBasic"
  | fSharp => "FSharp"

def cSharpGuid : Guid := ⟨0x3f5162f807c611d3905300c04fa302a1⟩

def visualBasicGuid : Guid := ⟨0x3a12d0b8c26c11d0b44200a0244a1dd2⟩

def fSharpGuid : Guid := ⟨0xab4f38c9b6e643babe3b58080b2ccce3⟩

def ofGuid (guid : Guid) : Language :=
  if guid = cSharpGuid then cSharp
  else if guid = visualBasicGuid then visualBasic
  else if guid = fSharpGuid then fSharp
  else unknown

theorem ofName?_name (language : Language) : ofName? language.name = some language := by
  cases language <;> decide

theorem ofNumber_number (language : Language) : ofNumber language.number = language := by
  cases language <;> rfl

end Language

inductive HashAlgorithm where
  | none
  | sha1
  | sha256
  | other (guid : Guid)
  deriving DecidableEq, Repr

namespace HashAlgorithm

def sha1Guid : Guid := ⟨0xff1816ecaa5e4d1087f76f4963833460⟩

def sha256Guid : Guid := ⟨0x8829d00f11b84213878b770e8597ac16⟩

def ofGuid (guid : Guid) : HashAlgorithm :=
  if guid = Guid.nil then none
  else if guid = sha1Guid then sha1
  else if guid = sha256Guid then sha256
  else other guid

def describe : HashAlgorithm → String
  | none => "None"
  | sha1 => "Sha1"
  | sha256 => "Sha256"
  | other guid => "Other(" ++ guid.toText ++ ")"

end HashAlgorithm

end PortablePdb
