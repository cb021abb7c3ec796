import PortablePdb.Breakpoint.Collection
import PortablePdb.Breakpoint.Serialized
import PortablePdb.CommandLine.Arguments
import PortablePdb.Json.Printer

/-!
# The command-line resolver

Loads the given symbol files in order, lists them if asked to, and prints where the breakpoints
bind.  The first file that cannot be loaded ends the run; what was printed before stays.
-/

namespace PortablePdb.CommandLine

structure Outcome where
  exitCode : Nat
  output : String
  errors : String
  deriving DecidableEq, Repr

/-- Why a run ends early: what was being done, and the messages of the causes. -/
structure Failure where
  context : String
  causes : List String
  deriving DecidableEq, Repr

/-- The context and, below it, the causes, which are numbered if there are several. -/
def Failure.render (failure : Failure) : String :=
  let lines := match failure.causes with
    | [cause] => ["    " ++ cause]
    | causes => causes.mapIdx fun i cause =>
        let number := toString i
        String.ofList (List.replicate (5 - number.length) ' ') ++ number ++ ": " ++ cause
  if lines.isEmpty then failure.context
  else failure.context ++ "\n\nCaused by:\n" ++ "\n".intercalate lines

def methodDefText (methodDef : Nat) : String :=
  Text.markedHexFilled 8 methodDef

def documentLines (basenames : Bool) (document : DocumentInfo) : List String :=
  let name := if basenames then document.fileName else document.filePath
  ("  " ++ name ++ " (" ++ document.language.label ++ ")") ::
    document.methods.map fun method =>
      "    " ++ methodDefText method.methodDef ++ " lines " ++ toString method.firstLine ++ "-" ++
        toString method.lastLine

def listing (path : String) (basenames : Bool) (file : SymbolFile) : List String :=
  let skippedDocuments := file.index.skippedDocuments
  let skippedMethods := file.index.skippedMethods
  [path] ++
    (file.pdbId.toList.map fun id => "  id: " ++ id.toText) ++
    (file.entryPoint.toList.map fun token => "  entry point: " ++ methodDefText token) ++
    file.documents.flatMap (documentLines basenames) ++
    if 0 < skippedDocuments ∨ 0 < skippedMethods then
      ["  skipped " ++ toString skippedDocuments ++ " documents and " ++
        toString skippedMethods ++ " methods"]
    else []

def breakpointLine (breakpoint : Breakpoint) : String :=
  let target := match breakpoint.location with
    | some location =>
        methodDefText location.methodDef ++ "+" ++ Text.markedHex location.ilOffset ++ " (" ++
          location.filePath ++ ":" ++ toString location.startLine ++ "-" ++
          toString location.endLine ++ ")"
    | none => "??"
  breakpoint.filePath ++ ":" ++ toString breakpoint.line ++ " -> " ++ target

/-- A run so far: the loaded files and the printed lines. -/
structure Progress where
  collection : Collection
  lines : List String

def Progress.start : Progress :=
  ⟨Collection.empty, []⟩

/-- Loads a file.  On failure the lines that were printed before are kept. -/
def load (arguments : Arguments) (read : String → Except FileFailure ByteArray)
    (progress : Progress) (path : String) : Except (List String × Failure) Progress :=
  match SymbolFile.ofContents (read path) with
  | .error error => .error (progress.lines, ⟨"failed to open " ++ path, error.messages⟩)
  | .ok file =>
      let lines := if arguments.list then listing path arguments.basenames file else []
      let handle := progress.collection.files.length
      let collection := (progress.collection.add ⟨handle, file⟩).1
      .ok ⟨collection, progress.lines ++ lines⟩

/-- The requests under the ids one, two and so on. -/
def numbered (requests : List BreakpointRequest) : List BreakpointRequest :=
  requests.mapIdx fun i request => { request with id := ⟨i + 1⟩ }

def breakpointLines (json : Bool) (breakpoints : List Breakpoint) : List String :=
  if json then [Json.print (.array (breakpoints.map Serialized.breakpoint))]
  else breakpoints.map breakpointLine

/-- The printed lines, up to the failure if there is one. -/
def runLines (arguments : Arguments) (read : String → Except FileFailure ByteArray) :
    Except (List String × Failure) (List String) := do
  let progress ← arguments.pdbs.foldlM (load arguments read) Progress.start
  match progress.collection.sync (numbered arguments.requests) with
  | .error error => .error (progress.lines, ⟨"invalid breakpoint request", [error.message]⟩)
  | .ok (collection, _) =>
      return progress.lines ++ breakpointLines arguments.json collection.breakpoints

def joinLines (lines : List String) : String :=
  String.join (lines.map (· ++ "\n"))

/-- Runs with arguments that were understood.  A failure is reported but is no error of use. -/
def execute (arguments : Arguments) (read : String → Except FileFailure ByteArray) : Outcome :=
  match runLines arguments read with
  | .ok lines => ⟨0, joinLines lines, ""⟩
  | .error (lines, failure) => ⟨0, joinLines lines, failure.render ++ "\n"⟩

def helpText : String :=
  "Usage: portable-pdb [-l] [-s] [--json] -p FILE [-p FILE]... [FILE:LINE[:COLUMN]]...\n"

def run (texts : List String) (read : String → Except FileFailure ByteArray) : Outcome :=
  match Arguments.parse texts with
  | .ok arguments => execute arguments read
  | .error .help => ⟨0, helpText, ""⟩
  | .error .usage => ⟨2, "", helpText⟩

end PortablePdb.CommandLine
