import PortablePdb.Breakpoint.Request

/-!
# Arguments of the command line

Symbol files are given with `-p` or `--pdb`, at least one; `-l` or `--list` lists their contents,
`-s` or `--basenames` shortens the listed paths, and `--json` changes the output.  Everything else
is a breakpoint, as is everything behind `--`.  One-letter options can be joined, and the value of
an option can be joined to it, with an equals sign between them or, behind one letter, without.
-/

namespace PortablePdb.CommandLine

structure Arguments where
  pdbs : List String
  list : Bool
  basenames : Bool
  json : Bool
  requests : List BreakpointRequest
  deriving DecidableEq, Repr

/-- Why the arguments are not carried out. -/
inductive Refusal where
  | usage
  | help
  deriving DecidableEq, Repr

namespace Arguments

def empty : Arguments where
  pdbs := []
  list := false
  basenames := false
  json := false
  requests := []

/-- An option takes a value, or is a switch that may be given once. -/
inductive OptionKind where
  | pdb
  | list
  | basenames
  | json
  | help
  deriving DecidableEq, Repr

def long? (name : List Char) : Option OptionKind :=
  if name = "pdb".toList then some .pdb
  else if name = "list".toList then some .list
  else if name = "basenames".toList then some .basenames
  else if name = "json".toList then some .json
  else if name = "help".toList then some .help
  else none

def short? (letter : Char) : Option OptionKind :=
  match letter with
  | 'p' => some .pdb
  | 'l' => some .list
  | 's' => some .basenames
  | 'h' => some .help
  | _ => none

def addPdb (arguments : Arguments) (path : List Char) : Except Refusal Arguments :=
  if path.isEmpty then .error .usage
  else .ok { arguments with pdbs := arguments.pdbs ++ [String.ofList path] }

def switch (arguments : Arguments) : OptionKind → Except Refusal Arguments
  | .pdb => .error .usage
  | .list => if arguments.list then .error .usage else .ok { arguments with list := true }
  | .basenames =>
      if arguments.basenames then .error .usage else .ok { arguments with basenames := true }
  | .json => if arguments.json then .error .usage else .ok { arguments with json := true }
  | .help => .error .help

def addRequest (arguments : Arguments) (text : List Char) : Except Refusal Arguments :=
  match BreakpointRequest.ofText (String.ofList text) with
  | .ok request => .ok { arguments with requests := arguments.requests ++ [request] }
  | .error _ => .error .usage

/-- The arguments after an option: whether the option still needs a value from the next one. -/
structure Progress where
  arguments : Arguments
  awaitsValue : Bool

/-- Takes the letters of joined one-letter options. -/
def addLetters (arguments : Arguments) : List Char → Except Refusal Progress
  | [] => .ok ⟨arguments, false⟩
  | letter :: rest =>
      match short? letter with
      | none => .error .usage
      | some .pdb =>
          match rest with
          | [] => .ok ⟨arguments, true⟩
          | '=' :: value => do return ⟨← arguments.addPdb value, false⟩
          | value => do return ⟨← arguments.addPdb value, false⟩
      | some kind => do addLetters (← arguments.switch kind) rest

/-- Takes a long option, of which `text` is what follows the hyphens. -/
def addLong (arguments : Arguments) (text : List Char) : Except Refusal Progress :=
  let (name, value) := text.span (· ≠ '=')
  match long? name, value with
  | some .pdb, [] => .ok ⟨arguments, true⟩
  | some .pdb, _ :: value => do return ⟨← arguments.addPdb value, false⟩
  | some kind, [] => do return ⟨← arguments.switch kind, false⟩
  | _, _ => .error .usage

def add (arguments : Arguments) (text : List Char) : Except Refusal Progress :=
  match text with
  | '-' :: '-' :: rest => addLong arguments rest
  | '-' :: letter :: rest => addLetters arguments (letter :: rest)
  | text => do return ⟨← arguments.addRequest text, false⟩

/-- Whether an argument can be the value of an option that stands before it. -/
def canBeValue (text : List Char) : Bool :=
  text = ['-'] || text.head? != some '-'

/-- Takes the arguments in order, the first of which may be a value that is awaited. -/
def addAll (progress : Progress) : List (List Char) → Except Refusal Arguments
  | [] => if progress.awaitsValue then .error .usage else .ok progress.arguments
  | text :: rest =>
      if progress.awaitsValue then
        if canBeValue text then do
          addAll ⟨← progress.arguments.addPdb text, false⟩ rest
        else .error .usage
      else if text = ['-', '-'] then rest.foldlM addRequest progress.arguments
      else do addAll (← add progress.arguments text) rest

def parse (texts : List String) : Except Refusal Arguments := do
  let arguments ← addAll ⟨empty, false⟩ (texts.map String.toList)
  if arguments.pdbs.isEmpty then throw .usage
  return arguments

end Arguments

end PortablePdb.CommandLine
