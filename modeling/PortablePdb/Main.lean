import PortablePdb.CommandLine.Resolver

/-!
# The program

Reads the files that the arguments name and prints what the resolver answers.
-/

open PortablePdb

/-- The contents of a file, or why they could not be had.  The system's error number for a directory
is 21, and for a name that is too long it is 36; either may be reported negated. -/
def readContents (path : String) : IO (Except FileFailure ByteArray) := do
  try
    return .ok (← IO.FS.readBinFile path)
  catch error =>
    match error with
    | .noFileOrDirectory .. => return .error .notFound
    | .inappropriateType _ code _ =>
        return .error (if code = 21 ∨ -code = 21 then .isADirectory else .notADirectory)
    | .invalidArgument _ code _ =>
        return .error (if code = 36 ∨ -code = 36 then .nameTooLong else .other error.toString)
    | error => return .error (.other error.toString)

def main (texts : List String) : IO UInt32 := do
  let paths := match CommandLine.Arguments.parse texts with
    | .ok arguments => arguments.pdbs
    | .error _ => []
  let contents ← paths.mapM fun path => do return (path, ← readContents path)
  let outcome := CommandLine.run texts fun path =>
    (contents.lookup path).getD (.error .notFound)
  IO.print outcome.output
  IO.eprint outcome.errors
  return UInt32.ofNat outcome.exitCode
