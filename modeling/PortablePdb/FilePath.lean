import PortablePdb.Text.Lowercase

/-!
# Source paths

Paths come from different machines, so both separators count as the same one and letters count
without their case.  Nothing else is normalised: repeated separators, dots and trailing separators
stay significant in a comparison.
-/

namespace PortablePdb.FilePath

def isSeparator (c : Char) : Bool :=
  c == '\\' || c == '/'

def foldChar (c : Char) : List Char :=
  if isSeparator c then ['/'] else Text.lowercase c

/-- The form in which paths are compared. -/
def fold (path : String) : List Char :=
  path.toList.flatMap foldChar

/-- Whether two paths name the same source. -/
def same (first second : String) : Bool :=
  fold first == fold second

/-- The characters before and after the last separator, if there is one. -/
def splitAtLastSeparator : List Char → Option (List Char × List Char)
  | [] => none
  | c :: rest =>
      match splitAtLastSeparator rest with
      | some (directory, name) => some (c :: directory, name)
      | none => if isSeparator c then some ([], rest) else none

/-- The path without the separators at its end; a path of separators alone becomes `/`. -/
def withoutTrailing (path : String) : List Char :=
  match (path.toList.reverse.dropWhile isSeparator).reverse with
  | [] => ['/']
  | chars => chars

/-- The directory, if the path has one, and the name in it.  The directory of a name directly below
the root is its separator. -/
def split (path : String) : Option String × String :=
  let chars := withoutTrailing path
  match splitAtLastSeparator chars with
  | some ([], name) => (some (String.ofList (chars.take 1)), String.ofList name)
  | some (directory, name) => (some (String.ofList directory), String.ofList name)
  | none => (none, String.ofList chars)

def fileName (path : String) : String :=
  (split path).2

end PortablePdb.FilePath
