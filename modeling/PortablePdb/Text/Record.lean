import PortablePdb.Text.Hex

/-!
# Records written out for a reader

The one-line form in which headers, points and locations are shown: a record is its name and its
fields between braces, a list stands between brackets, and bytes are a list of decimal numbers.
-/

namespace PortablePdb.Text

def bracketed (items : List String) : String :=
  "[" ++ ", ".intercalate items ++ "]"

def record (name : String) (fields : List (String × String)) : String :=
  name ++ " \x7b " ++ ", ".intercalate (fields.map fun field => field.1 ++ ": " ++ field.2) ++
    " \x7d"

def byteList (bytes : ByteArray) : String :=
  bracketed (bytes.data.toList.map fun byte => toString byte.toNat)

end PortablePdb.Text
