/-!
# Blank text

A character is blank if Unicode gives it the property `White_Space`.  Trimming removes blank
characters from both ends of a text.
-/

namespace PortablePdb.Text

def isBlank (c : Char) : Bool :=
  let n := c.toNat
  (0x09 ≤ n && n ≤ 0x0D) || n == 0x20 || n == 0x85 || n == 0xA0 || n == 0x1680 ||
    (0x2000 ≤ n && n ≤ 0x200A) || n == 0x2028 || n == 0x2029 || n == 0x202F || n == 0x205F ||
    n == 0x3000

def trim (text : List Char) : List Char :=
  ((text.dropWhile isBlank).reverse.dropWhile isBlank).reverse

def isBlankText (text : String) : Bool :=
  text.toList.all isBlank

end PortablePdb.Text
