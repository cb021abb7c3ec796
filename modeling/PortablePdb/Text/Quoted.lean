import PortablePdb.Text.Hex
import PortablePdb.Text.Printable

/-!
# Quoted text

Text between double quotes.  A quote or a backslash in it is preceded by a backslash, four control
characters have a letter, and any other character that cannot be shown is written as its code
point.
-/

namespace PortablePdb.Text

def quotedChar (c : Char) : String :=
  if c = '"' then "\\\""
  else if c = '\\' then "\\\\"
  else if c = '\n' then "\\n"
  else if c = '\r' then "\\r"
  else if c = '\t' then "\\t"
  else if c = '\x00' then "\\0"
  else if extendsGrapheme c || !isPrintable c then "\\u\x7b" ++ hex c.toNat ++ "\x7d"
  else c.toString

def quoted (text : String) : String :=
  "\"" ++ String.join (text.toList.map quotedChar) ++ "\""

end PortablePdb.Text
