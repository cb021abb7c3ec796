import PortablePdb.Json.Basic
import PortablePdb.Text.Hex

/-!
# Printing JSON

Values are printed on several lines, two spaces deeper for each array and object.  Strings escape
quotes, backslashes and control characters, and nothing else; one that denotes no text is empty.
-/

namespace PortablePdb.Json

def escapedChar (c : Char) : String :=
  match c with
  | '"' => "\\\""
  | '\\' => "\\\\"
  | '\x08' => "\\b"
  | '\x0c' => "\\f"
  | '\n' => "\\n"
  | '\r' => "\\r"
  | '\t' => "\\t"
  | c => if c.toNat < 0x20 then "\\u" ++ Text.hexFilled 4 c.toNat else c.toString

def quotedText (text : String) : String :=
  "\"" ++ String.join (text.toList.map escapedChar) ++ "\""

/-- A new line that is indented by two spaces for each level. -/
def lineBreak (level : Nat) : String :=
  "\n" ++ String.ofList (List.replicate (2 * level) ' ')

/-- The printed items of an array or object between its marks. -/
def block (level : Nat) (opening closing : String) (items : List String) : String :=
  if items.isEmpty then opening ++ closing
  else
    opening ++ lineBreak (level + 1) ++ (("," ++ lineBreak (level + 1)).intercalate items) ++
      lineBreak level ++ closing

mutual

def printAt (level : Nat) : Json → String
  | .null => "null"
  | .bool value => toString value
  | .natural value => toString value
  | .decimal negative significand exponent =>
      (if negative then "-" else "") ++ toString significand ++ "e" ++ toString exponent
  | .text value => quotedText (value.getD "")
  | .array items => block level "[" "]" (printItems (level + 1) items)
  | .object fields => block level "\x7b" "\x7d" (printFields (level + 1) fields)

def printItems (level : Nat) : List Json → List String
  | [] => []
  | item :: items => printAt level item :: printItems level items

def printFields (level : Nat) : List (Option String × Json) → List String
  | [] => []
  | (key, value) :: fields =>
      (quotedText (key.getD "") ++ ": " ++ printAt level value) :: printFields level fields

end

def print (value : Json) : String :=
  printAt 0 value

end PortablePdb.Json
