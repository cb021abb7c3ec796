import PortablePdb.Json.Basic
import PortablePdb.Text.Numeral

/-!
# JSON tokens

A text is cut into tokens by a machine that looks at one character at a time.  Words are rows of
characters that can stand in a number or a literal; which of them mean something is decided when
the word is complete.  A string is collected as code units so that the two halves of a surrogate
pair can be escaped one after the other.
-/

namespace PortablePdb.Json

inductive Token where
  | arrayOpen
  | arrayClose
  | objectOpen
  | objectClose
  | comma
  | colon
  /-- A string, a number or a literal. -/
  | scalar (value : Json)
  deriving Repr

/-- The exponent after the mark `e`, with its optional sign. -/
def exponent? (chars : List Char) : Option Int :=
  match chars with
  | '-' :: digits => (Text.digits? digits).map fun n => -(n : Int)
  | '+' :: digits => (Text.digits? digits).map Int.ofNat
  | digits => (Text.digits? digits).map Int.ofNat

/-- A number without its sign.  Its whole part has no needless leading zero, and its fraction and
exponent, if they are there, have digits. -/
def unsignedNumber? (chars : List Char) : Option Json := do
  let (whole, rest) := chars.span Char.isDigit
  if whole.isEmpty ∨ (whole.head? = some '0' ∧ whole ≠ ['0']) then failure
  let (fraction, rest) := match rest with
    | '.' :: rest => rest.span Char.isDigit
    | rest => ([], rest)
  if rest.length + whole.length + 1 = chars.length ∧ fraction.isEmpty then failure
  let exponent ← match rest with
    | [] => pure 0
    | mark :: rest => if mark = 'e' ∨ mark = 'E' then exponent? rest else none
  let significand := Significand.ofDigits (whole ++ fraction)
  if chars.length = whole.length ∧ significand.dropped = 0 then return .natural significand.value
  return .decimal false significand.value (exponent - fraction.length + significand.dropped)

/-- The value of a complete word. -/
def word? (chars : List Char) : Option Json :=
  if chars = ['n', 'u', 'l', 'l'] then some .null
  else if chars = ['t', 'r', 'u', 'e'] then some (.bool true)
  else if chars = ['f', 'a', 'l', 's', 'e'] then some (.bool false)
  else
    match chars with
    | '-' :: chars =>
        (unsignedNumber? chars).map fun
          | .natural n => .decimal true n 0
          | .decimal _ significand exponent => .decimal true significand exponent
          | value => value
    | chars => unsignedNumber? chars

def isHighSurrogate (unit : Nat) : Bool :=
  0xD800 ≤ unit && unit < 0xDC00

def isLowSurrogate (unit : Nat) : Bool :=
  0xDC00 ≤ unit && unit < 0xE000

/-- The characters that code units stand for, unless a surrogate is left without its other half. -/
def charsOfUnits : List Nat → Option (List Char)
  | [] => some []
  | high :: low :: rest =>
      if isHighSurrogate high && isLowSurrogate low then
        (charsOfUnits rest).map
          (Char.ofNat (0x10000 + (high - 0xD800) * 0x400 + (low - 0xDC00)) :: ·)
      else if isHighSurrogate high || isLowSurrogate high then none
      else (charsOfUnits (low :: rest)).map (Char.ofNat high :: ·)
  | [unit] => if isHighSurrogate unit || isLowSurrogate unit then none else some [Char.ofNat unit]

def stringOfUnits (units : List Nat) : Json :=
  .text ((charsOfUnits units).map String.ofList)

/-- Where the machine is in the text.  Characters and units are kept last first. -/
inductive Mode where
  | between
  | inWord (chars : List Char)
  | inString (units : List Nat)
  /-- After a backslash. -/
  | inEscape (units : List Nat)
  /-- In the digits of an escaped code unit, of which `count` are still to come. -/
  | inCodeUnit (units : List Nat) (count value : Nat)

structure Lexer where
  mode : Mode
  /-- The complete tokens, last first. -/
  tokens : List Token

def isWordChar (c : Char) : Bool :=
  c.isAlphanum || c == '+' || c == '-' || c == '.'

def hexDigitValue? (c : Char) : Option Nat :=
  if c.isDigit then some (c.toNat - 48)
  else if 'a' ≤ c ∧ c ≤ 'f' then some (c.toNat - 87)
  else if 'A' ≤ c ∧ c ≤ 'F' then some (c.toNat - 55)
  else none

/-- The code unit that a backslash and this character stand for. -/
def escapedUnit? (c : Char) : Option Nat :=
  match c with
  | '"' => some 0x22
  | '\\' => some 0x5C
  | '/' => some 0x2F
  | 'b' => some 0x08
  | 'f' => some 0x0C
  | 'n' => some 0x0A
  | 'r' => some 0x0D
  | 't' => some 0x09
  | _ => none

def punctuation? (c : Char) : Option Token :=
  match c with
  | '[' => some .arrayOpen
  | ']' => some .arrayClose
  | '\x7b' => some .objectOpen
  | '\x7d' => some .objectClose
  | ',' => some .comma
  | ':' => some .colon
  | _ => none

/-- Takes a character that is not part of a token that has begun before. -/
def Lexer.startToken (tokens : List Token) (c : Char) : Option Lexer :=
  if c = ' ' ∨ c = '\t' ∨ c = '\n' ∨ c = '\r' then some ⟨.between, tokens⟩
  else if c = '"' then some ⟨.inString [], tokens⟩
  else if isWordChar c then some ⟨.inWord [c], tokens⟩
  else (punctuation? c).map fun token => ⟨.between, token :: tokens⟩

def Lexer.step (lexer : Lexer) (c : Char) : Option Lexer :=
  match lexer.mode with
  | .between => startToken lexer.tokens c
  | .inWord chars =>
      if isWordChar c then some { lexer with mode := .inWord (c :: chars) }
      else do startToken (.scalar (← word? chars.reverse) :: lexer.tokens) c
  | .inString units =>
      if c = '"' then
        some ⟨.between, .scalar (stringOfUnits units.reverse) :: lexer.tokens⟩
      else if c = '\\' then some { lexer with mode := .inEscape units }
      else if c.toNat < 0x20 then none
      else some { lexer with mode := .inString (c.toNat :: units) }
  | .inEscape units =>
      if c = 'u' then some { lexer with mode := .inCodeUnit units 4 0 }
      else do return { lexer with mode := .inString ((← escapedUnit? c) :: units) }
  | .inCodeUnit units count value => do
      let value := value * 16 + (← hexDigitValue? c)
      if count = 1 then return { lexer with mode := .inString (value :: units) }
      return { lexer with mode := .inCodeUnit units (count - 1) value }

def tokens? (text : String) : Option (List Token) := do
  let lexer ← text.toList.foldlM Lexer.step ⟨.between, []⟩
  match lexer.mode with
  | .between => return lexer.tokens.reverse
  | .inWord chars => return (.scalar (← word? chars.reverse) :: lexer.tokens).reverse
  | _ => none

end PortablePdb.Json
