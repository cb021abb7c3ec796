import PortablePdb.Json.Token

/-!
# Parsing JSON

The tokens of a text are read one at a time by a machine that keeps a stack of the arrays and
objects that are still open, so nesting is bounded by the text alone.
-/

namespace PortablePdb.Json

/-- An array or object that is still open.  What it holds so far is kept last first. -/
inductive Frame where
  | array (items : List Json)
  | object (fields : List (Option String × Json)) (key : Option String)

/-- What may come next. -/
inductive Expected where
  | value
  /-- The first item of an array, or its end. -/
  | itemOrEnd
  /-- The first key of an object, or its end. -/
  | keyOrEnd
  | key
  | colon
  /-- A comma or the end of the innermost open array or object. -/
  | commaOrEnd
  /-- Nothing: the value is complete. -/
  | nothing (result : Json)

structure Parser where
  expected : Expected
  frames : List Frame

namespace Parser

def start : Parser :=
  ⟨.value, []⟩

/-- Goes on after a complete value. -/
def complete (value : Json) : List Frame → Parser
  | [] => ⟨.nothing value, []⟩
  | .array items :: frames => ⟨.commaOrEnd, .array (value :: items) :: frames⟩
  | .object fields key :: frames => ⟨.commaOrEnd, .object ((key, value) :: fields) key :: frames⟩

/-- Takes the first token of a value. -/
def startValue (frames : List Frame) : Token → Option Parser
  | .scalar value => some (complete value frames)
  | .arrayOpen => some ⟨.itemOrEnd, .array [] :: frames⟩
  | .objectOpen => some ⟨.keyOrEnd, .object [] none :: frames⟩
  | _ => none

/-- Takes the key of a field of the innermost open object. -/
def startField (frames : List Frame) : Token → Option Parser
  | .scalar (.text key) =>
      match frames with
      | .object fields _ :: frames => some ⟨.colon, .object fields key :: frames⟩
      | _ => none
  | _ => none

def close (frames : List Frame) : Token → Option Parser
  | .arrayClose =>
      match frames with
      | .array items :: frames => some (complete (.array items.reverse) frames)
      | _ => none
  | .objectClose =>
      match frames with
      | .object fields _ :: frames => some (complete (.object fields.reverse) frames)
      | _ => none
  | _ => none

def step (parser : Parser) (token : Token) : Option Parser :=
  match parser.expected with
  | .value => startValue parser.frames token
  | .itemOrEnd => close parser.frames token <|> startValue parser.frames token
  | .keyOrEnd => close parser.frames token <|> startField parser.frames token
  | .key => startField parser.frames token
  | .colon =>
      match token with
      | .colon => some ⟨.value, parser.frames⟩
      | _ => none
  | .commaOrEnd =>
      match token, parser.frames with
      | .comma, .array _ :: _ => some ⟨.value, parser.frames⟩
      | .comma, .object _ _ :: _ => some ⟨.key, parser.frames⟩
      | token, frames => close frames token
  | .nothing _ => none

end Parser

def parse? (text : String) : Option Json := do
  let parser ← (← tokens? text).foldlM Parser.step Parser.start
  match parser.expected with
  | .nothing result => some result
  | _ => none

end PortablePdb.Json
