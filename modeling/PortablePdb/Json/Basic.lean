import PortablePdb.Json.Decimal

/-!
# JSON values

A string may escape one half of a surrogate pair alone; it then denotes no text, and its text is
`none`.  A number that is not a row of digits, or that does not fit in 64 bits, is kept as a
decimal: a significand and a power of ten.
-/

namespace PortablePdb

inductive Json where
  | null
  | bool (value : Bool)
  /-- A number that is written with digits alone and fits in 64 bits. -/
  | natural (value : Nat)
  /-- Any other number: `significand * 10 ^ exponent`, or its negation.  Digits beyond a significand
  of 64 bits are lost. -/
  | decimal (negative : Bool) (significand : Nat) (exponent : Int)
  | text (value : Option String)
  | array (items : List Json)
  | object (fields : List (Option String × Json))
  deriving Repr

namespace Json

def ofString (value : String) : Json :=
  .text (some value)

/-- An object whose keys are texts. -/
def ofFields (fields : List (String × Json)) : Json :=
  .object (fields.map fun field => (some field.1, field.2))

mutual

/-- Whether a reader that stores the value can do so: every string denotes a text, every decimal
has a finite double-precision value, and arrays and objects are nested at most `depth` deep. -/
def storable (depth : Nat) : Json → Bool
  | null | bool _ | natural _ => true
  | decimal _ significand exponent => isFinite significand exponent
  | text value => value.isSome
  | array items => 0 < depth && storableItems (depth - 1) items
  | object fields => 0 < depth && storableFields (depth - 1) fields

def storableItems (depth : Nat) : List Json → Bool
  | [] => true
  | item :: items => storable depth item && storableItems depth items

def storableFields (depth : Nat) : List (Option String × Json) → Bool
  | [] => true
  | (key, value) :: fields =>
      key.isSome && storable depth value && storableFields depth fields

end

end Json

end PortablePdb
