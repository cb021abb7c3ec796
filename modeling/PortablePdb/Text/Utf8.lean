/-!
# Reading bytes as UTF-8 text

A byte string either is well-formed UTF-8 or breaks off at a first position where no character can
be decoded.  A `Utf8Error` records that position and how many bytes there form the broken
sequence: the longest start of a character that the bytes spell, or nothing if the byte string ends
inside a character that could still have been completed.
-/

namespace PortablePdb.Text

structure Utf8Error where
  /-- The length of the longest well-formed start of the bytes. -/
  validLength : Nat
  /-- The length of the broken sequence, or `none` if the bytes end too early. -/
  brokenLength : Option Nat
  deriving DecidableEq, Repr

def Utf8Error.message (error : Utf8Error) : String :=
  match error.brokenLength with
  | some length => "invalid utf-8 sequence of " ++ toString length ++ " bytes from index "
      ++ toString error.validLength
  | none => "incomplete utf-8 byte sequence from index " ++ toString error.validLength

/-- The length of the longest well-formed start of `bytes` at or after `position`. -/
def wellFormedLength (bytes : ByteArray) (position : Nat) : Nat :=
  if position < bytes.size then
    match bytes.utf8DecodeChar? position with
    | some c => wellFormedLength bytes (position + c.utf8Size)
    | none => position
  else position
  termination_by bytes.size - position
  decreasing_by
    have := c.utf8Size_pos
    omega

/-- How many bytes follow a first byte in a character's encoding, and the range that the second
byte must lie in.  Bytes that start no character give `none`. -/
def continuation (first : UInt8) : Option (Nat × Nat × Nat) :=
  let n := first.toNat
  if 0xC2 ≤ n ∧ n ≤ 0xDF then some (1, 0x80, 0xBF)
  else if n = 0xE0 then some (2, 0xA0, 0xBF)
  else if n = 0xED then some (2, 0x80, 0x9F)
  else if 0xE1 ≤ n ∧ n ≤ 0xEF then some (2, 0x80, 0xBF)
  else if n = 0xF0 then some (3, 0x90, 0xBF)
  else if n = 0xF4 then some (3, 0x80, 0x8F)
  else if 0xF1 ≤ n ∧ n ≤ 0xF3 then some (3, 0x80, 0xBF)
  else none

/-- The count of continuation bytes that start `bytes`, at most `limit`; `none` if the bytes end
before a byte of another kind or the limit stops the count. -/
def continuationRun : (limit : Nat) → (bytes : List UInt8) → Option Nat
  | 0, _ => some 0
  | _ + 1, [] => none
  | limit + 1, byte :: rest =>
      if 0x80 ≤ byte.toNat ∧ byte.toNat ≤ 0xBF then (continuationRun limit rest).map (· + 1)
      else some 0

/-- The length of the broken sequence that starts `bytes`. -/
def brokenSequence : List UInt8 → Option Nat
  | [] => none
  | first :: rest =>
      match continuation first, rest with
      | none, _ => some 1
      | some _, [] => none
      | some (count, low, high), second :: rest =>
          if low ≤ second.toNat ∧ second.toNat ≤ high then
            (continuationRun (count - 1) rest).map (· + 2)
          else some 1

def decodeUtf8 (bytes : ByteArray) : Except Utf8Error String :=
  match String.fromUTF8? bytes with
  | some text => .ok text
  | none =>
      let validLength := wellFormedLength bytes 0
      let rest := bytes.extract validLength (validLength + 4)
      .error ⟨validLength, brokenSequence rest.data.toList⟩

theorem decodeUtf8_toUTF8 (text : String) : decodeUtf8 text.toUTF8 = .ok text := by
  have h : String.fromUTF8? text.toUTF8 = some text := by
    simp only [String.fromUTF8?, String.toUTF8_eq_toByteArray, dif_pos text.isValidUTF8]
    rfl
  unfold decodeUtf8
  rw [h]

end PortablePdb.Text
