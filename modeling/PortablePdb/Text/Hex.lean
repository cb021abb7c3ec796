/-!
# Hexadecimal and octet text

Numbers are written in lower-case hexadecimal, either bare, with the mark `0x`, or filled with
zeros to a fixed count of digits.  Byte strings are written two digits a byte.
-/

namespace PortablePdb.Text

/-- The hexadecimal digits of a number, without a mark and without leading zeros. -/
def hex (n : Nat) : String :=
  String.ofList (Nat.toDigits 16 n)

/-- The hexadecimal digits of a number, filled with zeros to at least `digits` digits. -/
def hexFilled (digits n : Nat) : String :=
  let text := Nat.toDigits 16 n
  String.ofList (List.replicate (digits - text.length) '0' ++ text)

def markedHex (n : Nat) : String :=
  "0x" ++ hex n

def markedHexFilled (digits n : Nat) : String :=
  "0x" ++ hexFilled digits n

def hexDigit (n : Nat) : Char :=
  if n < 10 then Char.ofNat (48 + n) else Char.ofNat (87 + n)

/-- Two digits for each byte. -/
def hexBytes (bytes : ByteArray) : String :=
  String.ofList (bytes.data.toList.flatMap fun byte =>
    [hexDigit (byte.toNat / 16), hexDigit (byte.toNat % 16)])

end PortablePdb.Text
