import PortablePdb.Text.Blank

/-!
# Decimal numerals

A numeral is a nonempty row of the digits `0` to `9`, optionally after a plus sign.  Leading zeros
are allowed.  Where a number has to fit in 32 bits, a numeral of a larger number is none.
-/

namespace PortablePdb.Text

/-- The value of the digits of `text` written after those of `value`. -/
def appendDigits (value : Nat) : List Char → Option Nat
  | [] => some value
  | c :: rest =>
      if '0' ≤ c ∧ c ≤ '9' then appendDigits (10 * value + (c.toNat - 48)) rest else none

def digits? : List Char → Option Nat
  | [] => none
  | c :: rest => appendDigits 0 (c :: rest)

/-- The value of a numeral below `2 ^ 32`. -/
def numeral32? (text : List Char) : Option Nat :=
  let digits := match text with
    | '+' :: rest => rest
    | _ => text
  (digits? digits).filter (· < 0x100000000)

/-- The value of a numeral that may have blanks around it. -/
def paddedNumeral32? (text : List Char) : Option Nat :=
  numeral32? (trim text)

end PortablePdb.Text
