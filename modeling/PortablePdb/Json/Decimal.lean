/-!
# Decimal numbers of limited precision

The digits of a number are read into a significand of 64 bits, and the power of ten that belongs to
it is kept beside it.  The double-precision value of the number is the product of the two, each
rounded on its own, so a number close to the largest double may have no finite value even though it
is smaller than that.  All of this is arithmetic on natural numbers.
-/

namespace PortablePdb.Json

/-- The digits that are kept of a row of digits, and how many are not. -/
structure Significand where
  value : Nat
  /-- The number of digits that did not fit. -/
  dropped : Nat
  value_lt : value < 0x10000000000000000

namespace Significand

def zero : Significand :=
  ⟨0, 0, by decide⟩

/-- Takes one more digit.  A digit that does not fit is dropped, and so is every digit after it. -/
def push (significand : Significand) (digit : Nat) : Significand :=
  let value := significand.value * 10 + digit
  if h : significand.dropped = 0 ∧ value < 0x10000000000000000 then ⟨value, 0, h.2⟩
  else { significand with dropped := significand.dropped + 1 }

def ofDigits (digits : List Char) : Significand :=
  digits.foldl (fun significand c => significand.push (c.toNat - 48)) zero

end Significand

/-- The nearest natural number that has at most 53 significant bits.  Of two that are equally near
it is the one whose last significant bit is zero. -/
def roundToDouble (n : Nat) : Nat :=
  let unit := 1 <<< (n.log2 + 1 - 53)
  let quotient := n / unit
  let twiceRest := 2 * (n % unit)
  if unit < twiceRest ∨ (twiceRest = unit ∧ quotient % 2 = 1) then (quotient + 1) * unit
  else quotient * unit

/-- The least natural number that is rounded beyond the largest double. -/
def doubleLimit : Nat :=
  1 <<< 1024 - 1 <<< 970

/-- The largest power of ten that is below `doubleLimit` has this exponent. -/
def maxExponent : Int := 308

/-- Whether the product of `significand` and `10 ^ exponent`, each rounded on its own, is rounded to
a finite double.  A quotient is always finite. -/
def isFinite (significand : Nat) (exponent : Int) : Bool :=
  significand == 0 || exponent < 0 ||
    (exponent ≤ maxExponent &&
      roundToDouble significand * roundToDouble (Nat.pow 10 exponent.toNat) < doubleLimit)

end PortablePdb.Json
