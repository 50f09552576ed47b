/-! Decimal numerals: a coefficient scaled by a power of ten, and its text without an exponent. -/
namespace Reckon

structure Decimal where
  coefficient : Nat
  exponent : Int
deriving DecidableEq, Repr

namespace Decimal

/-- Over `denominator`, the exact value. -/
def numerator (decimal : Decimal) : Nat :=
  decimal.coefficient * Nat.pow 10 decimal.exponent.toNat

def denominator (decimal : Decimal) : Nat :=
  Nat.pow 10 (-decimal.exponent).toNat

theorem denominator_pos (decimal : Decimal) : 0 < decimal.denominator :=
  Nat.pow_pos (by decide)

def ofDigits (whole fraction : List Char) : Decimal where
  coefficient := Nat.ofDigitChars 10 (whole ++ fraction) 0
  exponent := -(fraction.length : Int)

/-- Every digit is written out, and there is a point only when the exponent is negative. -/
def digits (decimal : Decimal) : List Char :=
  let places := (-decimal.exponent).toNat
  let unit := Nat.pow 10 places
  let whole := Nat.toDigits 10 (decimal.numerator / unit)
  if places = 0 then whole
  else whole ++ '.' :: (Nat.toDigits 10 (decimal.numerator % unit)).leftpad places '0'

end Decimal

end Reckon
