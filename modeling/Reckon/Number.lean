import Reckon.Magnitude.Shortest

/-! The numbers of the language, which are binary64, and how they are read and written. -/
namespace Reckon.Number

/-- A literal is rounded to the closest number, or to infinity beyond the largest. -/
def ofDecimal (decimal : Decimal) : Float :=
  Float.ofBits (UInt64.ofNat (Magnitude.ofDecimal decimal))

def isNegative (number : Float) : Bool :=
  Nat.pow 2 63 ≤ number.toBits.toNat

def magnitude (number : Float) : Nat :=
  number.toBits.toNat % Nat.pow 2 63

def magnitudeText (pattern : Nat) : String :=
  if pattern = 0 then "0"
  else if pattern = Magnitude.infinity then "inf"
  else String.ofList (Magnitude.shortest pattern).digits

/-- The fewest digits that read back, without an exponent and with a point only before a fraction.
Both zeros keep their sign, what is not a number has none. -/
def text (number : Float) : String :=
  if Magnitude.infinity < magnitude number then "NaN"
  else if isNegative number then "-" ++ magnitudeText (magnitude number)
  else magnitudeText (magnitude number)

/-- Everything but the two zeros counts as true. -/
def isTruthy (number : Float) : Bool :=
  number != 0.0

def ofBool (condition : Bool) : Float :=
  if condition then 1.0 else 0.0

end Reckon.Number
