/-!
Binary64 magnitudes and the one closest to a fraction. The bit pattern of a number without its sign
is a natural number, and patterns are ordered as the numbers they stand for.
-/
namespace Reckon.Magnitude

/-- Smaller patterns are finite, larger ones are not numbers. -/
def infinity : Nat := 0x7ff * Nat.pow 2 52

def significand (pattern : Nat) : Nat :=
  if pattern < Nat.pow 2 52 then pattern else pattern % Nat.pow 2 52 + Nat.pow 2 52

/-- A finite pattern stands for its significand times two to this power. -/
def exponent (pattern : Nat) : Int :=
  if pattern < Nat.pow 2 52 then -1074 else (pattern / Nat.pow 2 52 : Nat) - 1075

/-- The integer closest to a fraction; a half goes to the even one. -/
def roundedQuotient (numerator denominator : Nat) : Nat :=
  let quotient := numerator / denominator
  let twice := 2 * (numerator % denominator)
  if twice < denominator ∨ twice = denominator ∧ quotient % 2 = 0 then quotient else quotient + 1

def scaled (numerator denominator : Nat) (power : Int) : Nat × Nat :=
  (numerator * Nat.pow 2 (-power).toNat, denominator * Nat.pow 2 power.toNat)

/-- The power of two that leaves a significand of 53 binary digits, or the least power there is. -/
def power (numerator denominator : Nat) : Int :=
  let estimate := max ((numerator.log2 : Int) - denominator.log2 - 53) (-1074)
  let (top, bottom) := scaled numerator denominator estimate
  if Nat.pow 2 53 ≤ top / bottom then estimate + 1 else estimate

/-- The pattern closest to a fraction. A significand that rounding carries over to the next power
of two moves the exponent by plain addition. -/
def nearest (numerator denominator : Nat) : Nat :=
  if numerator = 0 then 0
  else
    let power := power numerator denominator
    let (top, bottom) := scaled numerator denominator power
    min ((power + 1074).toNat * Nat.pow 2 52 + roundedQuotient top bottom) infinity

end Reckon.Magnitude
