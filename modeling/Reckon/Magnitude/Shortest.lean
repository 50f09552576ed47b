import Reckon.Decimal
import Reckon.Magnitude

/-!
The decimal that stands for a finite magnitude: on the coarsest decimal grid that has one, the
point closest to the magnitude among those that read back as it, the larger of two equally close.
-/
namespace Reckon.Magnitude

def ofDecimal (decimal : Decimal) : Nat :=
  nearest decimal.numerator decimal.denominator

def numerator (pattern : Nat) : Nat :=
  significand pattern * Nat.pow 2 (exponent pattern).toNat

def denominator (pattern : Nat) : Nat :=
  Nat.pow 2 (-exponent pattern).toNat

def expansion (pattern : Nat) : Decimal where
  coefficient := numerator pattern * Nat.pow 5 (-exponent pattern).toNat
  exponent := min (exponent pattern) 0

/-- The neighbours of a magnitude on the grid of multiples of a power of ten that read back as it,
the closer one first. -/
def neighbours (pattern : Nat) (grid : Int) : List Decimal :=
  let top := numerator pattern * Nat.pow 10 (-grid).toNat
  let bottom := denominator pattern * Nat.pow 10 grid.toNat
  let lower : Decimal := ⟨top / bottom, grid⟩
  let upper : Decimal := ⟨top / bottom + 1, grid⟩
  let ordered := if 2 * (top % bottom) < bottom then [lower, upper] else [upper, lower]
  ordered.filter fun decimal => ofDecimal decimal = pattern

/-- A power of ten above the magnitude: 0.30103 is a little more than the logarithm of two. -/
def decimalBound (pattern : Nat) : Int :=
  (((numerator pattern).log2 : Int) - (denominator pattern).log2 + 1) * 30103 / 100000 + 1

/-- Seventeen digits always read back, so the expansion stands in for none of them in practice. -/
def shortest (pattern : Nat) : Decimal :=
  let grids := (List.range 20).map fun step : Nat => decimalBound pattern - step
  (grids.findSome? fun grid => (neighbours pattern grid).head?).getD (expansion pattern)

end Reckon.Magnitude
